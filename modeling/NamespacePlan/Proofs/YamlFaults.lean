import NamespacePlan.Proofs.EndlessDocuments
import NamespacePlan.Proofs.LexerFaults
import NamespacePlan.Yaml.Reader

/-! The faults of a YAML text that are none of its notation. Each is one of the spelling, or of how deep
the text nests, or comes of a scalar in the document whose text has no value of the type that it is
read as. -/
namespace NamespacePlan.Yaml

/-- Somewhere in the node stands a text that has no value of its type. -/
inductive Node.Strays (s : Stray) : Node → Prop
  | here {n : Node} (fails : asScalar n.tag n = .error (.stray s)) : Strays s n
  | item {tag : Tag} {items : List Node} {n : Node} (member : n ∈ items) (inside : Strays s n) :
      Strays s (.sequence tag items)
  | key {tag : Tag} {entries : List (Node × Node)} {e : Node × Node} (member : e ∈ entries)
      (inside : Strays s e.1) : Strays s (.mapping tag entries)
  | value {tag : Tag} {entries : List (Node × Node)} {e : Node × Node} (member : e ∈ entries)
      (inside : Strays s e.2) : Strays s (.mapping tag entries)

namespace Misfit

/-- A failure that is none of the notation has a cause. -/
def Traced {α : Type} (cause : Stray → Prop) : Except Misfit α → Prop
  | .ok _ => True
  | .error m => ∀ s, m.fault = .stray s → cause s

section Traced

variable {α β : Type} {cause wider : Stray → Prop} {x : Except Misfit α} {y : Except Misfit β}

theorem Traced.mono (traced : Traced cause x) (wide : ∀ s, cause s → wider s) : Traced wider x := by
  cases x with
  | ok a => trivial
  | error m => exact fun s stray => wide s (traced s stray)

theorem Traced.map (traced : Traced cause x) (f : α → β) : Traced cause (x.map f) := by
  cases x with
  | ok a => trivial
  | error m => exact traced

theorem Traced.deeper (traced : Traced cause x) : Traced cause (deeper x) := by
  cases x with
  | ok a => trivial
  | error m => exact traced

theorem Traced.both (first : Traced cause x) (second : Traced cause y) :
    Traced cause (both x y) := by
  cases x with
  | ok a =>
    cases y with
    | ok b => trivial
    | error n => exact second
  | error m =>
    cases y with
    | ok b => exact first
    | error n =>
      change ∀ s, (ite _ _ _ : Misfit).fault = .stray s → cause s
      split
      · exact second
      · exact first

theorem traced_malformed (depth : Nat) :
    Traced cause (.error ⟨depth, .malformed⟩ : Except Misfit α) := fun _ same => by cases same

end Traced

end Misfit

namespace Node

open Misfit

theorem traced_asKey {cause : Stray → Prop} {x : Except Misfit Value} (traced : Traced cause x) :
    Traced cause (asKey x) := by
  unfold asKey
  split
  · split
    · trivial
    · exact traced_malformed 0
  · split
    · exact traced
    · exact traced_malformed 0

theorem traced_plainValue (n : Node) : Traced (fun s => Strays s n) (plainValue n.tag n) := by
  unfold plainValue
  split
  · cases fails : asScalar n.tag n with
    | ok v => trivial
    | error f =>
      rintro s rfl
      exact .here fails
  · exact traced_malformed 1
  · exact traced_malformed 0

/-- A text always has a value, once it is reached. -/
theorem traced_text (n : Node) : Traced (fun s => Strays s n) (plainValue .text n) := by
  change Traced _ ((asScalar .text n).mapError (⟨0, ·⟩))
  cases reached : n.link.text with
  | error f =>
    have fails : ∀ tag, asScalar tag n = .error f := fun tag => by rw [asScalar, reached]; rfl
    rw [fails]
    rintro s rfl
    exact .here (fails _)
  | ok text =>
    rw [asScalar, reached]
    cases text <;> trivial

/-- One of some entries strays, in its key or in its value. -/
def EntryStrays (entries : List (Node × Node)) (s : Stray) : Prop :=
  ∃ e ∈ entries, Strays s e.1 ∨ Strays s e.2

/-- One of some nodes strays. -/
def ItemStrays (items : List Node) (s : Stray) : Prop := ∃ n ∈ items, Strays s n

section Strays

variable {s : Stray} {items : List Node} {entries : List (Node × Node)}

theorem Strays.of_entries {t : Tag} (strays : EntryStrays entries s) :
    Strays s (mapping t entries) := by
  obtain ⟨e, member, inside | inside⟩ := strays
  · exact .key member inside
  · exact .value member inside

theorem Strays.of_items {tag : Tag} (strays : ItemStrays items s) :
    Strays s (sequence tag items) := by
  obtain ⟨n, member, inside⟩ := strays
  exact .item member inside

theorem EntryStrays.later (e : Node × Node) (strays : EntryStrays entries s) :
    EntryStrays (e :: entries) s := by
  obtain ⟨f, member, inside⟩ := strays
  exact ⟨f, List.mem_cons_of_mem e member, inside⟩

theorem ItemStrays.later (n : Node) (strays : ItemStrays items s) : ItemStrays (n :: items) s := by
  obtain ⟨m, member, inside⟩ := strays
  exact ⟨m, List.mem_cons_of_mem n member, inside⟩

theorem EntryStrays.of_key (v : Node) (entries : List (Node × Node)) {k : Node}
    (strays : Strays s k) : EntryStrays ((k, v) :: entries) s :=
  ⟨_, List.mem_cons_self, .inl strays⟩

theorem EntryStrays.of_value (k : Node) (entries : List (Node × Node)) {v : Node}
    (strays : Strays s v) : EntryStrays ((k, v) :: entries) s :=
  ⟨_, List.mem_cons_self, .inr strays⟩

theorem ItemStrays.first (items : List Node) {n : Node} (strays : Strays s n) :
    ItemStrays (n :: items) s := ⟨n, List.mem_cons_self, strays⟩

end Strays

mutual

theorem traced_value : (n : Node) → Traced (fun s => Strays s n) (value n)
  | scalar tag text => by
    rw [value]
    exact traced_plainValue (scalar tag text)
  | enclosing tag isMapping link => by
    unfold value
    split
    · trivial
    · trivial
    · trivial
    · trivial
    · trivial
    · exact traced_plainValue (enclosing tag isMapping link)
  | sequence tag items => by
    have each := traced_values items
    have paired := traced_pairs items
    unfold value
    split
    · exact (each.deeper.map _).mono fun _ => .of_items
    · exact (paired.deeper.map _).mono fun _ => .of_items
    · exact (paired.deeper.map _).mono fun _ => .of_items
    · exact traced_plainValue (sequence tag items)
  | mapping tag entries => by
    have all := (traced_merged entries).both (traced_own entries)
    unfold value
    split
    · exact (all.deeper.map _).mono fun _ => .of_entries
    · exact (all.deeper.map _).mono fun _ => .of_entries
    · exact traced_plainValue (mapping tag entries)

theorem traced_values : (items : List Node) → Traced (ItemStrays items) (values items)
  | [] => by
    rw [values]
    trivial
  | n :: ns => by
    have first := (traced_value n).mono fun _ => ItemStrays.first ns
    have behind := (traced_values ns).mono fun _ => ItemStrays.later n
    rw [values]
    exact (first.both behind).map _

theorem traced_pairs : (items : List Node) → Traced (ItemStrays items) (pairs items)
  | [] => by
    rw [pairs]
    trivial
  | n :: ns => by
    have behind := (traced_pairs ns).mono fun _ => ItemStrays.later n
    unfold pairs
    split
    · trivial
    · next tag k v ms same =>
      cases same
      have pair := fun s (strays : EntryStrays [(k, v)] s) =>
        ItemStrays.first ns (Strays.of_entries (t := tag) strays)
      have key := (traced_value k).mono fun s strays => pair s (.of_key v [] strays)
      have value := (traced_value v).mono fun s strays => pair s (.of_value k [] strays)
      exact ((key.both value).both behind).map _
    · exact traced_malformed 0

theorem traced_own : (entries : List (Node × Node)) → Traced (EntryStrays entries) (own entries)
  | [] => by
    rw [own]
    trivial
  | (k, v) :: es => by
    have key := (traced_value k).mono fun _ => EntryStrays.of_key v es
    have value := (traced_value v).mono fun _ => EntryStrays.of_value k es
    have behind := (traced_own es).mono fun _ => EntryStrays.later (k, v)
    unfold own
    split
    · exact behind
    · refine ((Traced.both ?_ value).both behind).map _
      split
      · exact (traced_text k).mono fun _ => EntryStrays.of_key v es
      · exact traced_asKey key

theorem traced_merged : (entries : List (Node × Node)) → Traced (EntryStrays entries) (merged entries)
  | [] => by
    rw [merged]
    trivial
  | (k, v) :: es => by
    have value := (traced_source v).mono fun _ => EntryStrays.of_value k es
    have behind := (traced_merged es).mono fun _ => EntryStrays.later (k, v)
    unfold merged
    split
    · exact (value.both behind).map _
    · exact behind

theorem traced_source : (n : Node) → Traced (fun s => Strays s n) (source n)
  | mapping tag es => by
    rw [source]
    exact (((traced_merged es).both (traced_own es)).map _).mono fun _ => .of_entries
  | sequence tag ns => by
    rw [source]
    exact (traced_sources ns).mono fun _ => .of_items
  | enclosing _ true _ => by
    rw [source]
    trivial
  | enclosing _ false _ => by
    rw [source]
    · exact traced_malformed 0
    all_goals simp
  | scalar tag text => by
    rw [source]
    · exact traced_malformed 0
    all_goals simp

theorem traced_sources : (items : List Node) → Traced (ItemStrays items) (sources items)
  | [] => by
    rw [sources]
    trivial
  | n :: ns => by
    have first := (traced_source n).mono fun _ => ItemStrays.first ns
    have behind := (traced_sources ns).mono fun _ => ItemStrays.later n
    unfold sources
    split
    · exact (first.both behind).map _
    · exact traced_malformed 0

end

end Node

/-- What a text strays over besides its notation. -/
inductive StraysIn (nesting : Option Nat) (cs : List Char) : Stray → Prop
  | spelling {s : Stray} (spelling : Fault.IsSpelling (.stray s)) : StraysIn nesting cs s
  | depth : StraysIn nesting cs .tooDeep
  | node {root : Node} {s : Stray}
      (document : Document.ofTokens nesting (Token.ofText cs) = .ok (some root))
      (inside : root.Strays s) : StraysIn nesting cs s

/-- A text fails over something else than its notation only over its spelling or depth, or where a
scalar of its document has no value. -/
theorem straysIn_of_read {nesting : Option Nat} {cs : List Char} {s : Stray}
    (failed : readWithin nesting cs = .error (.stray s)) : StraysIn nesting cs s := by
  unfold readWithin at failed
  split at failed
  · cases failed
  · split at failed
    · next f stopped =>
      cases failed
      cases Document.blames_of_ofTokens stopped with
      | depth => exact .depth
      | stopped stop => exact .spelling (Token.ofText_stop stop)
    · cases failed
    · next root document =>
      have traced := root.traced_value
      cases value : root.value with
      | ok v =>
        rw [value] at failed
        cases failed
      | error m =>
        rw [value] at failed traced
        exact .node document (traced s (Except.error.inj failed))

end NamespacePlan.Yaml
