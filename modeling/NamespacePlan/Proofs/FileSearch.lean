import Mathlib.Data.List.Nodup
import NamespacePlan.Proofs.FileTrees
import NamespacePlan.SchemaSet

/-! What a search for schemas finds below a directory: the ways down through names that are not
hidden to a name with the ending of a schema, each way once. -/
namespace NamespacePlan

open NamespacePlan.Path

/-! The ending. -/

namespace Text.Wildcard

theorem someEnd_iff (p : List Char → Bool) (cs : List Char) :
    someEnd p cs = true ↔ ∃ xs, xs <:+ cs ∧ p xs = true := by
  induction cs with
  | nil =>
    simp only [someEnd, List.suffix_nil]
    exact ⟨fun h => ⟨[], rfl, h⟩, fun ⟨_, empty, h⟩ => empty ▸ h⟩
  | cons c cs ih =>
    simp only [someEnd, Bool.or_eq_true, ih, List.suffix_cons_iff]
    constructor
    · rintro (here | ⟨xs, suffix, h⟩)
      · exact ⟨_, Or.inl rfl, here⟩
      · exact ⟨xs, Or.inr suffix, h⟩
    · rintro ⟨xs, rfl | suffix, h⟩
      · exact Or.inl h
      · exact Or.inr ⟨xs, suffix, h⟩

theorem fits_chars (ds cs : List Char) : fits (ds.map .char) cs = true ↔ cs = ds := by
  induction ds generalizing cs with
  | nil => simp [fits]
  | cons d ds ih =>
    cases cs with
    | nil => simp [fits]
    | cons c cs => simp [fits, Part.fits, ih]

theorem matchesName_star (ending : List Char) (signs : ending.any isSign = false)
    (name : String) : matchesName (String.ofList ('*' :: ending)) name = true ↔
      ending <:+ name.toList := by
  have plain : ∀ (cs : List Char) (fuel : Nat), cs.length ≤ fuel → (∀ c ∈ cs, isSign c = false) →
      partsOf fuel cs = cs.map .char := by
    intro cs
    induction cs with
    | nil => intro fuel _ _; cases fuel <;> rfl
    | cons c cs ih =>
      intro fuel enough each
      obtain ⟨fuel, rfl⟩ : ∃ n, fuel = n + 1 := ⟨fuel - 1, by simp at enough; omega⟩
      have other := each c List.mem_cons_self
      simp only [isSign, Bool.or_eq_false_iff, beq_eq_false_iff_ne] at other
      rw [partsOf, if_neg other.1.1, if_neg other.1.2, if_neg other.2,
        ih fuel (by simpa using enough) fun x member => each x (List.mem_cons_of_mem c member)]
      rfl
  have each : ∀ c ∈ ending, isSign c = false := by simpa using signs
  rw [matchesName, String.toList_ofList, String.length_ofList, List.length_cons, partsOf,
    if_pos rfl, plain ending _ (Nat.le_refl _) each, fits, someEnd_iff]
  simp only [fits_chars, exists_eq_right]

end Text.Wildcard

namespace Glob

/-! The walk below a node. -/

theorem mem_belowEntries_iff (directoriesOnly : Bool) (entries : List (String × FileNode))
    (p : String) : p ∈ belowEntries directoriesOnly entries ↔
      ∃ e ∈ entries, isHidden e.1 = false ∧
        ((directoriesOnly = true → e.2.isDirectory = true) ∧ p = e.1 ∨
          ∃ q ∈ below directoriesOnly e.2, p = e.1 ++ "/" ++ q) := by
  induction entries with
  | nil => simp [belowEntries]
  | cons e es ih =>
    obtain ⟨name, n⟩ := e
    rw [belowEntries, List.mem_append, ih, List.exists_mem_cons_iff]
    apply or_congr_left
    by_cases hidden : isHidden name = true
    · simp [hidden]
    · have shown : isHidden name = false := by simpa using hidden
      have kept : p ∈ (if directoriesOnly && !n.isDirectory then [] else [name]) ↔
          (directoriesOnly = true → n.isDirectory = true) ∧ p = name := by
        cases directoriesOnly <;> cases n.isDirectory <;> simp
      simp only [shown, Bool.false_eq_true, if_false, List.mem_append, kept, List.mem_map, true_and,
        eq_comm (b := p)]

/-- No name on the way is hidden. -/
def Visible (names : List String) : Prop := ∀ name ∈ names, isHidden name = false

instance (names : List String) : Decidable (Visible names) :=
  List.decidableBAll _ names

/-- The walk meets exactly the ways through names that are not hidden. -/
theorem mem_below_iff {n : FileNode} (proper : n.Proper) (directoriesOnly : Bool) (p : String) :
    p ∈ below directoriesOnly n ↔ ∃ names m, names ≠ [] ∧ Visible names ∧
      n.below? names = some m ∧ (directoriesOnly = true → m.isDirectory = true) ∧
      p = ofPieces names := by
  induction proper generalizing p with
  | file bytes =>
    constructor
    · intro member
      cases member
    · rintro ⟨names, m, more, _, found, _⟩
      cases names with
      | nil => exact absurd rfl more
      | cons name names => cases found
  | @directory entries nodup names proper ih =>
    rw [below, mem_belowEntries_iff]
    constructor
    · rintro ⟨e, member, shown, ⟨kind, rfl⟩ | ⟨q, inside, rfl⟩⟩
      · refine ⟨[e.1], e.2, List.cons_ne_nil _ _, ?_, ?_, kind, (ofPieces_singleton e.1).symm⟩
        · intro name h
          rwa [List.mem_singleton.1 h]
        · rw [FileNode.below?_singleton]
          exact (FileNode.lookup_eq_some_iff nodup e.1 e.2).2 member
      · obtain ⟨ns, m, more, visible, found, kind, rfl⟩ := (ih e member q).1 inside
        refine ⟨e.1 :: ns, m, List.cons_ne_nil _ _, ?_, ?_, kind, (ofPieces_cons e.1 more).symm⟩
        · intro name h
          rcases List.mem_cons.1 h with rfl | later
          · exact shown
          · exact visible name later
        · have child : (FileNode.directory entries).child? e.1 = some e.2 :=
            (FileNode.lookup_eq_some_iff nodup e.1 e.2).2 member
          rw [FileNode.below?_cons, child, Option.bind_some, found]
    · rintro ⟨names, m, more, visible, found, kind, rfl⟩
      cases names with
      | nil => exact absurd rfl more
      | cons name ns =>
        rw [FileNode.below?_cons, Option.bind_eq_some_iff] at found
        obtain ⟨k, child, rest⟩ := found
        have member := (FileNode.lookup_eq_some_iff nodup name k).1 child
        refine ⟨(name, k), member, visible name List.mem_cons_self, ?_⟩
        cases ns with
        | nil =>
          cases rest
          exact Or.inl ⟨kind, ofPieces_singleton name⟩
        | cons x xs =>
          refine Or.inr ⟨ofPieces (x :: xs), ?_, ofPieces_cons name (List.cons_ne_nil x xs)⟩
          exact (ih (name, k) member _).2 ⟨x :: xs, m, List.cons_ne_nil x xs,
            fun y h => visible y (List.mem_cons_of_mem name h), rest, kind, rfl⟩

/-- What the walk meets below one entry begins with its name. -/
theorem head?_pieces_of_entry {e : String × FileNode} (slash : '/' ∉ e.1.toList) {p : String}
    (met : p = e.1 ∨ ∃ q, p = e.1 ++ "/" ++ q) : (pieces p).head? = some e.1 := by
  rcases met with rfl | ⟨q, rfl⟩
  · rw [pieces_of_name slash]
    rfl
  · rw [pieces_slash, pieces_of_name slash]
    rfl

section Entry

variable {name : String} (slash : '/' ∉ name.toList) (directoriesOnly : Bool) (n : FileNode)

include slash

theorem head?_pieces_of_mem {p : String}
    (member : p ∈ (if directoriesOnly && !n.isDirectory then [] else [name]) ++
      (below directoriesOnly n).map fun q => name ++ "/" ++ q) :
    (pieces p).head? = some name := by
  apply head?_pieces_of_entry (e := (name, n)) slash
  rcases List.mem_append.1 member with own | inside
  · split at own
    · cases own
    · exact Or.inl (List.mem_singleton.1 own)
  · obtain ⟨q, _, rfl⟩ := List.mem_map.1 inside
    exact Or.inr ⟨q, rfl⟩

/-- A way down has a slash that the name itself has not. -/
theorem nodup_entry (inner : (below directoriesOnly n).Nodup) :
    ((if directoriesOnly && !n.isDirectory then [] else [name]) ++
      (below directoriesOnly n).map fun q => name ++ "/" ++ q).Nodup := by
  have under : ((below directoriesOnly n).map fun q => name ++ "/" ++ q).Nodup :=
    inner.map fun a b same => String.append_right_inj _ |>.1 same
  refine List.nodup_append.2 ⟨?_, under, ?_⟩
  · split <;> simp
  · intro a left b right same
    have here : a = name := by
      split at left
      · cases left
      · exact List.mem_singleton.1 left
    obtain ⟨q, _, rfl⟩ := List.mem_map.1 right
    apply slash
    rw [← here, same, toList_slash]
    exact List.mem_append_right _ List.mem_cons_self

end Entry

theorem nodup_below {n : FileNode} (proper : n.Proper) (directoriesOnly : Bool) :
    (below directoriesOnly n).Nodup := by
  induction proper with
  | file bytes => exact List.nodup_nil
  | @directory entries nodup names proper ih =>
    rw [below]
    clear proper
    induction entries with
    | nil => exact List.nodup_nil
    | cons e es walk =>
      obtain ⟨name, n⟩ := e
      rw [List.map_cons, List.nodup_cons] at nodup
      have rest := walk nodup.2 (fun f h => names f (List.mem_cons_of_mem _ h))
        fun f h => ih f (List.mem_cons_of_mem _ h)
      have slash : '/' ∉ name.toList := (names _ List.mem_cons_self).slash
      rw [belowEntries]
      by_cases hidden : isHidden name = true
      · rw [if_pos hidden]
        exact rest
      · rw [if_neg hidden]
        have own := nodup_entry slash directoriesOnly n (ih _ List.mem_cons_self)
        refine List.nodup_append.2 ⟨own, rest, ?_⟩
        -- the first pieces differ
        intro a left b right same
        have first := head?_pieces_of_mem slash directoriesOnly n left
        obtain ⟨f, member, _, met⟩ := (mem_belowEntries_iff _ es b).1 right
        have second : (pieces b).head? = some f.1 :=
          head?_pieces_of_entry (names f (List.mem_cons_of_mem _ member)).slash
            (met.imp And.right (Exists.imp fun _ h => h.2))
        rw [same, second] at first
        exact nodup.1 (List.mem_map.2 ⟨f, member, Option.some.inj first⟩)

end Glob

end NamespacePlan
