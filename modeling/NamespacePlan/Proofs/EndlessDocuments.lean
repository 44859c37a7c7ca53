import NamespacePlan.Yaml.Document

/-! The parser takes tokens away and never makes new ones, so what it leaves was among them at first, and
so was any fault that is none of its own. A document without its end is no document. -/
namespace NamespacePlan.Yaml

namespace Node

/-- What may be wrong about tokens: their notation, their nesting, or where the text stopped. -/
inductive Blames (ts : List Token) : Fault → Prop
  | malformed : Blames ts .malformed
  | depth : Blames ts (.stray .tooDeep)
  | stopped {f : Fault} (stop : .stop f ∈ ts) : Blames ts f

/-- A result leaves only tokens that were there; a failure is that of a parser, or was there. -/
def Shrinks {α : Type} (ts : List Token) : Except Fault (α × Rest) → Prop
  | .ok (_, s) => s.tokens ⊆ ts
  | .error f => Blames ts f

theorem Blames.mono {ts us : List Token} {f : Fault} (blames : Blames us f) (part : us ⊆ ts) :
    Blames ts f := by
  cases blames with
  | malformed => exact .malformed
  | depth => exact .depth
  | stopped stop => exact .stopped (part stop)

section Shrinks

variable {α β : Type} {ts us : List Token} {x : Except Fault (α × Rest)}

theorem shrinks_malformed : Shrinks ts (.error .malformed : Except Fault (α × Rest)) := .malformed

theorem shrinks_ok (a : α) {s : Rest} (part : s.tokens ⊆ ts) : Shrinks ts (.ok (a, s)) := part

theorem Shrinks.bind {f : α × Rest → Except Fault (β × Rest)} (first : Shrinks ts x)
    (next : ∀ a s, s.tokens ⊆ ts → Shrinks ts (f (a, s))) : Shrinks ts (x >>= f) := by
  cases x with
  | error e => exact first
  | ok r => exact next r.1 r.2 first

theorem Shrinks.mono (shrinks : Shrinks us x) (part : us ⊆ ts) : Shrinks ts x := by
  cases x with
  | error e => exact Blames.mono shrinks part
  | ok r => exact List.Subset.trans shrinks part

theorem shrinks_optional (ends : List Token) {read : Rest → Except Fault (Node × Rest)} {r : Rest}
    (reads : Shrinks ts (read r)) (part : r.tokens ⊆ ts) : Shrinks ts (optional ends read r) := by
  unfold optional
  split
  · exact shrinks_ok empty part
  · exact reads

theorem unexpected_error (ts : List Token) :
    ∃ f, (unexpected ts : Except Fault α) = .error f ∧ Blames ts f := by
  unfold unexpected
  split
  · exact ⟨_, rfl, .stopped List.mem_cons_self⟩
  · exact ⟨_, rfl, .malformed⟩

theorem shrinks_unexpected (part : us ⊆ ts) :
    Shrinks ts (unexpected us : Except Fault (α × Rest)) := by
  obtain ⟨f, failed, blames⟩ := unexpected_error (α := α × Rest) us
  rw [failed]
  exact blames.mono part

theorem name_tokens (r : Rest) (anchor : Option String) (n : Node) :
    (r.name anchor n).tokens = r.tokens := by
  cases anchor <;> rfl

theorem shrinks_leave (props : Properties) (n : Node) {r : Rest} (part : r.tokens ⊆ ts) :
    Shrinks ts (.ok (leave props n r)) :=
  shrinks_ok n (by rw [name_tokens]; exact part)

theorem close_tokens (props : Properties) (n : Node) (r : Rest) :
    (close props n r).2.tokens = r.tokens := by
  unfold close
  split <;> rfl

theorem shrinks_close (props : Properties) (n : Node) {r : Rest} (part : r.tokens ⊆ ts) :
    Shrinks ts (.ok (close props n r)) := by
  change (close props n r).2.tokens ⊆ ts
  rwa [close_tokens]

theorem shrinks_enter {nesting : Option Nat} {f : Option Nat → Except Fault (α × Rest)}
    (inside : ∀ inner, Shrinks ts (f inner)) : Shrinks ts (enter nesting >>= f) := by
  cases nesting with
  | none => exact inside none
  | some n =>
    cases n with
    | zero => exact .depth
    | succ n => exact inside (some n)

/-- A collection is entered, its parts are read, and it is closed. -/
theorem shrinks_collection {nesting : Option Nat} (props : Properties) (build : β → Node)
    {read : Option Nat → Except Fault (β × Rest)} (reads : ∀ inner, Shrinks ts (read inner)) :
    Shrinks ts (do
      let inner ← enter nesting
      let (parts, r) ← read inner
      .ok (close props (build parts) r)) :=
  shrinks_enter fun inner => (reads inner).bind fun parts _ left =>
    shrinks_close props (build parts) left

theorem shrinks_orEmpty (props : Properties) (name : Option String) {r : Rest} (part : r.tokens ⊆ ts) :
    Shrinks ts (orEmpty props name r) := by
  unfold orEmpty
  split
  · exact shrinks_unexpected part
  · exact shrinks_leave _ _ part

theorem properties_subset (ts : List Token) : (properties ts).2 ⊆ ts := by
  unfold properties
  split <;> simp

theorem separated_subset {first : Bool} (separates : separated first ts = .ok us) : us ⊆ ts := by
  unfold separated at separates
  split at separates
  · cases separates
    exact List.Subset.refl _
  · split at separates
    · cases separates
      exact List.subset_cons_self _ _
    · obtain ⟨f, failed, _⟩ := unexpected_error (α := List Token) ts
      rw [failed] at separates
      cases separates

theorem blames_separated {first : Bool} {f : Fault} (failed : separated first ts = .error f) :
    Blames ts f := by
  unfold separated at failed
  split at failed
  · cases failed
  · split at failed
    · cases failed
    · obtain ⟨g, unexpected, blames⟩ := unexpected_error (α := List Token) ts
      rw [unexpected] at failed
      cases failed
      exact blames

theorem tagName_error {prefixes : List (String × String)} {tag : Option (Option String × String)}
    {f : Fault} (failed : tagName prefixes tag = .error f) : f = .malformed := by
  unfold tagName at failed
  split at failed
  · cases failed
  · cases failed
  · split at failed <;> cases failed
    rfl

end Shrinks

/-- The parser with some fuel only takes tokens away. -/
structure AllShrink (prefixes : List (String × String)) (fuel : Nat) : Prop where
  node : ∀ nesting block indentless r,
    Shrinks r.tokens (ofTokens prefixes nesting fuel block indentless r)
  items : ∀ nesting r, Shrinks r.tokens (blockItems prefixes nesting fuel r)
  indentless : ∀ nesting r, Shrinks r.tokens (indentlessItems prefixes nesting fuel r)
  entries : ∀ nesting r, Shrinks r.tokens (blockEntries prefixes nesting fuel r)
  pair : ∀ nesting close r, Shrinks r.tokens (flowPair prefixes nesting fuel close r)
  flow : ∀ nesting first r, Shrinks r.tokens (flowItems prefixes nesting fuel first r)
  flowed : ∀ nesting first r, Shrinks r.tokens (flowEntries prefixes nesting fuel first r)

variable {prefixes : List (String × String)} {fuel : Nat}

/-- What stands behind the first token was there. -/
theorem tail_subset {ts us : List Token} {t : Token} (text : us = t :: ts) : ts ⊆ us := by
  rw [text]
  exact List.subset_cons_self _ _

theorem AllShrink.items_succ (all : AllShrink prefixes fuel) (nesting : Option Nat) (r : Rest) :
    Shrinks r.tokens (blockItems prefixes nesting (fuel + 1) r) := by
  unfold blockItems
  split
  · next ts text =>
    have part := tail_subset text
    refine .bind (shrinks_optional _ ((all.node _ _ _ _).mono part) part) fun n s left => ?_
    exact .bind ((all.items _ s).mono left) fun ns s' left' => shrinks_ok _ left'
  · next ts text => exact shrinks_ok _ (tail_subset text)
  · exact shrinks_unexpected (List.Subset.refl _)

theorem AllShrink.indentless_succ (all : AllShrink prefixes fuel) (nesting : Option Nat) (r : Rest) :
    Shrinks r.tokens (indentlessItems prefixes nesting (fuel + 1) r) := by
  unfold indentlessItems
  split
  · next ts text =>
    have part := tail_subset text
    refine .bind (shrinks_optional _ ((all.node _ _ _ _).mono part) part) fun n s left => ?_
    exact .bind ((all.indentless _ s).mono left) fun ns s' left' => shrinks_ok _ left'
  · exact shrinks_ok _ (List.Subset.refl _)

theorem AllShrink.entries_succ (all : AllShrink prefixes fuel) (nesting : Option Nat) (r : Rest) :
    Shrinks r.tokens (blockEntries prefixes nesting (fuel + 1) r) := by
  unfold blockEntries
  split
  · next ts text =>
    have part := tail_subset text
    refine .bind (shrinks_optional _ ((all.node _ _ _ _).mono part) part) fun k s left => ?_
    dsimp only
    split
    · next us text' =>
      have part' := List.Subset.trans (tail_subset text') left
      refine .bind (shrinks_optional _ ((all.node _ _ _ _).mono part') part') fun v s' left' => ?_
      exact .bind ((all.entries _ s').mono left') fun es s'' left'' => shrinks_ok _ left''
    · exact .bind (shrinks_ok empty left) fun v s' left' =>
        .bind ((all.entries _ s').mono left') fun es s'' left'' => shrinks_ok _ left''
  · next ts text => exact shrinks_ok _ (tail_subset text)
  · exact shrinks_unexpected (List.Subset.refl _)

theorem AllShrink.pair_succ (all : AllShrink prefixes fuel) (nesting : Option Nat) (close : Token)
    (r : Rest) :
    Shrinks r.tokens (flowPair prefixes nesting (fuel + 1) close r) := by
  unfold flowPair
  refine .bind (shrinks_optional _ (all.node _ _ _ _) (List.Subset.refl _)) fun k s left => ?_
  dsimp only
  split
  · next us text' =>
    have part' := List.Subset.trans (tail_subset text') left
    refine .bind (shrinks_optional _ ((all.node _ _ _ _).mono part') part') fun v s' left' => ?_
    exact shrinks_ok _ left'
  · exact shrinks_ok _ left

theorem AllShrink.flow_succ (all : AllShrink prefixes fuel) (nesting : Option Nat) (first : Bool)
    (r : Rest) :
    Shrinks r.tokens (flowItems prefixes nesting (fuel + 1) first r) := by
  unfold flowItems
  split
  · next text => exact shrinks_ok _ (tail_subset text)
  · next failed _ => exact blames_separated failed
  · next separates _ =>
    exact shrinks_ok _ (List.Subset.trans (List.subset_cons_self _ _) (separated_subset separates))
  · next separates _ =>
    have part := List.Subset.trans (List.subset_cons_self _ _) (separated_subset separates)
    refine shrinks_enter fun inner => .bind ((all.pair inner _ _).mono part) fun e s left => ?_
    exact .bind ((all.flow _ _ s).mono left) fun ns s' left' => shrinks_ok _ left'
  · next _ _ separates _ =>
    refine .bind ((all.node _ _ _ _).mono (separated_subset separates)) fun n s left => ?_
    exact .bind ((all.flow _ _ s).mono left) fun ns s' left' => shrinks_ok _ left'

theorem AllShrink.flowed_succ (all : AllShrink prefixes fuel) (nesting : Option Nat) (first : Bool)
    (r : Rest) :
    Shrinks r.tokens (flowEntries prefixes nesting (fuel + 1) first r) := by
  unfold flowEntries
  split
  · next text => exact shrinks_ok _ (tail_subset text)
  · next failed _ => exact blames_separated failed
  · next separates _ =>
    exact shrinks_ok _ (List.Subset.trans (List.subset_cons_self _ _) (separated_subset separates))
  · next separates _ =>
    have part := List.Subset.trans (List.subset_cons_self _ _) (separated_subset separates)
    refine .bind ((all.pair _ _ _).mono part) fun e s left => ?_
    exact .bind ((all.flowed _ _ s).mono left) fun ns s' left' => shrinks_ok _ left'
  · next _ _ separates _ =>
    refine .bind ((all.node _ _ _ _).mono (separated_subset separates)) fun n s left => ?_
    exact .bind ((all.flowed _ _ s).mono left) fun ns s' left' => shrinks_ok _ left'

theorem AllShrink.node_succ (all : AllShrink prefixes fuel) (nesting : Option Nat)
    (block indentless : Bool) (r : Rest) :
    Shrinks r.tokens (ofTokens prefixes nesting (fuel + 1) block indentless r) := by
  unfold ofTokens
  split
  · next a ts text =>
    split
    · exact shrinks_malformed
    · exact shrinks_ok _ (tail_subset text)
  · have part := properties_subset r.tokens
    generalize properties r.tokens = p at part ⊢
    obtain ⟨props, ts⟩ := p
    dsimp only at part ⊢
    cases named : tagName prefixes props.tag with
    | error f => exact tagName_error named ▸ .malformed
    | ok name =>
      change Shrinks r.tokens (ite _ _ _)
      split
      · exact shrinks_malformed
      · have entered : ∀ {us : List Token} (n : Node), us ⊆ ts →
            ((r.at us).name props.anchor n).tokens ⊆ r.tokens := by
          intro us n inner
          rw [name_tokens]
          exact List.Subset.trans inner part
        split
        · split
          · exact shrinks_collection _ _ fun inner =>
              (all.indentless inner _).mono (entered _ (List.Subset.refl _))
          · exact shrinks_orEmpty _ _ part
        · exact shrinks_leave _ _ (List.Subset.trans (List.subset_cons_self _ _) part)
        · exact shrinks_collection _ _ fun inner =>
            (all.flow inner _ _).mono (entered _ (List.subset_cons_self _ _))
        · exact shrinks_collection _ _ fun inner =>
            (all.flowed inner _ _).mono (entered _ (List.subset_cons_self _ _))
        · exact shrinks_collection _ _ fun inner =>
            (all.items inner _).mono (entered _ (List.subset_cons_self _ _))
        · exact shrinks_collection _ _ fun inner =>
            (all.entries inner _).mono (entered _ (List.subset_cons_self _ _))
        · exact shrinks_orEmpty _ _ part

theorem allShrink (fuel : Nat) : AllShrink prefixes fuel := by
  induction fuel with
  | zero =>
    constructor <;> intros <;> exact shrinks_malformed
  | succ fuel all =>
    exact ⟨all.node_succ, all.items_succ, all.indentless_succ, all.entries_succ, all.pair_succ,
      all.flow_succ, all.flowed_succ⟩

end Node

namespace Document

/-- A result leaves only tokens that were there; a failure is that of a parser, or was there. -/
def Leaves {α : Type} (ts : List Token) : Except Fault (α × List Token) → Prop
  | .ok (_, us) => us ⊆ ts
  | .error f => Node.Blames ts f

theorem Leaves.mono {α : Type} {ts us : List Token} {x : Except Fault (α × List Token)}
    (leaves : Leaves us x) (part : us ⊆ ts) : Leaves ts x := by
  cases x with
  | error f => exact Node.Blames.mono leaves part
  | ok r => exact List.Subset.trans leaves part

theorem leaves_root (nesting : Option Nat) (prefixes : List (String × String)) (ts : List Token) :
    Leaves ts (root nesting prefixes ts) := by
  have all : Node.AllShrink prefixes (3 * ts.length + 3) := Node.allShrink _
  have node := all.node nesting true false { tokens := ts }
  unfold root
  cases read : Node.ofTokens prefixes nesting (3 * ts.length + 3) true false { tokens := ts } with
  | error f =>
    rw [read] at node
    exact node
  | ok r =>
    rw [read] at node
    exact node

theorem leaves_directives (ts : List Token) (versioned : Bool)
    (prefixes : List (String × String)) : Leaves ts (directives versioned prefixes ts) := by
  induction ts generalizing versioned prefixes with
  | nil => exact List.Subset.refl _
  | cons t ts ih =>
    unfold directives
    split
    · next text =>
      cases text
      split
      · exact .malformed
      · exact (ih _ _).mono (List.subset_cons_self _ _)
    · next text =>
      cases text
      split
      · exact .malformed
      · exact (ih _ _).mono (List.subset_cons_self _ _)
    · next text =>
      cases text
      exact (ih _ _).mono (List.subset_cons_self _ _)
    · exact List.Subset.refl _

theorem leaves_marked (nesting : Option Nat) (ts : List Token) : Leaves ts (marked nesting ts) := by
  have front := leaves_directives ts false []
  unfold marked
  split
  · next behind =>
    rw [behind] at front
    exact front
  · next behind =>
    rw [behind] at front
    have part := List.Subset.trans (List.subset_cons_self _ _) front
    split
    · exact part
    · exact (leaves_root _ _ _).mono part
  · next vs _ behind =>
    rw [behind] at front
    obtain ⟨f, failed, blames⟩ := Node.unexpected_error (α := Node × List Token) vs
    rw [failed]
    exact blames.mono front

/-- Behind the root node stands the end of the text, or a fault. -/
theorem ending_cases (n : Node) (ts : List Token) :
    (ending n ts = .ok n ∧ .streamEnd ∈ ts) ∨ ∃ f, ending n ts = .error f ∧ Node.Blames ts f := by
  have part : ts.dropWhile (· == .documentEnd) ⊆ ts := (List.dropWhile_sublist _).subset
  unfold ending
  split
  · next text =>
    rw [text] at part
    exact .inl ⟨rfl, part List.mem_cons_self⟩
  · obtain ⟨f, failed, blames⟩ := Node.unexpected_error (α := Node) (ts.dropWhile (· == .documentEnd))
    exact .inr ⟨f, failed, blames.mono part⟩

/-- Tokens are no document, or they are one that ends among them. -/
theorem ofTokens_cases (nesting : Option Nat) (ts : List Token) :
    ((∃ n, ofTokens nesting ts = .ok n) ∧ .streamEnd ∈ ts) ∨
      ∃ f, ofTokens nesting ts = .error f ∧ Node.Blames ts f := by
  unfold ofTokens
  split
  · next head => exact .inl ⟨⟨_, rfl⟩, List.mem_of_head? head⟩
  · have begins : Leaves ts
        (if ts.head?.any fun t => isOutside t && t != .documentEnd then marked nesting ts
          else root nesting commonPrefixes ts) := by
      split
      · exact leaves_marked _ ts
      · exact leaves_root _ _ ts
    dsimp only
    split
    · next f failed =>
      rw [failed] at begins
      exact .inr ⟨f, rfl, begins⟩
    · next n us read =>
      rw [read] at begins
      rcases ending_cases n us with ⟨ended, last⟩ | ⟨f, failed, blames⟩
      · rw [ended]
        exact .inl ⟨⟨_, rfl⟩, begins last⟩
      · rw [failed]
        exact .inr ⟨f, rfl, blames.mono begins⟩

/-- Tokens that lack the end of the text are no document. -/
theorem ofTokens_endless (nesting : Option Nat) {ts : List Token} (endless : .streamEnd ∉ ts) :
    ∃ f, ofTokens nesting ts = .error f := by
  rcases ofTokens_cases nesting ts with ⟨_, last⟩ | ⟨f, failed, _⟩
  · exact absurd last endless
  · exact ⟨f, failed⟩

/-- A document fails over its notation or its depth, or where the text stopped. -/
theorem blames_of_ofTokens {nesting : Option Nat} {ts : List Token} {f : Fault}
    (failed : ofTokens nesting ts = .error f) :
    Node.Blames ts f := by
  rcases ofTokens_cases nesting ts with ⟨⟨n, read⟩, _⟩ | ⟨g, failed', blames⟩
  · rw [read] at failed
    cases failed
  · rw [failed] at failed'
    cases failed'
    exact blames

end Document

end NamespacePlan.Yaml
