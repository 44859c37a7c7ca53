import NamespacePlan.Proofs.BlockTokens
import NamespacePlan.Yaml.Reader

/-! The nodes of data: what the tokens of a value are read as, and the value of that node. -/
namespace NamespacePlan.Yaml

open Datum

mutual

/-- The node of a value. -/
def nodeOf : Datum → Node
  | .null => .scalar .null (some "null".toList)
  | .bool b => .scalar .bool (some (writeBool b))
  | .text s => .scalar .text (some s.toList)
  | .list ds => .sequence .sequence (nodesOf ds)
  | .object fs => .mapping .mapping (entriesOf fs)

def nodesOf : List Datum → List Node
  | [] => []
  | d :: ds => nodeOf d :: nodesOf ds

def entriesOf : List (String × Datum) → List (Node × Node)
  | [] => []
  | (k, d) :: fs => (.scalar .text (some k.toList), nodeOf d) :: entriesOf fs

end

namespace Node

section Steps

variable {prefixes : List (String × String)} {block indentless : Bool} {ts : List Token}

theorem ofTokens_scalar (fuel : Nat) (text : Option (List Char)) (plain : Bool) :
    ofTokens prefixes none (fuel + 1) block indentless { tokens := .scalar text plain :: ts } =
      .ok (scalar (scalarTag none plain text) text, { tokens := ts }) := by
  rfl

theorem ofTokens_indentless {fuel : Nat} {items : List Node} {r : Rest}
    (run : indentlessItems prefixes none fuel { tokens := .blockEntry :: ts } = .ok (items, r)) :
    ofTokens prefixes none (fuel + 1) block true { tokens := .blockEntry :: ts } =
      .ok (sequence .sequence items, r) := by
  change (indentlessItems prefixes none fuel { tokens := .blockEntry :: ts }).bind _ = _
  rw [run]
  rfl

theorem ofTokens_blockSequence {fuel : Nat} {items : List Node} {r : Rest}
    (run : blockItems prefixes none fuel { tokens := ts } = .ok (items, r)) :
    ofTokens prefixes none (fuel + 1) true indentless { tokens := .blockSequenceStart :: ts } =
      .ok (sequence .sequence items, r) := by
  change (blockItems prefixes none fuel { tokens := ts }).bind _ = _
  rw [run]
  rfl

theorem ofTokens_blockMapping {fuel : Nat} {entries : List (Node × Node)} {r : Rest}
    (run : blockEntries prefixes none fuel { tokens := ts } = .ok (entries, r)) :
    ofTokens prefixes none (fuel + 1) true indentless { tokens := .blockMappingStart :: ts } =
      .ok (mapping .mapping entries, r) := by
  change (blockEntries prefixes none fuel { tokens := ts }).bind _ = _
  rw [run]
  rfl

theorem ofTokens_flowSequence (fuel : Nat) :
    ofTokens prefixes none (fuel + 2) block indentless
        { tokens := .flowSequenceStart :: .flowSequenceEnd :: ts } =
      .ok (sequence .sequence [], { tokens := ts }) := rfl

theorem ofTokens_flowMapping (fuel : Nat) :
    ofTokens prefixes none (fuel + 2) block indentless
        { tokens := .flowMappingStart :: .flowMappingEnd :: ts } =
      .ok (mapping .mapping [], { tokens := ts }) := rfl

theorem blockItems_entry {fuel : Nat} {n : Node} {ns : List Node} {r s : Rest}
    (first : optional [.blockEntry, .blockEnd] (ofTokens prefixes none fuel true false) { tokens := ts } =
      .ok (n, r)) (run : blockItems prefixes none fuel r = .ok (ns, s)) :
    blockItems prefixes none (fuel + 1) { tokens := .blockEntry :: ts } = .ok (n :: ns, s) := by
  change (optional [.blockEntry, .blockEnd] (ofTokens prefixes none fuel true false)
    { tokens := ts }).bind _ = _
  rw [first]
  change (blockItems prefixes none fuel r).bind _ = _
  rw [run]
  rfl

theorem indentlessItems_entry {fuel : Nat} {n : Node} {ns : List Node} {r s : Rest}
    (first : optional [.blockEntry, .key, .value, .blockEnd] (ofTokens prefixes none fuel true false)
      { tokens := ts } = .ok (n, r)) (run : indentlessItems prefixes none fuel r = .ok (ns, s)) :
    indentlessItems prefixes none (fuel + 1) { tokens := .blockEntry :: ts } = .ok (n :: ns, s) := by
  change (optional [.blockEntry, .key, .value, .blockEnd] (ofTokens prefixes none fuel true false)
    { tokens := ts }).bind _ = _
  rw [first]
  change (indentlessItems prefixes none fuel r).bind _ = _
  rw [run]
  rfl

theorem indentlessItems_end (fuel : Nat) (other : ts.head? ≠ some .blockEntry) :
    indentlessItems prefixes none (fuel + 1) { tokens := ts } = .ok ([], { tokens := ts }) := by
  cases ts with
  | nil => rfl
  | cons t ts =>
    cases t
    case blockEntry => exact absurd rfl other
    all_goals rfl

theorem blockEntries_entry {fuel : Nat} {text : Option (List Char)} {plain : Bool} {v : Node}
    {es : List (Node × Node)} {r s : Rest}
    (value : optional [.key, .value, .blockEnd] (ofTokens prefixes none (fuel + 1) true true)
      { tokens := ts } = .ok (v, r)) (run : blockEntries prefixes none (fuel + 1) r = .ok (es, s)) :
    blockEntries prefixes none (fuel + 2) { tokens := .key :: .scalar text plain :: .value :: ts } =
      .ok ((scalar (scalarTag none plain text) text, v) :: es, s) := by
  change (optional [.key, .value, .blockEnd] (ofTokens prefixes none (fuel + 1) true true)
    { tokens := ts }).bind _ = _
  rw [value]
  change (blockEntries prefixes none (fuel + 1) r).bind _ = _
  rw [run]
  rfl

end Steps

end Node

/-! Whole values. -/

/-- The token of a text is read as that text. -/
theorem exists_textToken (cs : List Char) : ∃ plain, Lexer.textToken cs = .scalar (some cs) plain ∧
    Node.scalarTag none plain (some cs) = .text := by
  refine ⟨_, rfl, ?_⟩
  unfold Node.scalarTag
  split
  · next kept =>
    have text : ImplicitType.of cs = .text := by
      rcases kept with h | ⟨_, h⟩
      · cases h
      · rw [Bool.and_eq_true, decide_eq_true_eq] at h
        exact h.1
    change Tag.ofLooks cs = .text
    rw [Tag.ofLooks, text]
  · rfl

theorem exists_tokens (marked : Bool) (d : Datum) : ∃ t ts, tokens marked d = t :: ts ∧
    t ∉ [.key, .value, .blockEnd] ∧ (t = .blockEntry → marked = false) := by
  cases d with
  | null => exact ⟨_, [], rfl, by simp, by simp⟩
  | bool b => exact ⟨_, [], rfl, by simp, by simp⟩
  | text s => exact ⟨_, [], rfl, by simp [Lexer.textToken], by simp [Lexer.textToken]⟩
  | list ds =>
    cases ds with
    | nil => exact ⟨_, _, rfl, by simp, by simp⟩
    | cons d ds =>
      cases marked with
      | true => exact ⟨_, _, rfl, by simp, by simp⟩
      | false => exact ⟨_, _, rfl, by simp, by simp⟩
  | object fs =>
    cases fs with
    | nil => exact ⟨_, _, rfl, by simp, by simp⟩
    | cons f fs => exact ⟨_, _, rfl, by simp, by simp⟩

/-- The parser reads the tokens of a value, in front of anything that does not go on with the list. -/
def Parsed (d : Datum) : Prop :=
  ∀ (prefixes : List (String × String)) (marked indentless : Bool) (fuel : Nat) (rest : List Token),
    3 * (tokens marked d).length + 2 ≤ fuel →
    (marked = false → indentless = true ∧ rest.head? ≠ some .blockEntry) →
    Node.ofTokens prefixes none fuel true indentless { tokens := tokens marked d ++ rest } =
      .ok (nodeOf d, { tokens := rest })

section Runs

variable {prefixes : List (String × String)}

theorem optional_tokens {ends : List Token} (marked : Bool) (d : Datum) (rest : List Token)
    (apart : ends ⊆ [.blockEntry, .key, .value, .blockEnd])
    (entry : .blockEntry ∈ ends → marked = true)
    (read : Node.Rest → Except Fault (Node × Node.Rest)) :
    Node.optional ends read { tokens := tokens marked d ++ rest } =
      read { tokens := tokens marked d ++ rest } := by
  obtain ⟨t, ts, written, other, dash⟩ := exists_tokens marked d
  have unlisted : ends.contains t = false := by
    rw [← Bool.not_eq_true, List.contains_iff_mem]
    intro member
    rcases List.mem_cons.1 (apart member) with rfl | mark
    · exact absurd (entry member) (by simp [dash rfl])
    · exact other mark
  rw [written]
  simp only [Node.optional, List.cons_append, List.head?_cons, Option.any_some, unlisted,
    Bool.false_eq_true, if_false]

theorem blockItems_tokens {ds : List Datum} (each : ∀ d ∈ ds, Parsed d) (rest : List Token)
    {fuel : Nat} (enough : 3 * (itemTokens ds).length + 1 ≤ fuel) :
    Node.blockItems prefixes none fuel { tokens := itemTokens ds ++ .blockEnd :: rest } =
      .ok (nodesOf ds, { tokens := rest }) := by
  induction ds generalizing fuel with
  | nil =>
    obtain ⟨fuel, rfl⟩ : ∃ n, fuel = n + 1 := ⟨fuel - 1, by omega⟩
    rfl
  | cons d ds ih =>
    rw [itemTokens, List.length_append, List.length_cons] at enough
    obtain ⟨fuel, rfl⟩ : ∃ n, fuel = n + 1 := ⟨fuel - 1, by omega⟩
    have value := each d List.mem_cons_self prefixes true false fuel
      (itemTokens ds ++ .blockEnd :: rest) (by omega) (fun h => Bool.noConfusion h)
    rw [itemTokens, List.append_assoc]
    refine Node.blockItems_entry ?_
      (ih (fun e member => each e (List.mem_cons_of_mem d member)) (by omega))
    exact (optional_tokens true d _ (by simp) (fun _ => rfl) _).trans value

theorem indentlessItems_tokens {ds : List Datum} (each : ∀ d ∈ ds, Parsed d) {rest : List Token}
    (other : rest.head? ≠ some .blockEntry) {fuel : Nat}
    (enough : 3 * (itemTokens ds).length + 1 ≤ fuel) :
    Node.indentlessItems prefixes none fuel { tokens := itemTokens ds ++ rest } =
      .ok (nodesOf ds, { tokens := rest }) := by
  induction ds generalizing fuel with
  | nil =>
    obtain ⟨fuel, rfl⟩ : ∃ n, fuel = n + 1 := ⟨fuel - 1, by omega⟩
    exact Node.indentlessItems_end fuel other
  | cons d ds ih =>
    rw [itemTokens, List.length_append, List.length_cons] at enough
    obtain ⟨fuel, rfl⟩ : ∃ n, fuel = n + 1 := ⟨fuel - 1, by omega⟩
    have value := each d List.mem_cons_self prefixes true false fuel (itemTokens ds ++ rest)
      (by omega) (fun h => Bool.noConfusion h)
    rw [itemTokens, List.append_assoc]
    refine Node.indentlessItems_entry ?_
      (ih (fun e member => each e (List.mem_cons_of_mem d member)) (by omega))
    exact (optional_tokens true d _ (by simp) (fun _ => rfl) _).trans value

theorem blockEntries_tokens {fs : List (String × Datum)} (each : ∀ f ∈ fs, Parsed f.2)
    (rest : List Token) {fuel : Nat} (enough : 3 * (fieldTokens fs).length + 1 ≤ fuel) :
    Node.blockEntries prefixes none fuel { tokens := fieldTokens fs ++ .blockEnd :: rest } =
      .ok (entriesOf fs, { tokens := rest }) := by
  induction fs generalizing fuel with
  | nil =>
    obtain ⟨fuel, rfl⟩ : ∃ n, fuel = n + 1 := ⟨fuel - 1, by omega⟩
    rfl
  | cons f fs ih =>
    obtain ⟨k, d⟩ := f
    rw [fieldTokens, List.length_append] at enough
    simp only [List.length_cons] at enough
    obtain ⟨fuel, rfl⟩ : ∃ n, fuel = n + 2 := ⟨fuel - 2, by omega⟩
    have behind : (fieldTokens fs ++ .blockEnd :: rest).head? ≠ some .blockEntry := by
      cases fs with
      | nil => simp [fieldTokens]
      | cons g fs => simp [fieldTokens]
    have first : Parsed d := each (k, d) List.mem_cons_self
    have value := first prefixes (!isSimpleKey k.toList) true (fuel + 1)
      (fieldTokens fs ++ .blockEnd :: rest) (by omega) (fun _ => ⟨rfl, behind⟩)
    obtain ⟨plain, token, tag⟩ := exists_textToken k.toList
    rw [fieldTokens, entriesOf, List.append_assoc, token, ← tag]
    refine Node.blockEntries_entry ?_
      (ih (fun g member => each g (List.mem_cons_of_mem _ member)) (by omega))
    exact (optional_tokens _ d _ (by simp) (by simp) _).trans value

end Runs

theorem parsed_of_scalar {d : Datum} {text : List Char} {plain : Bool}
    (token : ∀ marked, tokens marked d = [.scalar (some text) plain])
    (node : nodeOf d = .scalar (Node.scalarTag none plain (some text)) (some text)) : Parsed d := by
  intro prefixes marked indentless fuel rest enough _
  obtain ⟨fuel, rfl⟩ : ∃ n, fuel = n + 1 := ⟨fuel - 1, by omega⟩
  rw [token, node]
  exact Node.ofTokens_scalar fuel (some text) plain

theorem parsed_list {d : Datum} {ds : List Datum} (each : ∀ e ∈ d :: ds, Parsed e) :
    Parsed (.list (d :: ds)) := by
  intro prefixes marked indentless fuel rest enough behind
  obtain ⟨fuel, rfl⟩ : ∃ n, fuel = n + 1 := ⟨fuel - 1, by omega⟩
  cases marked with
  | true =>
    have written : tokens true (.list (d :: ds)) =
        .blockSequenceStart :: (itemTokens (d :: ds) ++ [.blockEnd]) := by
      simp [tokens, itemTokens]
    rw [written, List.length_cons, List.length_append] at enough
    rw [written, List.cons_append, List.append_assoc]
    exact Node.ofTokens_blockSequence (blockItems_tokens each rest (by omega))
  | false =>
    have written : tokens false (.list (d :: ds)) = itemTokens (d :: ds) := by
      simp [tokens, itemTokens]
    obtain ⟨rfl, other⟩ := behind rfl
    rw [written] at enough ⊢
    exact Node.ofTokens_indentless (indentlessItems_tokens each other (by omega))

theorem parsed_object {f : String × Datum} {fs : List (String × Datum)}
    (each : ∀ g ∈ f :: fs, Parsed g.2) : Parsed (.object (f :: fs)) := by
  intro prefixes marked indentless fuel rest enough _
  obtain ⟨fuel, rfl⟩ : ∃ n, fuel = n + 1 := ⟨fuel - 1, by omega⟩
  have written : tokens marked (.object (f :: fs)) =
      .blockMappingStart :: (fieldTokens (f :: fs) ++ [.blockEnd]) := by
    obtain ⟨k, d⟩ := f
    simp [tokens, fieldTokens]
  rw [written, List.length_cons, List.length_append] at enough
  rw [written, List.cons_append, List.append_assoc]
  exact Node.ofTokens_blockMapping (blockEntries_tokens each rest (by omega))

theorem parsed (d : Datum) : Parsed d := by
  induction d using Datum.induct with
  | null =>
    have tag : Node.scalarTag none true (some "null".toList) = .null := by decide
    exact parsed_of_scalar (fun _ => rfl) (by rw [tag]; rfl)
  | bool b =>
    have tag : Node.scalarTag none true (some (writeBool b)) = .bool := by cases b <;> decide
    exact parsed_of_scalar (fun _ => rfl) (by rw [tag]; rfl)
  | text s =>
    obtain ⟨plain, token, tag⟩ := exists_textToken s.toList
    exact parsed_of_scalar (fun _ => congrArg (fun t => [t]) token) (by rw [tag]; rfl)
  | list ds each =>
    cases ds with
    | nil =>
      intro prefixes marked indentless fuel rest enough _
      obtain ⟨fuel, rfl⟩ : ∃ n, fuel = n + 2 := ⟨fuel - 2, by omega⟩
      exact Node.ofTokens_flowSequence fuel
    | cons d ds => exact parsed_list each
  | object fs each =>
    cases fs with
    | nil =>
      intro prefixes marked indentless fuel rest enough _
      obtain ⟨fuel, rfl⟩ : ∃ n, fuel = n + 2 := ⟨fuel - 2, by omega⟩
      exact Node.ofTokens_flowMapping fuel
    | cons f fs => exact parsed_object each

/-! Values of nodes. -/

theorem value_text (s : String) : (Node.scalar .text (some s.toList)).value = .ok (.text s) := by
  change Except.ok (Value.text (String.ofList s.toList)) = _
  rw [String.ofList_toList]

theorem values_nodesOf {ds : List Datum} (each : ∀ d ∈ ds, (nodeOf d).value = .ok d.toValue) :
    Node.values (nodesOf ds) = .ok (toValues ds) := by
  induction ds with
  | nil => rfl
  | cons d ds ih =>
    rw [nodesOf, Node.values, each d List.mem_cons_self,
      ih fun e member => each e (List.mem_cons_of_mem d member)]
    rfl

theorem own_entriesOf {fs : List (String × Datum)}
    (each : ∀ f ∈ fs, (nodeOf f.2).value = .ok f.2.toValue) :
    Node.own (entriesOf fs) = .ok (toEntries fs) := by
  induction fs with
  | nil => rfl
  | cons f fs ih =>
    obtain ⟨k, d⟩ := f
    have value : (nodeOf d).value = .ok d.toValue := each (k, d) List.mem_cons_self
    have key : Node.asKey (Node.value (.scalar .text (some k.toList))) = .ok (.text k) := by
      rw [value_text]
      rfl
    change (Misfit.both (Misfit.both (Node.asKey (Node.value (.scalar .text (some k.toList))))
      (nodeOf d).value) (Node.own (entriesOf fs))).map (fun r => r.1 :: r.2) = _
    rw [key, value, ih fun g member => each g (List.mem_cons_of_mem _ member)]
    rfl

/-- No key of the data asks for a merge. -/
theorem merged_entriesOf (fs : List (String × Datum)) : Node.merged (entriesOf fs) = .ok [] := by
  induction fs with
  | nil => rfl
  | cons f fs ih =>
    obtain ⟨k, d⟩ := f
    rw [entriesOf, Node.merged, if_neg (by simp [Node.tag]), ih]

theorem value_nodeOf (d : Datum) : d.DistinctKeys → (nodeOf d).value = .ok d.toValue := by
  induction d using Datum.induct with
  | null => exact fun _ => rfl
  | bool b =>
    intro _
    cases b <;> rfl
  | text s => exact fun _ => value_text s
  | list ds each =>
    intro distinct
    have items : ∀ d ∈ ds, (nodeOf d).value = .ok d.toValue := fun d member =>
      each d member (AllDistinct.of_mem distinct d member)
    rw [nodeOf, Node.value, values_nodesOf items]
    rfl
  | object fs each =>
    intro distinct
    have fields : ∀ f ∈ fs, (nodeOf f.2).value = .ok f.2.toValue := fun f member =>
      each f member (FieldsDistinct.of_mem distinct.2 f member)
    rw [nodeOf, Node.value, merged_entriesOf, own_entriesOf fields]
    change Except.ok (Value.map (Value.mapOf ([] ++ toEntries fs))) = _
    rw [List.nil_append, mapOf_toEntries distinct.1]
    rfl

/-! Documents. -/

theorem ofTokens_document (f : String × Datum) (fs : List (String × Datum)) :
    Document.ofTokens none (.blockMappingStart :: fieldTokens (f :: fs) ++ [.blockEnd, .streamEnd]) =
      .ok (some (nodeOf (.object (f :: fs)))) := by
  have written : Token.blockMappingStart :: fieldTokens (f :: fs) ++ [.blockEnd, .streamEnd] =
      tokens true (.object (f :: fs)) ++ [.streamEnd] := by
    obtain ⟨k, d⟩ := f
    simp [tokens, fieldTokens]
  have node := parsed (.object (f :: fs)) Document.commonPrefixes true false
    (3 * (tokens true (.object (f :: fs)) ++ [Token.streamEnd]).length + 3) [.streamEnd]
    (by rw [List.length_append]; omega) (fun h => Bool.noConfusion h)
  have root : Document.root none Document.commonPrefixes
      (Token.blockMappingStart :: fieldTokens (f :: fs) ++ [.blockEnd, .streamEnd]) =
        .ok (nodeOf (.object (f :: fs)), [.streamEnd]) := by
    rw [written, Document.root, node]
    rfl
  unfold Document.ofTokens
  rw [if_neg (by simp)]
  simp only [List.cons_append, List.head?_cons, Option.any_some, Document.isOutside, Bool.false_and,
    Bool.false_eq_true, if_false]
  rw [List.cons_append] at root
  rw [root]
  rfl

end NamespacePlan.Yaml
