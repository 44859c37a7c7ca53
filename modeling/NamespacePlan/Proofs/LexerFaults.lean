import NamespacePlan.Yaml.Lexer

/-! The faults of the lexer. It stops over the notation, at an escape whose number is beyond all
characters, or at a number of a version that has too many digits; the tokens in front of that are no
faults. -/
namespace NamespacePlan.Yaml

/-- A fault of the notation, of an escape beyond all characters, or of a number that is too long. -/
inductive Fault.IsSpelling : Fault → Prop
  | malformed : IsSpelling .malformed
  | noCharacter {n : Nat} (beyond : 0x110000 ≤ n) : IsSpelling (.stray (.noCharacter n))
  | tooLong {n : Nat} (long : Value.digitLimit < n) : IsSpelling (.stray (.tooLong n))

/-- A result has a property, and a failure is one of the spelling. -/
def Spelt {α : Type} (p : α → Prop) : Except Fault α → Prop
  | .ok a => p a
  | .error f => f.IsSpelling

/-- A reading that makes nothing in particular. -/
abbrev Plain {α : Type} (x : Except Fault α) : Prop := Spelt (fun _ => True) x

section Spelt

variable {α β : Type} {p : α → Prop} {q : β → Prop} {x : Except Fault α}

theorem spelt_malformed : Spelt p (.error .malformed) := .malformed

theorem spelt_ite {c : Prop} [Decidable c] {y : Except Fault α} (yes : Spelt p x) (no : Spelt p y) :
    Spelt p (if c then x else y) := by
  split
  · exact yes
  · exact no

theorem Spelt.bind {f : α → Except Fault β} (first : Spelt p x) (next : ∀ a, p a → Spelt q (f a)) :
    Spelt q (x >>= f) := by
  cases x with
  | error e => exact first
  | ok a => exact next a first

theorem Spelt.map {f : α → β} (first : Spelt p x) (next : ∀ a, p a → q (f a)) :
    Spelt q (x.map f) := by
  cases x with
  | error e => exact first
  | ok a => exact next a first

end Spelt

/-! Scalars. -/

namespace ScalarText

theorem spelt_ofCode (n : Nat) : Plain (ofCode n) := by
  unfold ofCode
  split
  · next beyond => exact .noCharacter beyond
  · split <;> trivial

theorem spelt_quotedBreaks (fuel : Nat) (c : Cursor) (breaks : List Char) :
    Plain (quotedBreaks fuel c breaks) := by
  fun_induction quotedBreaks fuel c breaks with
  | case1 => trivial
  | case2 => exact spelt_malformed
  | case3 _ _ _ _ _ _ _ ih => exact ih
  | case4 => trivial

theorem spelt_quotedBlanks (c : Cursor) : Plain (quotedBlanks c) := by
  unfold quotedBlanks
  dsimp only
  split
  · exact (spelt_quotedBreaks _ _ _).bind fun _ _ => trivial
  · split
    · exact spelt_malformed
    · trivial

theorem spelt_escaped (c : Cursor) : Plain (escaped c) := by
  unfold escaped
  split
  · exact spelt_malformed
  · split
    · trivial
    · split
      · dsimp only
        split
        · exact spelt_malformed
        · exact (spelt_ofCode _).bind fun _ _ => trivial
      · split
        · exact (spelt_quotedBreaks _ _ _).bind fun _ _ => trivial
        · exact spelt_malformed

theorem spelt_push {cs : List (Option Char)} {s : Except Fault (List (Option Char) × Cursor)}
    (rest : Plain s) : Plain (quoted.push cs s) := rest.map fun _ _ => trivial

theorem spelt_quoted (double : Bool) (fuel : Nat) (c : Cursor) : Plain (quoted double fuel c) := by
  induction fuel generalizing c with
  | zero => exact spelt_malformed
  | succ fuel ih =>
    unfold quoted
    split
    · exact spelt_malformed
    · split
      · split
        · exact spelt_push (ih _)
        · trivial
      · split
        · trivial
        · split
          · exact (spelt_escaped _).bind fun _ _ => spelt_push (ih _)
          · split
            · exact (spelt_quotedBlanks _).bind fun _ _ => spelt_push (ih _)
            · exact spelt_push (ih _)

theorem spelt_blockHeader (c : Cursor) : Plain (blockHeader c) := by
  unfold blockHeader
  exact spelt_ite spelt_malformed trivial

theorem spelt_ignoredLine (c : Cursor) : Plain (ignoredLine c) := by
  unfold ignoredLine
  exact spelt_ite trivial spelt_malformed

theorem spelt_block (folded : Bool) (around : Int) (c : Cursor) : Plain (block folded around c) :=
  (spelt_blockHeader c).bind fun _ _ => (spelt_ignoredLine _).bind fun _ _ => trivial

end ScalarText

/-! What stands in front of a node or a document. -/

/-- The token is no fault. -/
def Token.IsProper : Token → Prop
  | .stop _ => False
  | _ => True

namespace Property

theorem spelt_anchorName (c : Cursor) : Plain (anchorName c) := by
  unfold anchorName
  exact spelt_ite spelt_malformed (spelt_ite trivial spelt_malformed)

theorem spelt_uriChars (fuel : Nat) (c : Cursor) : Plain (uriChars fuel c) := by
  induction fuel generalizing c with
  | zero => trivial
  | succ fuel ih =>
    unfold uriChars
    split
    · trivial
    · split
      · split
        · exact spelt_malformed
        · split
          · exact spelt_malformed
          · exact (ih _).map fun _ _ => trivial
      · split
        · exact (ih _).map fun _ _ => trivial
        · trivial

theorem spelt_uri (c : Cursor) : Plain (uri c) := by
  have chars := spelt_uriChars c.rest.length c
  unfold uri
  split
  · next failed =>
    rw [failed] at chars
    exact chars
  · split
    · exact spelt_malformed
    · trivial

theorem spelt_handle (c : Cursor) : Plain (handle c) := by
  unfold handle
  exact spelt_ite spelt_malformed (spelt_ite trivial (spelt_ite trivial spelt_malformed))

theorem spelt_tagParts (c : Cursor) : Plain (tagParts c) := by
  unfold tagParts
  refine spelt_ite ((spelt_uri _).bind fun _ _ => spelt_ite trivial spelt_malformed) ?_
  refine spelt_ite trivial (spelt_ite ((spelt_handle c).bind fun _ _ => ?_) ?_)
  · exact (spelt_uri _).bind fun _ _ => trivial
  · exact (spelt_uri c.step).bind fun _ _ => trivial

theorem spelt_tag (c : Cursor) : Spelt (fun r => r.1.IsProper) (tag c) := by
  have parts := spelt_tagParts c
  unfold tag
  split
  · next failed =>
    rw [failed] at parts
    exact parts
  · exact spelt_ite trivial spelt_malformed

theorem spelt_versionNumber (c : Cursor) : Plain (versionNumber c) := by
  unfold versionNumber
  refine spelt_ite spelt_malformed ?_
  split
  · next long => exact .tooLong long
  · trivial

theorem spelt_version (c : Cursor) : Spelt (fun r => r.1.IsProper) (version c) := by
  refine (spelt_versionNumber _).bind fun _ _ => spelt_ite spelt_malformed ?_
  exact (spelt_versionNumber _).bind fun _ _ => spelt_ite trivial spelt_malformed

theorem spelt_tagPrefix (c : Cursor) : Spelt (fun r => r.1.IsProper) (tagPrefix c) := by
  refine (spelt_handle _).bind fun _ _ => spelt_ite spelt_malformed ?_
  exact (spelt_uri _).bind fun _ _ => spelt_ite trivial spelt_malformed

theorem spelt_directive (c : Cursor) : Spelt (fun r => r.1.IsProper) (directive c) := by
  -- Whatever the directive is, nothing may follow it on its line.
  have behind (r : Token × Cursor) (proper : r.1.IsProper) : Spelt (fun r => r.1.IsProper)
      (do let last ← ScalarText.ignoredLine r.2; .ok (r.1, last)) :=
    (ScalarText.spelt_ignoredLine _).bind fun _ _ => proper
  unfold directive
  refine spelt_ite spelt_malformed (spelt_ite ((spelt_version _).bind behind) ?_)
  exact spelt_ite ((spelt_tagPrefix _).bind behind) (behind (.otherDirective, _) trivial)

end Property

/-! The lexer. -/

namespace Lexer

/-- No token is a fault. -/
def IsProper (l : Lexer) : Prop := ∀ t ∈ l.cut, t.IsProper

variable {l : Lexer}

theorem IsProper.cons (proper : l.IsProper) {t : Token} (fair : t.IsProper) :
    ∀ s ∈ t :: l.cut, s.IsProper := List.forall_mem_cons.2 ⟨fair, proper⟩

theorem IsProper.unwind (proper : l.IsProper) (column : Int) : (unwind column l).IsProper := by
  unfold Lexer.unwind
  split
  · exact proper
  · intro t member
    rcases List.mem_append.1 member with closed | before
    · rw [List.eq_of_mem_replicate closed]
      trivial
    · exact proper t before

theorem IsProper.openBlock (proper : l.IsProper) (start : Token) (fair : start.IsProper)
    (column : Nat) : (openBlock start column l).IsProper := by
  unfold Lexer.openBlock
  split
  · exact proper.cons fair
  · exact proper

theorem spelt_dropKey (proper : l.IsProper) : Spelt IsProper l.dropKey := by
  unfold dropKey
  exact spelt_ite spelt_malformed proper

theorem spelt_saveKey (proper : l.IsProper) : Spelt IsProper l.saveKey := by
  unfold saveKey
  exact spelt_ite ((spelt_dropKey proper).map fun _ fair => fair) proper

theorem spelt_dropStale (proper : l.IsProper) : Spelt IsProper l.dropStale := by
  unfold dropStale
  exact spelt_ite spelt_malformed proper

theorem IsProper.skipBlanks (proper : l.IsProper) (fuel : Nat) :
    (skipBlanks fuel l).IsProper := by
  induction fuel generalizing l with
  | zero => exact proper
  | succ fuel ih =>
    unfold Lexer.skipBlanks
    dsimp only
    split
    · exact ih proper
    · exact proper

theorem spelt_endBlocks (proper : l.IsProper) : Spelt IsProper l.endBlocks :=
  (spelt_dropKey (proper.unwind _)).map fun _ fair => fair

theorem spelt_documentMark (proper : l.IsProper) {t : Token} (fair : t.IsProper) :
    Spelt IsProper (l.documentMark t) :=
  (spelt_endBlocks proper).map fun _ ended => ended.cons fair

theorem spelt_openFlow (proper : l.IsProper) {t : Token} (fair : t.IsProper) :
    Spelt IsProper (l.openFlow t) :=
  (spelt_saveKey proper).map fun _ saved => saved.cons fair

theorem spelt_closeFlow (proper : l.IsProper) {t : Token} (fair : t.IsProper) :
    Spelt IsProper (l.closeFlow t) := by
  unfold closeFlow
  split
  · exact spelt_malformed
  · exact (spelt_dropKey proper).map fun _ dropped => dropped.cons fair

/-- Between brackets no block collection is opened. -/
theorem IsProper.opened (proper : l.IsProper) (start : Token) (fair : start.IsProper) :
    (if l.inFlow then l else l.openBlock start l.cursor.column).IsProper := by
  split
  · exact proper
  · exact proper.openBlock start fair _

theorem spelt_blockEntry (proper : l.IsProper) : Spelt IsProper l.blockEntry := by
  have opened : IsProper _ := proper.opened .blockSequenceStart trivial
  unfold blockEntry
  exact spelt_ite spelt_malformed ((spelt_dropKey opened).map fun _ dropped => dropped.cons trivial)

theorem spelt_keyMark (proper : l.IsProper) : Spelt IsProper l.keyMark := by
  have opened : IsProper _ := proper.opened .blockMappingStart trivial
  unfold keyMark
  exact spelt_ite spelt_malformed ((spelt_dropKey opened).map fun _ dropped => dropped.cons trivial)

theorem IsProper.insertKey (proper : l.IsProper) (k : PossibleKey) : (l.insertKey k).IsProper := by
  have before : IsProper { l with cut := l.cut.drop (l.cut.length - k.count) } :=
    fun t member => proper t (List.mem_of_mem_drop member)
  unfold Lexer.insertKey
  intro t member
  rcases List.mem_append.1 member with later | mark
  · exact proper t (List.mem_of_mem_take later)
  · rcases List.mem_cons.1 mark with rfl | inside
    · trivial
    · split at inside
      · exact before t inside
      · exact before.openBlock .blockMappingStart trivial _ t inside

theorem spelt_valueMark (proper : l.IsProper) : Spelt IsProper l.valueMark := by
  have opened : IsProper _ := proper.opened .blockMappingStart trivial
  unfold valueMark
  split
  · exact (proper.insertKey _).cons trivial
  · exact spelt_ite spelt_malformed (opened.cons trivial)

theorem spelt_keyLike {read : Cursor → Except Fault (Token × Cursor)}
    (reads : ∀ c, Spelt (fun r => r.1.IsProper) (read c)) (proper : l.IsProper) :
    Spelt IsProper (l.keyLike read) :=
  (spelt_saveKey proper).bind fun _ saved => (reads _).bind fun _ fair => saved.cons fair

theorem spelt_plain (proper : l.IsProper) : Spelt IsProper l.plain :=
  (spelt_saveKey proper).bind fun _ saved => saved.cons trivial

theorem spelt_quoted (double : Bool) (c : Cursor) :
    Spelt (fun r => r.1.IsProper) (quoted double c) :=
  (ScalarText.spelt_quoted _ _ _).map fun _ _ => trivial

theorem spelt_block (folded : Bool) (proper : l.IsProper) : Spelt IsProper (l.block folded) :=
  (spelt_dropKey proper).bind fun _ dropped => (ScalarText.spelt_block _ _ _).bind fun _ _ =>
    dropped.cons trivial

theorem spelt_named {make : String → Token} (fair : ∀ s, (make s).IsProper) (c : Cursor) :
    Spelt (fun r => r.1.IsProper) ((Property.anchorName c.step).map fun r => (make r.1, r.2)) :=
  (Property.spelt_anchorName _).map fun _ _ => fair _

theorem spelt_dispatch (ch : Char) (rest : List Char) (proper : l.IsProper) :
    Spelt IsProper (l.dispatch ch rest) := by
  unfold dispatch
  refine spelt_ite ((spelt_endBlocks proper).bind fun _ ended =>
    (Property.spelt_directive _).bind fun _ fair => ended.cons fair) ?_
  refine spelt_ite (spelt_documentMark proper trivial) ?_
  refine spelt_ite (spelt_documentMark proper trivial) ?_
  refine spelt_ite (spelt_openFlow proper trivial) ?_
  refine spelt_ite (spelt_openFlow proper trivial) ?_
  refine spelt_ite (spelt_closeFlow proper trivial) ?_
  refine spelt_ite (spelt_closeFlow proper trivial) ?_
  refine spelt_ite ((spelt_dropKey proper).map fun _ dropped => dropped.cons trivial) ?_
  refine spelt_ite (spelt_blockEntry proper) ?_
  refine spelt_ite (spelt_keyMark proper) ?_
  refine spelt_ite (spelt_valueMark proper) ?_
  refine spelt_ite (spelt_keyLike (spelt_named fun _ => trivial) proper) ?_
  refine spelt_ite (spelt_keyLike (spelt_named fun _ => trivial) proper) ?_
  refine spelt_ite (spelt_keyLike Property.spelt_tag proper) ?_
  refine spelt_ite (spelt_block false proper) ?_
  refine spelt_ite (spelt_block true proper) ?_
  refine spelt_ite (spelt_keyLike (spelt_quoted false) proper) ?_
  refine spelt_ite (spelt_keyLike (spelt_quoted true) proper) ?_
  exact spelt_ite (spelt_plain proper) spelt_malformed

theorem spelt_next (proper : l.IsProper) : Spelt IsProper l.next := by
  have started (c : Cursor) : IsProper { l with cursor := c } := proper
  unfold next
  refine (spelt_dropStale ((started _).skipBlanks _)).bind fun l' fresh => ?_
  dsimp only
  split
  · exact (spelt_dropKey ((fresh.unwind _).unwind _)).map fun _ dropped => dropped.cons trivial
  · exact spelt_dispatch _ _ (fresh.unwind _)

/-- A fault among the tokens is one of the spelling. -/
theorem run_stop (fuel : Nat) {f : Fault} (proper : l.IsProper) (stops : .stop f ∈ run fuel l) :
    f.IsSpelling := by
  have last : ∀ {g : Fault} {cut : List Token}, (∀ t ∈ cut, t.IsProper) →
      .stop f ∈ (Token.stop g :: cut).reverse → f = g := by
    intro g cut fair member
    rcases List.mem_cons.1 (List.mem_reverse.1 member) with same | before
    · cases same
      rfl
    · exact absurd (fair _ before) id
  induction fuel generalizing l with
  | zero =>
    rw [last proper stops]
    exact .malformed
  | succ fuel ih =>
    have step := spelt_next proper
    unfold run at stops
    split at stops
    · next failed =>
      rw [failed] at step
      rw [last (fun t member => proper t (List.mem_of_mem_drop member)) stops]
      exact step
    · next fresh =>
      rw [fresh] at step
      split at stops
      · exact absurd (step _ (List.mem_reverse.1 stops)) id
      · exact ih step stops

end Lexer

/-- A text is cut up to its end, or up to a fault of its spelling. -/
theorem Token.ofText_stop {cs : List Char} {f : Fault} (stops : .stop f ∈ Token.ofText cs) :
    f.IsSpelling :=
  Lexer.run_stop _ (fun _ member => absurd member List.not_mem_nil) stops

end NamespacePlan.Yaml
