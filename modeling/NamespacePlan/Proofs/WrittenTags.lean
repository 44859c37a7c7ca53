import NamespacePlan.Proofs.EscapedValues
import NamespacePlan.Proofs.RootTagReaders

/-! Start tags that are written with bindings and other attributes. What is read from such a tag is what
it was written with, in the same order. -/
namespace NamespacePlan.Xml

/-! Attributes. -/

inductive TagAttribute where
  /-- A binding of a prefix, or of the default namespace if the prefix is empty. -/
  | binding (pre uri : String)
  | plain (name value : String)
  deriving DecidableEq, Repr

namespace TagAttribute

def name : TagAttribute → List Char
  | binding pre _ => if pre = "" then "xmlns".toList else "xmlns:".toList ++ pre.toList
  | plain name _ => name.toList

def value : TagAttribute → String
  | binding _ uri => uri
  | plain _ value => value

def bindings (as : List TagAttribute) : List (String × String) :=
  as.filterMap fun
    | binding pre uri => some (pre, uri)
    | plain _ _ => none

def plains (as : List TagAttribute) : List (String × String) :=
  as.filterMap fun
    | binding _ _ => none
    | plain name value => some (name, value)

end TagAttribute

/-- A prefix that can be bound: the empty one, or a name without a colon that is not reserved. -/
def IsPrefix (pre : String) : Prop :=
  pre = "" ∨ (IsName pre.toList ∧ ':' ∉ pre.toList ∧ pre ≠ "xml" ∧ pre ≠ "xmlns")

instance (pre : String) : Decidable (IsPrefix pre) := inferInstanceAs (Decidable (_ ∨ _))

def IsText (s : String) : Prop := ∀ c ∈ s.toList, isChar c = true

instance (s : String) : Decidable (IsText s) :=
  List.decidableBAll (isChar · = true) s.toList

/-- An attribute that can be written: a binding that is taken over, or an attribute that binds nothing. -/
def TagAttribute.Legal : TagAttribute → Prop
  | binding pre uri => IsPrefix pre ∧ uri ≠ "" ∧ uri ∉ RootTag.reservedUris ∧ IsText uri
  | plain name value => IsName name.toList ∧ name ≠ "xmlns" ∧ ¬"xmlns:".toList <+: name.toList ∧
      IsText value

instance : (a : TagAttribute) → Decidable a.Legal
  | .binding _ _ => inferInstanceAs (Decidable (_ ∧ _))
  | .plain _ _ => inferInstanceAs (Decidable (_ ∧ _))

/-- White space that stands as it is in a file. -/
def IsGap (gap : List Char) : Prop := ∀ c ∈ gap, isBlank c = true ∧ c ≠ '\r'

instance (gap : List Char) : Decidable (IsGap gap) :=
  List.decidableBAll (fun c => isBlank c = true ∧ c ≠ '\r') gap

/-- The text of attributes: each is written behind white space, and its value in quotes. -/
inductive Tagged : List TagAttribute → List Char → Prop where
  | nil : Tagged [] []
  | cons {a : TagAttribute} {as : List TagAttribute} {gap raw text : List Char} {quote : Char}
    (apart : gap ≠ []) (blank : IsGap gap) (quotes : quote = '"' ∨ quote = '\'')
    (escaped : Escaped a.value.toList raw) (others : Tagged as text) :
    Tagged (a :: as) (gap ++ (a.name ++ '=' :: quote :: (raw ++ quote :: text)))

def TagAttribute.text (a : TagAttribute) : List Char :=
  ' ' :: (a.name ++ '=' :: '"' :: (a.value.toList.flatMap escape ++ ['"']))

theorem tagged_text (as : List TagAttribute) : Tagged as (as.flatMap TagAttribute.text) := by
  have blank : IsGap [' '] := by decide
  induction as with
  | nil => exact .nil
  | cons a as ih =>
    have step := Tagged.cons (by decide) blank (.inl rfl) (escaped_flatMap a.value.toList) ih
    simpa [TagAttribute.text] using step

namespace RootTag

/-! Roles. -/

theorem parts?_eq {name pre rest : List Char} (parted : parts? name = some (pre, rest)) :
    name = pre ++ ':' :: rest := by
  unfold parts? at parted
  dsimp only at parted
  split at parted
  · next c tail here =>
    split at parted
    · cases parted
      have front := List.prefix_iff_eq_take.1 (List.takeWhile_prefix (l := name) (· != ':'))
      have whole := List.take_append_drop (name.takeWhile (· != ':')).length name
      rw [← front, here] at whole
      exact whole.symm
    · cases parted
  · cases parted

theorem roleOf_binding {pre : String} (bindable : IsPrefix pre) (uri : String) :
    roleOf (TagAttribute.binding pre uri).name = .binding pre := by
  rcases bindable with rfl | ⟨named, single, _, _⟩
  · rfl
  · obtain ⟨c, tail, whole, starts⟩ := named.exists_head
    have nonempty : pre ≠ "" := by
      rintro rfl
      cases whole
    have other : c ≠ ':' := by
      rintro rfl
      exact single (whole ▸ List.mem_cons_self)
    have taken : ("xmlns:".toList ++ pre.toList).takeWhile (· != ':') = "xmlns".toList := by
      have absent : ':' ∉ "xmlns".toList := by decide
      exact takeWhile_until absent pre.toList
    have parted : parts? ("xmlns:".toList ++ pre.toList) = some ("xmlns".toList, pre.toList) := by
      unfold parts?
      rw [taken, whole]
      simp [other, starts]
    have longer : "xmlns:".toList ++ pre.toList ≠ "xmlns".toList := by simp
    simp only [TagAttribute.name, nonempty, if_false, roleOf, longer, parted, if_true,
      String.ofList_toList]

theorem roleOf_plain {name : String} (free : name ≠ "xmlns") (free' : ¬"xmlns:".toList <+: name.toList) :
    roleOf name.toList = .other := by
  have other : name.toList ≠ "xmlns".toList := fun same => free (String.toList_inj.1 same)
  rw [roleOf, if_neg other]
  split
  · next pre rest parted =>
    refine if_neg fun same => free' ?_
    rw [parts?_eq parted, same]
    exact ⟨rest, rfl⟩
  · rfl

/-! Attributes of a tag. -/

def extended (t : RootTag) (as : List TagAttribute) : RootTag :=
  { t with
    bindings := t.bindings ++ TagAttribute.bindings as
    attributes := t.attributes ++ TagAttribute.plains as }

def Distinct (t : RootTag) : Prop :=
  (t.bindings.map Prod.fst).Nodup ∧ (t.attributes.map Prod.fst).Nodup

theorem extended_cons (t : RootTag) (a : TagAttribute) (as : List TagAttribute) :
    t.extended (a :: as) = (t.extended [a]).extended as := by
  cases a <;> simp [extended, TagAttribute.bindings, TagAttribute.plains]

theorem Distinct.of_extended {t : RootTag} {as : List TagAttribute}
    (distinct : (t.extended as).Distinct) : t.Distinct := by
  obtain ⟨prefixes, names⟩ := distinct
  rw [extended, List.map_append] at prefixes names
  exact ⟨(List.nodup_append.1 prefixes).1, (List.nodup_append.1 names).1⟩

theorem any_eq_false {es : List (String × String)} {k v : String}
    (distinct : ((es ++ [(k, v)]).map Prod.fst).Nodup) : (es.any fun e => e.1 == k) = false := by
  rw [List.map_append, List.map_singleton, List.nodup_append] at distinct
  rw [List.any_eq_false]
  intro e listed same
  exact distinct.2.2 e.1 (List.mem_map_of_mem listed) k (List.mem_singleton_self k) (beq_iff_eq.1 same)

theorem add?_legal {t : RootTag} {a : TagAttribute} (legal : a.Legal)
    (distinct : (t.extended [a]).Distinct) : t.add? a.name a.value = some (t.extended [a]) := by
  cases a with
  | binding pre uri =>
    obtain ⟨bindable, visible, free, _⟩ := legal
    have unreserved : pre ≠ "xml" ∧ pre ≠ "xmlns" := by
      rcases bindable with rfl | ⟨_, _, other, other'⟩
      · decide
      · exact ⟨other, other'⟩
    have bound : isBound pre uri = true := by
      simp [isBound, unreserved, free, visible]
    have fresh := any_eq_false distinct.1
    simp [add?, roleOf_binding bindable, TagAttribute.value, bound, fresh, extended,
      TagAttribute.bindings, TagAttribute.plains]
  | plain name value =>
    obtain ⟨_, free, free', _⟩ := legal
    have fresh := any_eq_false distinct.2
    simp [add?, TagAttribute.name, roleOf_plain free free', TagAttribute.value, fresh, extended,
      TagAttribute.bindings, TagAttribute.plains]

theorem isName_name {a : TagAttribute} (legal : a.Legal) : IsName a.name := by
  have keyword : IsName "xmlns:".toList := by decide
  cases a with
  | plain name value => exact legal.1
  | binding pre uri =>
    simp only [TagAttribute.name]
    split
    · decide
    · next nonempty =>
      obtain ⟨_, letters⟩ := (legal.1.resolve_left nonempty).1
      refine ⟨keyword.1, fun c member => ?_⟩
      rcases List.mem_append.1 member with here | here
      · exact keyword.2 c here
      · exact letters c here

/-! White space. -/

theorem skipBlanks_append {gap : List Char} (blank : IsGap gap) (rest : List Char) :
    skipBlanks (gap ++ rest) = skipBlanks rest :=
  List.dropWhile_append_of_pos fun c member => (blank c member).1

theorem skipBlanks_of_visible {c : Char} (visible : isBlank c = false) (rest : List Char) :
    skipBlanks (c :: rest) = c :: rest := List.dropWhile_cons_of_neg (by simp [visible])

theorem visible_of_starts {c : Char} (starts : isNameStart c = true) : isBlank c = false := by
  cases blank : isBlank c with
  | false => rfl
  | true =>
    have spaces : c = ' ' ∨ c = '\t' ∨ c = '\n' ∨ c = '\r' := by
      simpa [isBlank, or_assoc] using blank
    rcases spaces with rfl | rfl | rfl | rfl <;> exact absurd starts (by decide)

theorem blanks?_append {gap : List Char} (apart : gap ≠ []) (blank : IsGap gap) (rest : List Char) :
    blanks? (gap ++ rest) = some (skipBlanks (gap ++ rest)) := by
  obtain ⟨c, gap, rfl⟩ := List.exists_cons_of_ne_nil apart
  have first := (blank c List.mem_cons_self).1
  refine blanks?_eq_some_iff.2 ⟨c, gap ++ rest, rfl, first, ?_⟩
  exact (List.dropWhile_cons_of_pos first).symm

/-- What stands behind an attribute: white space, or nothing in front of the end of the tag. -/
theorem tagged_cases {as : List TagAttribute} {text : List Char} (tagged : Tagged as text) :
    (as = [] ∧ text = []) ∨ ∀ rest, blanks? (text ++ rest) = some (skipBlanks (text ++ rest)) := by
  cases tagged with
  | nil => exact .inl ⟨rfl, rfl⟩
  | cons apart blank _ _ _ =>
    refine .inr fun rest => ?_
    rw [List.append_assoc]
    exact blanks?_append apart blank _

/-! Attributes in a row. -/

theorem isEnd_of_starts {c : Char} (starts : isNameStart c = true) (cs : List Char) :
    isEnd (c :: cs) = false := by
  have least := toNat_of_isNameStart starts
  have other : c ≠ '>' ∧ c ≠ '/' := by
    constructor <;> rintro rfl <;> exact absurd starts (by decide)
  have visible : ¬c < ' ' := by
    intro control
    have below : c.toNat < 0x20 := control
    omega
  refine Bool.eq_false_iff.2 fun ends => ?_
  rcases isEnd_iff.1 ends with (⟨m, here⟩ | ⟨m, here⟩) | control
  · exact other.1 (List.cons.inj here).1
  · exact other.2 (List.cons.inj here).1
  · simp [visible] at control

theorem valueOf?_escaped {element : String} {name raw : List Char} {value : String}
    (escaped : Escaped value.toList raw) (legal : IsText value) :
    valueOf? {} element name raw = some value := by
  have unlisted : Subset.isWordList {} element (String.ofList name) = false := rfl
  rw [valueOf?, unlisted]
  dsimp only
  rw [escaped.attributeValue legal]
  simp

theorem attribute?_written {a : TagAttribute} (legal : a.Legal) {raw : List Char} {quote : Char}
    (quotes : quote = '"' ∨ quote = '\'') (escaped : Escaped a.value.toList raw) (tail : List Char) :
    attribute? (a.name ++ '=' :: quote :: (raw ++ quote :: tail)) = some ((a.name, raw), tail) := by
  have visible : isBlank quote = false := by
    rcases quotes with rfl | rfl <;> decide
  refine attribute?_eq_some_iff.2 ⟨_, (isName_name legal).read (by decide) (by decide) _, _,
    behind?_eq_some_iff.2 (skipBlanks_of_visible (by decide) _), ?_⟩
  rw [skipBlanks_of_visible visible]
  refine quoted?_eq_some_iff.2 ⟨quote, quotes, escaped.free ?_, by simp⟩
  rcases quotes with rfl | rfl <;> decide

theorem takes_written {t : RootTag} {a : TagAttribute} (legal : a.Legal)
    (distinct : (t.extended [a]).Distinct) {raw : List Char} {quote : Char}
    (quotes : quote = '"' ∨ quote = '\'') (escaped : Escaped a.value.toList raw) (tail : List Char) :
    Takes {} t (t.extended [a]) (a.name ++ '=' :: quote :: (raw ++ quote :: tail)) tail := by
  have opened : isEnd (a.name ++ '=' :: quote :: (raw ++ quote :: tail)) = false := by
    obtain ⟨c, letters, named, starts⟩ := (isName_name legal).exists_head
    rw [named]
    exact isEnd_of_starts starts _
  have proper : IsText a.value := by
    cases a with
    | binding pre uri => exact legal.2.2.2
    | plain name value => exact legal.2.2.2
  exact ⟨opened, a.name, raw, attribute?_written legal quotes escaped tail, a.value,
    valueOf?_escaped escaped proper, add?_legal legal distinct⟩

/-- The attributes of a tag are read as they were written. -/
theorem attributes?_tagged {as : List TagAttribute} {text : List Char} (tagged : Tagged as text)
    (legal : ∀ a ∈ as, a.Legal) {t : RootTag} (distinct : (t.extended as).Distinct) {gap close : List Char}
    (blank : IsGap gap) (closes : close = ['>'] ∨ close = ['/', '>']) (behind : List Char) :
    ∃ fuel, attributes? {} fuel t (skipBlanks (text ++ (gap ++ (close ++ behind)))) =
      some (t.extended as, close ++ behind) := by
  have closed : IsClosed (close ++ behind) := by
    rcases closes with rfl | rfl
    · exact .inl ⟨behind, rfl⟩
    · exact .inr ⟨behind, rfl⟩
  have visible : skipBlanks (close ++ behind) = close ++ behind := by
    rcases closes with rfl | rfl <;> rfl
  have unextended : ∀ u : RootTag, u.extended [] = u := by
    simp [extended, TagAttribute.bindings, TagAttribute.plains]
  induction tagged generalizing t with
  | nil =>
    refine ⟨1, ((repeats_attributes {} _).succ _ _ _ _).2 (.inl (.inl ?_))⟩
    rw [List.nil_append, skipBlanks_append blank, visible]
    exact ⟨isEnd_iff.2 (.inl closed), rfl, (unextended t).symm⟩
  | @cons a as front raw text quote apart blank' quotes escaped others ih =>
    rw [extended_cons] at distinct ⊢
    have own := legal a List.mem_cons_self
    obtain ⟨fuel, later⟩ := ih (fun b listed => legal b (List.mem_cons_of_mem a listed)) distinct
    have start : skipBlanks (front ++ (a.name ++ '=' :: quote :: (raw ++ quote :: text)) ++
        (gap ++ (close ++ behind))) =
        a.name ++ '=' :: quote :: (raw ++ quote :: (text ++ (gap ++ (close ++ behind)))) := by
      obtain ⟨c, letters, named, starts⟩ := (isName_name own).exists_head
      rw [List.append_assoc, skipBlanks_append blank', named, List.cons_append, List.cons_append,
        skipBlanks_of_visible (visible_of_starts starts)]
      simp
    rw [start]
    have first := fun tail => takes_written own distinct.of_extended quotes escaped tail
    refine ⟨fuel + 1, ((repeats_attributes {} _).succ _ _ _ _).2 ?_⟩
    rcases tagged_cases others with ⟨rfl, rfl⟩ | apart'
    · cases gap with
      | nil => exact .inl (.inr ⟨_, (unextended (t.extended [a])).symm ▸ first _, closed, rfl⟩)
      | cons c gap => exact .inr ⟨_, _, ⟨_, first _, blanks?_append (by simp) blank _⟩, later⟩
    · exact .inr ⟨_, _, ⟨_, first _, apart' _⟩, later⟩

/-! Documents. -/

/-- What can stand in front of a tag: nothing, or the declaration of a document in UTF-8. -/
def utf8Declaration : List Char := "<?xml version=\"1.0\" encoding=\"UTF-8\"?>".toList

def IsProlog (cs : List Char) : Prop := cs = [] ∨ ∃ gap, IsGap gap ∧ cs = utf8Declaration ++ gap

theorem stop_of_blank {c : Char} (blank : isBlank c = true) : isNameChar c = false ∧ c ≠ '\x00' := by
  have spaces : c = ' ' ∨ c = '\t' ∨ c = '\n' ∨ c = '\r' := by
    simpa [isBlank, or_assoc] using blank
  rcases spaces with rfl | rfl | rfl | rfl <;> decide

/-- The name of an element ends where its attributes or the end of the tag begin. -/
theorem exists_stop {as : List TagAttribute} {text gap close : List Char} (tagged : Tagged as text)
    (blank : IsGap gap) (closes : close = ['>'] ∨ close = ['/', '>']) (behind : List Char) :
    ∃ c rest, text ++ (gap ++ (close ++ behind)) = c :: rest ∧ isNameChar c = false ∧ c ≠ '\x00' := by
  have spaced : ∀ {g r : List Char}, g ≠ [] → IsGap g →
      ∃ c rest, g ++ r = c :: rest ∧ isNameChar c = false ∧ c ≠ '\x00' := by
    intro g r apart spaces
    obtain ⟨c, g, rfl⟩ := List.exists_cons_of_ne_nil apart
    exact ⟨c, g ++ r, rfl, stop_of_blank (spaces c List.mem_cons_self).1⟩
  cases tagged with
  | cons apart blank' =>
    rw [List.append_assoc]
    exact spaced apart blank'
  | nil =>
    rw [List.nil_append]
    cases gap with
    | cons c gap => exact spaced (List.cons_ne_nil c gap) blank
    | nil =>
      rcases closes with rfl | rfl
      · exact ⟨'>', behind, rfl, by decide, by decide⟩
      · exact ⟨'/', '>' :: behind, rfl, by decide, by decide⟩

theorem behind?_opened {element : List Char} (named : IsName element) {d : Char}
    (unnamed : isNameStart d = false) (w m : List Char) :
    behind? ('<' :: d :: w) ('<' :: (element ++ m)) = none := by
  obtain ⟨c, letters, rfl, starts⟩ := named.exists_head
  cases there : behind? ('<' :: d :: w) ('<' :: (c :: letters ++ m)) with
  | none => rfl
  | some k =>
    rw [behind?_eq_some_iff] at there
    simp only [List.cons_append, List.cons.injEq] at there
    rw [← there.2.1, starts] at unnamed
    cases unnamed

section Document

variable {element : List Char} (named : IsName element) {as : List TagAttribute} {text : List Char}
  (tagged : Tagged as text) (legal : ∀ a ∈ as, a.Legal)
  (distinct : (({ name := String.ofList element } : RootTag).extended as).Distinct)
  {gap close : List Char} (blank : IsGap gap) (closes : close = ['>'] ∨ close = ['/', '>'])
  (behind : List Char)

include named tagged legal distinct blank closes

theorem read_tagged : read {} (element ++ (text ++ (gap ++ (close ++ behind)))) =
    some (({ name := String.ofList element } : RootTag).extended as, close ++ behind) := by
  obtain ⟨c, rest, whole, stops, visible⟩ := exists_stop tagged blank closes behind
  obtain ⟨fuel, found⟩ := attributes?_tagged tagged legal distinct blank closes behind
  refine read_eq_some_iff.2 ⟨element, text ++ (gap ++ (close ++ behind)), ?_, _, fuel, found, rfl⟩
  rw [whole]
  exact named.read stops visible rest

theorem behindProlog_tagged {front : List Char} (blank' : IsGap front) :
    behindProlog false 1 none (front ++ '<' :: (element ++ (text ++ (gap ++ (close ++ behind))))) =
      some (({ name := String.ofList element } : RootTag).extended as, close ++ behind) := by
  have start : skipBlanks (front ++ '<' :: (element ++ (text ++ (gap ++ (close ++ behind))))) =
      '<' :: (element ++ (text ++ (gap ++ (close ++ behind)))) := by
    rw [skipBlanks_append blank', skipBlanks_of_visible (by decide)]
  refine ((repeats_behindProlog false _).succ _ _ _ _).2 (.inl ?_)
  rw [start]
  exact ⟨_, behind?_eq_some_iff.2 rfl, read_tagged named tagged legal distinct blank closes behind⟩

/-- A document is read up to the end of its tag. -/
theorem scan_tagged {prolog : List Char} (opens : IsProlog prolog) :
    scan (prolog ++ '<' :: (element ++ (text ++ (gap ++ (close ++ behind))))) =
      some (({ name := String.ofList element } : RootTag).extended as, close ++ behind) := by
  rcases opens with rfl | ⟨front, blank', rfl⟩
  · refine scan_eq_some_iff.2 (.inr ⟨?_, 1, ?_⟩)
    · have undeclared : behind? "<?xml".toList
          ('<' :: (element ++ (text ++ (gap ++ (close ++ behind))))) = none :=
        behind?_opened named (by decide) _ _
      rw [Declaration.begins, List.nil_append, undeclared]
    · exact behindProlog_tagged named tagged legal distinct blank closes behind fun _ h => nomatch h
  · have declared : Declaration.read (utf8Declaration ++ []) = some (⟨some "UTF-8", false⟩, []) := by
      decide
    obtain ⟨r, nothing, keeps⟩ := Declaration.read_of_shared (by decide) declared
    obtain rfl : r = [] := by simpa using nothing.symm
    rw [List.append_assoc]
    refine scan_eq_some_iff.2 (.inl ⟨rfl, _, _, keeps _, 1, ?_⟩)
    exact behindProlog_tagged named tagged legal distinct blank closes behind blank'

end Document

end RootTag

end NamespacePlan.Xml
