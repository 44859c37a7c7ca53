import NamespacePlan.Proofs.EncodedTexts
import NamespacePlan.Proofs.RootTagReaders
import NamespacePlan.SchemaFile

/-! A schema is described by its root tag alone: what stands behind the tag in its file may be anything,
or nothing. -/
namespace NamespacePlan

namespace Xml.RootTag

/-- The tag of the root element ends at byte `n`: the text of the bytes in front of it goes up to the signs
that close the tag, where its reader stops. -/
def EndsAt (bs : List UInt8) (n : Nat) : Prop :=
  ∃ e mark, Encoding.of? bs = some (e, mark) ∧ ∃ t front close behind,
    scan (e.text (bs.drop mark)) = some (t, close ++ behind) ∧
    e.text (bs.drop mark) = front ++ (close ++ behind) ∧ (close = ['>'] ∨ close = ['/', '>']) ∧
    n ≤ bs.length ∧ e.text ((bs.take n).drop mark) = front ++ close

theorem exists_sign {close : List Char} (closes : close = ['>'] ∨ close = ['/', '>'])
    (front : List Char) : ∃ inner, ∀ behind, front ++ (close ++ behind) = inner ++ '>' :: behind := by
  rcases closes with rfl | rfl
  · exact ⟨front, fun _ => rfl⟩
  · exact ⟨front ++ ['/'], fun _ => by simp⟩

/-- The bytes of a document up to the end of its root tag decide how it is read. -/
theorem ofBytes_of_shared {bs other : List UInt8} {n : Nat} (ends : EndsAt bs n)
    (shared : other.take n = bs.take n) : ofBytes other = ofBytes bs := by
  obtain ⟨e, mark, told, t, front, close, behind, read, whole, closes, inside, text⟩ := ends
  obtain ⟨inner, sign⟩ := exists_sign closes front
  have tagged : e.text ((bs.take n).drop mark) = inner ++ '>' :: [] := by
    rw [text, ← sign, List.append_nil]
  obtain ⟨first, rest, parts, closed, nothing, keeps⟩ := Encoding.text_split tagged
  obtain rfl := Encoding.text_eq_nil_iff.1 nothing
  rw [List.append_nil] at parts
  have member : Encoding.closingByte ∈ bs.take n := List.mem_of_mem_drop (parts ▸ closed)
  have behindMark : mark ≤ (bs.take n).length := by
    have positive := List.length_pos_of_mem closed
    rw [← parts, List.length_drop] at positive
    omega
  -- Every document with these first bytes has the same text up to the end of the tag.
  have document : ∀ tail, Encoding.of? (bs.take n ++ tail) = some (e, mark) ∧
      e.text ((bs.take n ++ tail).drop mark) = front ++ (close ++ e.text tail) := by
    intro tail
    constructor
    · rw [Encoding.of?_of_shared member tail (bs.drop n), List.take_append_drop, told]
    · rw [List.drop_append_of_le_length behindMark, parts, keeps, sign]
  have stops : ∀ tail, ofBytes (bs.take n ++ tail) = some t := by
    intro tail
    obtain ⟨f, same, again⟩ := local_scan t (whole ▸ read)
    obtain rfl : front = f := List.append_cancel_right same
    have alike : Alike (close ++ behind) (close ++ e.text tail) := by
      refine .of_closed _ _ ?_
      rcases closes with rfl | rfl <;> decide
    obtain ⟨told', text'⟩ := document tail
    simp only [ofBytes, decodeDocument, told', Option.map_some, text', Option.bind_eq_bind,
      Option.bind_some, ofText, again _ alike]
  have own := stops (bs.drop n)
  have its := stops (other.drop n)
  rw [List.take_append_drop] at own
  rw [← shared, List.take_append_drop] at its
  rw [its, own]

/-- A tag that is closed ends at one byte. -/
theorem existsUnique_endsAt {bs : List UInt8} {e : Encoding} {mark : Nat} {t : RootTag}
    {rest : List Char} (told : Encoding.of? bs = some (e, mark))
    (read : scan (e.text (bs.drop mark)) = some (t, rest)) (closed : IsClosed rest) :
    ∃ n, EndsAt bs n ∧ ∀ m, EndsAt bs m → m = n := by
  obtain ⟨front, whole, _⟩ := local_scan t read
  obtain ⟨close, behind, rfl, closes⟩ : ∃ close behind, rest = close ++ behind ∧
      (close = ['>'] ∨ close = ['/', '>']) := by
    rcases closed with ⟨m, rfl⟩ | ⟨m, rfl⟩
    · exact ⟨['>'], m, rfl, .inl rfl⟩
    · exact ⟨['/', '>'], m, rfl, .inr rfl⟩
  obtain ⟨inner, sign⟩ := exists_sign closes front
  obtain ⟨first, rest, parts, member, _, keeps⟩ := Encoding.text_split (whole.trans (sign behind))
  have tag : e.text first = front ++ close := by
    have alone := keeps []
    rw [List.append_nil, Encoding.text_eq_nil_iff.2 rfl, ← sign, List.append_nil] at alone
    exact alone
  have positive := List.length_pos_of_mem member
  have length : bs.length - mark = first.length + rest.length := by
    rw [← List.length_append, ← parts, List.length_drop]
  refine ⟨mark + first.length, ⟨e, mark, told, t, front, close, behind, read, whole, closes, by omega, ?_⟩, ?_⟩
  · rw [List.drop_take, parts, Nat.add_sub_cancel_left, List.take_left, tag]
  · rintro m ⟨e', mark', told', t', front', close', behind', read', whole', closes', inside, text⟩
    cases told.symm.trans told'
    have same : close ++ behind = close' ++ behind' :=
      (Prod.ext_iff.1 (Option.some.inj (read.symm.trans read'))).2
    obtain rfl : close = close' := by
      rcases closes with rfl | rfl <;> rcases closes' with rfl | rfl <;> first | rfl | cases same
    obtain rfl : front = front' := List.append_cancel_right (whole.symm.trans (same ▸ whole'))
    have begins : (bs.take m).drop mark <+: bs.drop mark := by
      rw [List.drop_take]
      exact List.take_prefix _ _
    have begins' : first <+: bs.drop mark := ⟨rest, parts.symm⟩
    rw [← List.append_nil close, sign] at tag text
    have equal : (bs.take m).drop mark = first := by
      rcases List.prefix_or_prefix_of_prefix begins begins' with here | here
      · exact Encoding.eq_of_text text tag here
      · exact (Encoding.eq_of_text tag text here).symm
    have length' := congrArg List.length equal
    rw [List.length_drop, List.length_take] at length'
    omega

end Xml.RootTag

namespace SchemaFile

/-- What stands in a file behind the end of the root tag does not matter to its descriptor. -/
theorem load_of_shared_tag {t u : FileTree} (place : u.place = t.place) {path : String}
    {bs other : List UInt8} (here : t.fileBytes? path = some bs) (there : u.fileBytes? path = some other)
    {n : Nat} (ends : Xml.RootTag.EndsAt bs n) (shared : other.take n = bs.take n)
    {maindoc : Option Bool} {base : Option String} {d : Descriptor}
    (loaded : load t path maindoc base = .ok d) : load u path maindoc base = .ok d := by
  have absolute : ∀ p, u.absolute p = t.absolute p := by
    intro p
    rw [FileTree.absolute, FileTree.absolute, FileTree.placeText, FileTree.placeText, place]
  have kind : ∀ target, isMaindoc u path target base = isMaindoc t path target base := by
    intro target
    simp only [isMaindoc, folders, absolute]
  rw [← loaded]
  simp only [load, here, there, Xml.RootTag.ofBytes_of_shared ends shared, describe, kind, absolute]

/-- A tag whose value stands in the document type in front of it. -/
def prologued : List UInt8 :=
  "<?xml version='1.0' encoding='ASCII'?><!DOCTYPE s [<!ENTITY u 'a'>]><s targetNamespace='&u;'/>".toUTF8.toList

def lone (behind : List UInt8) : FileTree where
  root := .directory [("a.xsd", .file (prologued ++ behind))]
  place := []

theorem endsAt_prologued : Xml.RootTag.EndsAt (prologued ++ []) prologued.length := by
  refine ⟨.ascii, 0, by decide +kernel, { name := "s", attributes := [("targetNamespace", "a")] },
    (Xml.Encoding.ascii.text prologued).dropLast.dropLast, ['/', '>'], [], ?_, ?_, .inr rfl, ?_, ?_⟩
  all_goals decide +kernel

/-- Bytes that are no text may stand behind the tag. -/
theorem load_lone : (lone [0xFF]).fileBytes? "a.xsd" = some (prologued ++ [0xFF]) ∧
    ∃ d, load (lone []) "a.xsd" none none = .ok d ∧ load (lone [0xFF]) "a.xsd" none none = .ok d := by
  have there : (lone [0xFF]).fileBytes? "a.xsd" = some (prologued ++ [0xFF]) := by decide +kernel
  refine ⟨there, ?_⟩
  cases loaded : load (lone []) "a.xsd" none none with
  | error e =>
    have fine : (load (lone []) "a.xsd" none none).isOk = true := by decide +kernel
    rw [loaded] at fine
    cases fine
  | ok d =>
    have here : (lone []).fileBytes? "a.xsd" = some (prologued ++ []) := by decide +kernel
    exact ⟨d, rfl, load_of_shared_tag (t := lone []) (u := lone [0xFF]) rfl here there
      endsAt_prologued (by decide +kernel) loaded⟩

end SchemaFile

end NamespacePlan
