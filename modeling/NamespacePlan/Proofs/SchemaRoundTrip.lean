import NamespacePlan.Proofs.Bindings
import NamespacePlan.Proofs.EncodedTexts
import NamespacePlan.Proofs.MapWrites
import NamespacePlan.Proofs.SchemaLoading
import NamespacePlan.Proofs.TableContents
import NamespacePlan.Proofs.WrittenTags

/-! Schemas that are written as files and loaded again. What is loaded has the target and the bindings that
were written, so a table over what is loaded is the table over the schemas themselves. -/
namespace NamespacePlan

namespace Xml

/-- A file in UTF-8 whose root tag is written with these attributes. Any bytes may follow the tag. -/
def Writes (as : List TagAttribute) (bs : List UInt8) : Prop :=
  ∃ prolog element text gap close behind, RootTag.IsProlog prolog ∧ IsName element ∧ Tagged as text ∧
    IsGap gap ∧ (close = ['>'] ∨ close = ['/', '>']) ∧
    bs = (String.ofList (prolog ++ '<' :: (element ++ (text ++ (gap ++ close))))).toUTF8.toList ++ behind

namespace RootTag

/-- No carriage return stands in a tag as it is written. -/
theorem plain_tagged {as : List TagAttribute} {text : List Char} (tagged : Tagged as text)
    (legal : ∀ a ∈ as, a.Legal) : '\r' ∉ text := by
  induction tagged with
  | nil => exact List.not_mem_nil
  | @cons a as front raw text quote apart blank quotes escaped others ih =>
    have later := ih fun b listed => legal b (List.mem_cons_of_mem a listed)
    have named := isName_name (legal a List.mem_cons_self)
    have gap : '\r' ∉ front := fun member => (blank _ member).2 rfl
    have name : '\r' ∉ a.name := fun member => nomatch (named.2 _ member : isNameChar '\r' = true)
    have quoted : '\r' ≠ quote := by
      rcases quotes with rfl | rfl <;> decide
    have value := escaped.free (by decide : '\r' ∈ ['"', '\'', '\r'])
    simp [gap, name, quoted, value, later]

theorem plain_document {prolog element : List Char} (opens : IsProlog prolog) (named : IsName element)
    {as : List TagAttribute} {text : List Char} (tagged : Tagged as text) (legal : ∀ a ∈ as, a.Legal)
    {gap close : List Char} (blank : IsGap gap) (closes : close = ['>'] ∨ close = ['/', '>']) :
    '\r' ∉ prolog ++ '<' :: (element ++ (text ++ (gap ++ close))) := by
  have spaces : ∀ {g : List Char}, IsGap g → '\r' ∉ g := fun blank member => (blank _ member).2 rfl
  have first : '\r' ∉ prolog := by
    rcases opens with rfl | ⟨front, blank', rfl⟩
    · exact List.not_mem_nil
    · have declared : '\r' ∉ utf8Declaration := by decide
      simp [declared, spaces blank']
  have name : '\r' ∉ element := fun member => nomatch (named.2 _ member : isNameChar '\r' = true)
  have last : '\r' ∉ close := by
    rcases closes with rfl | rfl <;> decide
  simp [first, name, plain_tagged tagged legal, spaces blank, last]

theorem exists_byte {c : Char} (starts : isNameStart c = true) :
    ∃ b more, String.utf8EncodeChar c = b :: more ∧ b ≠ 0 ∧ b ≠ 0x3F := by
  obtain ⟨b, more, written, next⟩ := Text.Utf8.exists_next c
  -- A byte below 0x80 is the whole character.
  have whole : ∀ d, Text.Utf8.next b (more ++ []) = .ok (d, 1) → isNameStart d = false → False := by
    intro d read unnamed
    rw [next] at read
    obtain rfl : c = d := (Prod.ext_iff.1 (Except.ok.inj read)).1
    rw [starts] at unnamed
    cases unnamed
  refine ⟨b, more, written, ?_, ?_⟩
  · rintro rfl
    exact whole '\x00' rfl (by decide)
  · rintro rfl
    exact whole '?' rfl (by decide)

/-- Bytes that begin with a tag, or with a declaration that tells so, are those of UTF-8. -/
theorem of?_written {prolog element : List Char} (opens : IsProlog prolog) (named : IsName element)
    (rest : List Char) (behind : List UInt8) :
    Encoding.of? ((String.ofList (prolog ++ '<' :: (element ++ rest))).toUTF8.toList ++ behind) =
      some (.utf8, 0) := by
  rw [Text.Utf8.toList_toUTF8, String.toList_ofList]
  rcases opens with rfl | ⟨gap, _, rfl⟩
  · obtain ⟨c, letters, rfl, starts⟩ := named.exists_head
    obtain ⟨b, more, written, visible, other⟩ := exists_byte starts
    have opening : String.utf8EncodeChar '<' = [0x3C] := by decide
    simp only [List.nil_append, List.cons_append, List.flatMap_cons, opening, written]
    exact Encoding.of?_of_bare visible other _
  · have declared : Encoding.of? (utf8Declaration.flatMap String.utf8EncodeChar ++ []) =
        some (.utf8, 0) := by decide +kernel
    have closed : Encoding.closingByte ∈ utf8Declaration.flatMap String.utf8EncodeChar := by
      decide +kernel
    simp only [List.flatMap_append, List.append_assoc]
    rw [Encoding.of?_of_shared closed _ [], declared]

/-- A written tag is read as it was written. -/
theorem ofBytes_written {as : List TagAttribute} {bs : List UInt8} (written : Writes as bs)
    (legal : ∀ a ∈ as, a.Legal) (prefixes : ((TagAttribute.bindings as).map Prod.fst).Nodup)
    (names : ((TagAttribute.plains as).map Prod.fst).Nodup) :
    ∃ t, ofBytes bs = some t ∧ t.bindings = TagAttribute.bindings as ∧
      t.attributes = TagAttribute.plains as := by
  obtain ⟨prolog, element, text, gap, close, behind, opens, named, tagged, blank, closes, rfl⟩ := written
  have distinct : (({ name := String.ofList element } : RootTag).extended as).Distinct :=
    ⟨prefixes, names⟩
  have plain := plain_document opens named tagged legal blank closes
  have scanned := scan_tagged named tagged legal distinct blank closes (Encoding.utf8.text behind) opens
  refine ⟨({ name := String.ofList element } : RootTag).extended as, ?_, rfl, rfl⟩
  simp only [ofBytes, decodeDocument, of?_written opens named, Option.map_some, List.drop_zero,
    Encoding.text_utf8 plain, Option.bind_eq_bind, Option.bind_some, ofText]
  simp only [List.append_assoc, List.cons_append, scanned, Option.map_some]

end RootTag

end Xml

namespace SchemaFile

/-- A file that a schema is written as: the root tag binds the prefixes of the schema, in their order, and
names its target among the other attributes. -/
def Writes (d : Descriptor) (bs : List UInt8) : Prop :=
  ∃ as, Xml.Writes as bs ∧ (∀ a ∈ as, a.Legal) ∧
    Xml.TagAttribute.bindings as = d.bindings.entries ∧
    ((Xml.TagAttribute.plains as).map Prod.fst).Nodup ∧
    ("targetNamespace", d.target) ∈ Xml.TagAttribute.plains as

/-- A schema that can be written. -/
def Writable (d : Descriptor) : Prop :=
  d.target ≠ "" ∧ Xml.IsText d.target ∧
    ∀ b ∈ d.bindings.entries, (Xml.TagAttribute.binding b.1 b.2).Legal

instance (d : Descriptor) : Decidable (Writable d) := inferInstanceAs (Decidable (_ ∧ _))

def attributes (d : Descriptor) : List Xml.TagAttribute :=
  (d.bindings.entries.map fun b => .binding b.1 b.2) ++ [.plain "targetNamespace" d.target]

def text (d : Descriptor) : String :=
  String.ofList (Xml.RootTag.utf8Declaration ++ "\n<xsd:schema".toList ++
    (attributes d).flatMap Xml.TagAttribute.text ++ ['>'])

/-- Every schema is written as its text, whatever stands behind the tag. -/
theorem writes_text {d : Descriptor} (writable : Writable d) (behind : List UInt8) :
    Writes d ((text d).toUTF8.toList ++ behind) := by
  obtain ⟨_, proper, legal⟩ := writable
  refine ⟨attributes d, ⟨Xml.RootTag.utf8Declaration ++ ['\n'], "xsd:schema".toList, _, [], ['>'], behind,
    .inr ⟨['\n'], by decide, rfl⟩, by decide, Xml.tagged_text _, by decide, .inl rfl, ?_⟩, ?_, ?_, ?_, ?_⟩
  · have shape : Xml.RootTag.utf8Declaration ++ "\n<xsd:schema".toList ++
        (attributes d).flatMap Xml.TagAttribute.text ++ ['>'] =
        Xml.RootTag.utf8Declaration ++ ['\n'] ++ '<' :: ("xsd:schema".toList ++
          ((attributes d).flatMap Xml.TagAttribute.text ++ ([] ++ ['>']))) := by
      simp
    rw [text, shape]
  · intro a listed
    rcases List.mem_append.1 listed with bound | last
    · obtain ⟨b, member, rfl⟩ := List.mem_map.1 bound
      exact legal b member
    · obtain rfl := List.mem_singleton.1 last
      exact ⟨by decide, by decide, by decide, proper⟩
  · simp [attributes, Xml.TagAttribute.bindings]
  · simp [attributes, Xml.TagAttribute.plains]
  · simp [attributes, Xml.TagAttribute.plains]

theorem lookup_of_mem {es : List (String × String)} (distinct : (es.map Prod.fst).Nodup) {k v : String}
    (listed : (k, v) ∈ es) : es.lookup k = some v := by
  induction es with
  | nil => cases listed
  | cons e es ih =>
    rw [List.map_cons, List.nodup_cons] at distinct
    rw [List.lookup_cons]
    rcases List.mem_cons.1 listed with rfl | later
    · simp
    · have other : k ≠ e.1 := fun same => distinct.1 (same ▸ List.mem_map_of_mem later)
      rw [beq_eq_false_iff_ne.2 other]
      exact ih distinct.2 later

theorem load_writes {t : FileTree} {path : String} {bs : List UInt8} (file : t.fileBytes? path = some bs)
    {d : Descriptor} (written : Writes d bs) (named : d.target ≠ "") (maindoc : Option Bool)
    (base : Option String) : load t path maindoc base =
      .ok { d with
        maindoc := some (maindoc.getD (isMaindoc t path d.target base))
        location := some (t.absolute path) } := by
  obtain ⟨as, tags, legal, bound, names, target⟩ := written
  have prefixes : ((Xml.TagAttribute.bindings as).map Prod.fst).Nodup := bound ▸ d.bindings.nodup_keys
  obtain ⟨tag, read, bindings, attributes⟩ := Xml.RootTag.ofBytes_written tags legal prefixes names
  have value : tag.value? "targetNamespace" = some d.target := by
    rw [Xml.RootTag.value?, attributes]
    exact lookup_of_mem names target
  have kept : OrderedMap.ofList tag.bindings = d.bindings := by
    refine OrderedMap.ext ?_
    rw [bindings, OrderedMap.entries_ofList_of_nodup prefixes, bound]
  simp only [load, file, read, describe, value, if_neg named, kept]

/-- A file that a schema is written as and that counts as a main document if the schema is one. -/
def Holds (t : FileTree) (base : Option String) (f : String × Option Bool) (d : Descriptor) : Prop :=
  ∃ bs, t.fileBytes? f.1 = some bs ∧ Writes d bs ∧ d.target ≠ "" ∧
    d.isMaindoc = f.2.getD (isMaindoc t f.1 d.target base)

end SchemaFile

namespace NamespaceTable

/-- A table takes from its schemas only what they bind, their targets and which are main documents. -/
theorem entries_build?_congr {ds es : List Descriptor}
    (alike : List.Forall₂ (fun d e => d.target = e.target ∧ d.bindings.entries = e.bindings.entries ∧
      d.isMaindoc = e.isMaindoc) ds es) (root : String) (optimize strict : Bool) (os : List Override) :
    (build? ds root optimize strict os).map entries = (build? es root optimize strict os).map entries := by
  have declared : Prefixes.declared ds = Prefixes.declared es := by
    have bound : (ds.flatMap fun d => d.bindings.entries) = es.flatMap fun d => d.bindings.entries := by
      induction alike with
      | nil => rfl
      | cons here later ih => rw [List.flatMap_cons, List.flatMap_cons, here.2.1, ih]
    rw [Prefixes.declared, Prefixes.declared, bound]
  have maindocs : (ds.filter Descriptor.isMaindoc).map Descriptor.target =
      (es.filter Descriptor.isMaindoc).map Descriptor.target := by
    clear declared
    induction alike with
    | nil => rfl
    | @cons d e ds es here later ih =>
      rw [List.filter_cons, List.filter_cons, here.2.2]
      split
      · rw [List.map_cons, List.map_cons, here.1, ih]
      · exact ih
  have collected : Prefixes.collect ds = Prefixes.collect es :=
    Prefixes.collect_congr (congrArg List.eraseDups declared)
  have entered : ∀ bs, entriesOf ds root os bs = entriesOf es root os bs := by
    intro bs
    rw [entriesOf, entriesOf, addMaindocs_eq, addMaindocs_eq, maindocs]
  simp only [build?, collected]
  split
  · rfl
  · cases Prefixes.collect es with
    | error c => rfl
    | ok bs => exact congrArg Except.ok (entered bs)

end NamespaceTable

namespace SchemaFile

/-- Every schema of the kind can be written as a file. What is loaded from such a file has the target and
the bindings that were written, in their order, and a table over all that is loaded is the table over the
schemas themselves. -/
theorem load_written (t : FileTree) (base : Option String) :
    (∀ d behind, Writable d → Writes d ((text d).toUTF8.toList ++ behind)) ∧
    (∀ path bs maindoc d, t.fileBytes? path = some bs → Writes d bs → d.target ≠ "" →
      ∃ x, load t path maindoc base = .ok x ∧ x.target = d.target ∧
        x.bindings.entries = d.bindings.entries) ∧
    ∀ fs ds, List.Forall₂ (Holds t base) fs ds →
      ∃ xs, (fs.mapM fun f => load t f.1 f.2 base) = .ok xs ∧ ∀ root optimize strict os,
        (NamespaceTable.build? xs root optimize strict os).map NamespaceTable.entries =
          (NamespaceTable.build? ds root optimize strict os).map NamespaceTable.entries := by
  refine ⟨fun d behind writable => writes_text writable behind, ?_, ?_⟩
  case refine_1 =>
    intro path bs maindoc d file written named
    exact ⟨_, load_writes file written named maindoc base, rfl, rfl⟩
  case refine_2 =>
    intro fs ds held
    obtain ⟨xs, loaded, alike⟩ : ∃ xs, List.Forall₂ (fun f x => load t f.1 f.2 base = .ok x) fs xs ∧
        List.Forall₂ (fun x d => x.target = d.target ∧ x.bindings.entries = d.bindings.entries ∧
          x.isMaindoc = d.isMaindoc) xs ds := by
      induction held with
      | nil => exact ⟨[], .nil, .nil⟩
      | cons here later ih =>
        obtain ⟨bs, file, written, named, kind⟩ := here
        obtain ⟨xs, loaded, alike⟩ := ih
        refine ⟨_, .cons (load_writes file written named _ base) loaded, .cons ⟨rfl, rfl, ?_⟩ alike⟩
        rw [kind]
        simp [Descriptor.isMaindoc]
    exact ⟨xs, mapM_eq_ok_iff.2 loaded, NamespaceTable.entries_build?_congr alike⟩

/-- A schema whose URIs hold markup, quotes and line ends. -/
def marked : Descriptor where
  target := "urn:<a>&'b'"
  bindings := OrderedMap.ofList [("p", "\"x\"\n"), ("", "urn:<a>&'b'")]

def markedTree : FileTree where
  root := .directory [("a.xsd", .file ((text marked).toUTF8.toList ++ [0xFF]))]
  place := []

theorem load_marked : Writable marked ∧ (∃ x, load markedTree "a.xsd" none none = .ok x ∧
    x.bindings.entries = [("p", "\"x\"\n"), ("", "urn:<a>&'b'")]) ∧
    ∃ xs, ([("a.xsd", none)].mapM fun f => load markedTree f.1 f.2 none) = .ok xs ∧
      (NamespaceTable.build? xs "Root" false false []).map NamespaceTable.entries =
        (NamespaceTable.build? [marked] "Root" false false []).map NamespaceTable.entries := by
  have writable : Writable marked := by decide
  obtain ⟨writes, loads, tables⟩ := load_written markedTree none
  have written := writes marked [0xFF] writable
  have file : markedTree.fileBytes? "a.xsd" = some ((text marked).toUTF8.toList ++ [0xFF]) := rfl
  obtain ⟨x, loaded, _, bindings⟩ := loads "a.xsd" _ none marked file written writable.1
  obtain ⟨xs, all, table⟩ := tables [("a.xsd", none)] [marked]
    (.cons ⟨_, file, written, writable.1, by decide⟩ .nil)
  exact ⟨writable, ⟨x, loaded, bindings⟩, xs, all, table "Root" false false []⟩

end SchemaFile

end NamespacePlan
