import NamespacePlan.Yaml.ScalarText

/-!
What stands in front of a node or a document: anchors and aliases, tags, and directives.
-/

namespace NamespacePlan.Yaml

namespace Property

/-- May stand in the name of an anchor, of a tag handle or of a directive. -/
def isNameChar (c : Char) : Bool :=
  ('0' ≤ c && c ≤ '9') || ('A' ≤ c && c ≤ 'Z') || ('a' ≤ c && c ≤ 'z') || c == '-' || c == '_'

def name (c : Cursor) : List Char × Cursor :=
  let cs := c.rest.takeWhile isNameChar
  (cs, c.skip cs.length)

def anchorName (c : Cursor) : Except Fault (String × Cursor) :=
  let (cs, next) := name c
  if cs.isEmpty then .error .malformed
  else if next.beforeBlank || next.seesAny ['?', ':', ',', ']', '\x7d', '%', '@', '\x60'].contains
  then .ok (String.ofList cs, next)
  else .error .malformed

/-! Tags. -/

def isUriChar (c : Char) : Bool :=
  isNameChar c ||
    [';', '/', '?', ':', '@', '&', '=', '+', '$', ',', '.', '!', '~', '*', '\'', '(', ')', '[',
     ']'].contains c

def escapedBytes : List Char → Option (List UInt8)
  | '%' :: a :: b :: rest =>
    match Text.hexNumber? [a, b] with
    | some n => (escapedBytes rest).map (UInt8.ofNat n :: ·)
    | none => none
  | '%' :: _ => none
  | _ => some []

def uriChars : Nat → Cursor → Except Fault (List Char × Cursor)
  | 0, c => .ok ([], c)
  | fuel + 1, c =>
    match c.peek with
    | none => .ok ([], c)
    | some ch =>
      if ch = '%' then
        match escapedBytes c.rest with
        | none => .error .malformed
        | some bytes =>
          match String.fromUTF8? ⟨bytes.toArray⟩ with
          | none => .error .malformed
          | some s =>
            (uriChars fuel (c.skip (3 * bytes.length))).map fun r => (s.toList ++ r.1, r.2)
      else if isUriChar ch then (uriChars fuel c.step).map fun r => (ch :: r.1, r.2)
      else .ok ([], c)

/-- A tag, or the beginning of one; there is at least one character. -/
def uri (c : Cursor) : Except Fault (String × Cursor) :=
  match uriChars c.rest.length c with
  | .error f => .error f
  | .ok (cs, next) => if next.index = c.index then .error .malformed else .ok (String.ofList cs, next)

/-- A handle: `!`, `!!`, or a name between two marks. -/
def handle (c : Cursor) : Except Fault (String × Cursor) :=
  if !c.sees '!' then .error .malformed
  else if c.step.sees ' ' then .ok ("!", c.step)
  else
    let (cs, next) := name c.step
    if next.sees '!' then .ok ("!" ++ String.ofList cs ++ "!", next.step) else .error .malformed

/-- Handle and suffix of a tag; only a tag in full has no handle. -/
def tagParts (c : Cursor) : Except Fault ((Option String × String) × Cursor) :=
  let next := c.step
  if next.sees '<' then do
    let (s, last) ← uri next.step
    if last.sees '>' then .ok ((none, s), last.step) else .error .malformed
  else if next.beforeBlank then .ok ((none, "!"), next)
  else do
    let word := next.rest.takeWhile fun ch => ch != ' ' && !Style.isBreak ch
    let (h, next) ← if word.contains '!' then handle c else .ok ("!", next)
    let (s, last) ← uri next
    .ok ((some h, s), last)

def tag (c : Cursor) : Except Fault (Token × Cursor) :=
  match tagParts c with
  | .error f => .error f
  | .ok ((h, s), next) => if next.beforeSpace then .ok (.tag h s, next) else .error .malformed

/-! Directives. -/

def versionNumber (c : Cursor) : Except Fault (Nat × Cursor) :=
  let ds := c.rest.takeWhile Text.isDigit
  if ds.isEmpty then .error .malformed
  else if Value.digitLimit < ds.length then .error (.stray (.tooLong ds.length))
  else .ok (Text.natOf ds, c.skip ds.length)

def version (c : Cursor) : Except Fault (Token × Cursor) := do
  let (major, next) ← versionNumber (c.skipWhile (· == ' '))
  if !next.sees '.' then .error .malformed
  else
    let (_, last) ← versionNumber next.step
    if last.beforeSpace then .ok (.version major, last) else .error .malformed

def tagPrefix (c : Cursor) : Except Fault (Token × Cursor) := do
  let (h, next) ← handle (c.skipWhile (· == ' '))
  if !next.sees ' ' then .error .malformed
  else
    let (s, last) ← uri (next.skipWhile (· == ' '))
    if last.beforeSpace then .ok (.tagPrefix h s, last) else .error .malformed

def directive (c : Cursor) : Except Fault (Token × Cursor) := do
  let (cs, next) := name c.step
  if cs.isEmpty || !next.beforeSpace then .error .malformed
  else
    let (t, last) ←
      if cs = "YAML".toList then version next
      else if cs = "TAG".toList then tagPrefix next
      else .ok (.otherDirective, next.skipWhile (!Style.isBreak ·))
    let last ← ScalarText.ignoredLine last
    .ok (t, last)

end Property

end NamespacePlan.Yaml
