import NamespacePlan.Yaml.Stray

/-!
The parts that a YAML text consists of, with the marks of its block structure made explicit: where a
collection begins and ends by indentation there is a token too.
-/

namespace NamespacePlan.Yaml

inductive Fault where
  | malformed
  | stray (s : Stray)
  deriving DecidableEq, Repr

inductive Token where
  | version (major : Nat)
  | tagPrefix (handle uri : String)
  | otherDirective
  | documentStart
  | documentEnd
  | blockSequenceStart
  | blockMappingStart
  | blockEnd
  | flowSequenceStart
  | flowSequenceEnd
  | flowMappingStart
  | flowMappingEnd
  | blockEntry
  | flowEntry
  | key
  | value
  | alias (name : String)
  | anchor (name : String)
  | tag (handle : Option String) (suffix : String)
  /-- A scalar, and whether it stood without quotes; one with half a surrogate pair has no text. -/
  | scalar (text : Option (List Char)) (plain : Bool)
  | streamEnd
  | stop (f : Fault)
  deriving DecidableEq, Repr

end NamespacePlan.Yaml
