/-!
The banner of a generated unit, and the documentation bodies that a few sub-namespaces carry in it.
-/

namespace NamespacePlan

def defaultHome : String := "ublgen"

namespace Banner

def rule : String :=
  "------------------------------------------------------------------------------"

/-- The banner around a documentation body. -/
def render (documentation home : String) : String :=
  rule ++ "\n <auto-generated>\n     This code was generated by a tool.\n     \n" ++
    "     Changes to this file may cause incorrect behavior and will be lost if\n" ++
    "     the code is regenerated.\n\n     " ++ home ++ "\n     " ++ documentation ++
    "\n </auto-generated>\n" ++ rule

def basicText (optimize : Bool) : String :=
  " UBL BBIEs (Basic Business Information Entities) are the leaf nodes of every UBL document " ++
  "structure.\n" ++
  if optimize then
    " Types in this scope has been optimized/replaced by types from Udt.\n" ++
    " Members of maindocs streamed under Cbc namespace will in fact be Udt types."
  else " Yagni-types in this scope do not have any documentation present in xsd files."

def documented (optimize : Bool) : List (String × String) :=
  [("Cbc", basicText optimize),
   ("Cac", " UBL ASBIEs (Association Business Information Entities) are substructures of an " ++
      "UBL document."),
   ("Cctscct", " Types at the lowest level have been made abstract and prefixed with \"cctscct\" " ++
      "to avoid naming conflicts."),
   ("Qdt", " --no qualified data types defined at this time--")]

/-- The output namespace ends in a dot and the key. -/
def endsIn (output key : String) : Bool := ('.' :: key.toList).isSuffixOf output.toList

/-- The documentation body of an output namespace, told by its last segment; empty for most. -/
def documentation (output : String) (optimize : Bool) : String :=
  match (documented optimize).find? fun d => endsIn output d.1 with
  | some d => "\n" ++ d.2 ++ "\n"
  | none => ""

end Banner

end NamespacePlan
