import NamespacePlan.FileTree
import NamespacePlan.Text.Wildcard

/-!
Files by patterns. A pattern is a path whose names may be patterns; a name of two stars stands for any
number of directories. Hidden names, which begin with a point, fit only patterns that do so too.
-/

namespace NamespacePlan.Glob

def isHidden (name : String) : Bool := name.toList.head? = some '.'

def isPattern (name : String) : Bool := name.toList.any Text.Wildcard.isSign

/-- The name that stands for any number of directories. -/
def anyDepth : String := "**"

mutual

def below (directoriesOnly : Bool) : FileNode → List String
  | .file _ => []
  | .directory entries => belowEntries directoriesOnly entries

def belowEntries (directoriesOnly : Bool) : List (String × FileNode) → List String
  | [] => []
  | (name, n) :: rest =>
    (if isHidden name then []
      else
        (if directoriesOnly && !n.isDirectory then [] else [name]) ++
          (below directoriesOnly n).map fun p => name ++ "/" ++ p) ++
      belowEntries directoriesOnly rest

end

def nodeAt (t : FileTree) (path : String) : Option FileNode :=
  t.find? (if path = "" then "." else path)

def fitting (directoriesOnly : Bool) (pattern : String) : FileNode → List String
  | .file _ => []
  | .directory entries =>
    (entries.filter fun e =>
      (isHidden pattern || !isHidden e.1) && (!directoriesOnly || e.2.isDirectory) &&
        Text.Wildcard.matchesName pattern e.1).map Prod.fst

def extend (t : FileTree) (directoriesOnly : Bool) (name path : String) : List String :=
  let found :=
    if name = anyDepth then
      "" :: ((nodeAt t path).map (below directoriesOnly)).getD []
    else if isPattern name then ((nodeAt t path).map (fitting directoriesOnly name)).getD []
    else if t.has (Path.join path name) then [name]
    else []
  found.map (Path.join path)

/-- The paths that the names of a pattern lead to; all but the last one must be directories. -/
def extendAll (t : FileTree) : List String → List String → List String
  | [], paths => paths
  | name :: names, paths =>
    extendAll t names (paths.flatMap (extend t (!names.isEmpty) name))

def dropSlashes (path : String) : String :=
  let kept := (path.toList.reverse.dropWhile (· == '/')).reverse
  if kept.isEmpty then path else String.ofList kept

def literalPart (pattern : String) : String × List String :=
  let ps := Path.pieces pattern
  let literal := ps.takeWhile (!isPattern ·)
  let rest := ps.drop literal.length
  let start := if literal.isEmpty then "" else dropSlashes (Path.ofPieces literal ++ "/")
  (start, rest.filter (· != ""))

/-- The paths that fit a pattern of which some name is one, in no particular order. A path can fit it
in several ways and is then found several times. -/
def find (t : FileTree) (pattern : String) : List String :=
  let (start, names) := literalPart pattern
  extendAll t names [start]

end NamespacePlan.Glob
