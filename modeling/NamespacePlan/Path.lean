import NamespacePlan.Text.Split

/-!
Paths of files as texts: names between slashes. Everything here looks at the text alone and never at
the files.
-/

namespace NamespacePlan.Path

open Text

def pieces (path : String) : List String := (splitAt '/' path.toList).map String.ofList

def ofPieces (ps : List String) : String := String.intercalate "/" ps

def isAbsolute (path : String) : Bool := path.toList.head? = some '/'

/-- The slashes at the beginning as they count: exactly two are kept, otherwise several are one. -/
def root (path : String) : String :=
  match path.toList with
  | '/' :: '/' :: '/' :: _ => "/"
  | '/' :: '/' :: _ => "//"
  | '/' :: _ => "/"
  | _ => ""

/-- The names on the way, without empty pieces and without the names of the place itself. -/
def names (path : String) : List String :=
  (pieces path).filter fun p => p != "" && p != "."

/-- The text of a root and the names below it; nowhere is written `.`. -/
def write (root : String) (ns : List String) : String :=
  let s := root ++ ofPieces ns
  if s = "" then "." else s

def tidy (path : String) : String := write (root path) (names path)

/-- Names with each step up taken back, as far as there is a name before it. At the root there is no
step up. -/
def collapse (rooted : Bool) (ns : List String) : List String :=
  (ns.foldl (fun (up : List String) n =>
    if n = ".." then
      match up with
      | [] => if rooted then [] else [n]
      | u :: rest => if u = ".." then n :: up else rest
    else n :: up) []).reverse

def normal (path : String) : String :=
  write (root path) (collapse (isAbsolute path) (names path))

/-- A path below another, unless it begins at the root itself. -/
def join (base path : String) : String :=
  if isAbsolute path then path
  else if base = "" ∨ base.toList.getLast? = some '/' then base ++ path
  else base ++ "/" ++ path

def absolute (place path : String) : String := normal (join place path)

def dropShared : List String → List String → List String × List String
  | a :: as, b :: bs => if a = b then dropShared as bs else (a :: as, b :: bs)
  | as, bs => (as, bs)

/-- The steps from one place to another, both seen from the root. -/
def stepsBetween (start goal : String) : List String :=
  let (away, toward) := dropShared (names start) (names goal)
  List.replicate away.length ".." ++ toward

def parentName (path : String) : String := (names path).dropLast.getLast?.getD ""

end NamespacePlan.Path
