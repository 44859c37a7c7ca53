import NamespacePlan.Path

/-!
Files in directories, and what a path leads to. A path is followed name by name, and every name but the
last has to be one of a directory; so has the last one when a slash or a step stands behind it.
-/

namespace NamespacePlan

inductive FileNode where
  | file (bytes : List UInt8)
  | directory (entries : List (String × FileNode))
  deriving Repr

namespace FileNode

def child? (n : FileNode) (name : String) : Option FileNode :=
  match n with
  | file _ => none
  | directory entries => entries.lookup name

def isDirectory : FileNode → Bool
  | directory _ => true
  | file _ => false

def below? (n : FileNode) (names : List String) : Option FileNode := names.foldlM child? n

def putChild (name : String) (n : FileNode) (entries : List (String × FileNode)) :
    List (String × FileNode) :=
  if entries.any fun e => e.1 == name then
    entries.map fun e => if e.1 = name then (name, n) else e
  else entries ++ [(name, n)]

def plant (n : FileNode) : List String → FileNode → FileNode
  | [], _ => n
  | name :: names, around =>
    let entries := match around with
      | directory entries => entries
      | file _ => []
    directory (putChild name (plant n names ((entries.lookup name).getD (directory []))) entries)

mutual

/-- The files at a place and below it. -/
def files (place : List String) : FileNode → List (List String × List UInt8)
  | file bytes => [(place, bytes)]
  | directory entries => filesIn place entries

def filesIn (place : List String) : List (String × FileNode) → List (List String × List UInt8)
  | [] => []
  | (name, n) :: entries => files (place ++ [name]) n ++ filesIn place entries

end

end FileNode

structure FileTree where
  root : FileNode
  place : List String
  deriving Repr

inductive FileFault where
  | missing
  | notDirectory
  | isDirectory
  deriving DecidableEq, Repr

def FileFault.message (path : String) : FileFault → String
  | missing => "[Errno 2] No such file or directory: " ++ path
  | notDirectory => "[Errno 20] Not a directory: " ++ path
  | isDirectory => "[Errno 21] Is a directory: " ++ path

namespace FileTree

def step (t : FileTree) (place : List String) (piece : String) :
    Except FileFault (List String) :=
  match t.root.below? place with
  | none => .error .missing
  | some (.file _) => .error .notDirectory
  | some (.directory entries) =>
    if piece = "" ∨ piece = "." then .ok place
    else if piece = ".." then .ok place.dropLast
    else if (entries.lookup piece).isSome then .ok (place ++ [piece])
    else .error .missing

def follow (t : FileTree) (path : String) (ps : List String) : Except FileFault (List String) :=
  ps.foldlM t.step (if Path.isAbsolute path then [] else t.place)

def locate (t : FileTree) (path : String) : Except FileFault (List String) :=
  if path = "" ∨ path.toList.contains '\x00' then .error .missing
  else t.follow path (Path.pieces path)

def find? (t : FileTree) (path : String) : Option FileNode :=
  match t.locate path with
  | .error _ => none
  | .ok place => t.root.below? place

def has (t : FileTree) (path : String) : Bool := (t.find? path).isSome

def hasDirectory (t : FileTree) (path : String) : Bool :=
  (t.find? path).any FileNode.isDirectory

def fileBytes? (t : FileTree) (path : String) : Option (List UInt8) :=
  match t.find? path with
  | some (.file bytes) => some bytes
  | _ => none

/-- The pieces of a path without the empty ones at its end. -/
def trimmedPieces (path : String) : List String :=
  ((Path.pieces path).reverse.dropWhile (· == "")).reverse

/-- The place where a file can be written: a new name in a directory, or the name of a file. A path
that ends in a slash or in a step names a directory, whether or not it is there. -/
def writable (t : FileTree) (path : String) : Except FileFault (List String) := do
  let ps := trimmedPieces path
  let around ← t.follow path (ps.dropLast ++ [""])
  let last := ps.getLast?.getD ""
  if last = "" ∨ last = "." ∨ last = ".." ∨ path.toList.getLast? = some '/' then
    .error .isDirectory
  else
    match t.root.below? (around ++ [last]) with
    | some (.directory _) => .error .isDirectory
    | _ => .ok (around ++ [last])

def put (t : FileTree) (place : List String) (bytes : List UInt8) : FileTree :=
  { t with root := (FileNode.file bytes).plant place t.root }

/-- The files that are new in a tree, or hold something else than before. -/
def changes (before after : FileTree) : List (List String × List UInt8) :=
  (after.root.files []).filter fun f =>
    match before.root.below? f.1 with
    | some (.file bytes) => bytes != f.2
    | _ => true

def placeText (t : FileTree) : String := "/" ++ Path.ofPieces t.place

def absolute (t : FileTree) (path : String) : String := Path.absolute t.placeText path

end FileTree

end NamespacePlan
