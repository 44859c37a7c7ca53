import NamespacePlan.CommandLine.Run
import Std.Time.Format

/-!
The program. It puts the files that its command line is about into a tree, carries the command line out
on that tree, and then writes, prints and exits as the run has ended.
-/

namespace NamespacePlan.Program

def isDirectory? (path : String) : IO (Option Bool) := do
  try
    let place ← IO.FS.realPath path
    if ← place.pathExists then return some (← place.isDir) else return none
  catch _ => return none

/-- What stands at a path, down to a depth. Only schemas are read; of the other files nothing but the
names counts. -/
def nodeAt? : Nat → String → IO (Option FileNode)
  | 0, _ => return none
  | depth + 1, path => do
    match ← isDirectory? path with
    | none => return none
    | some false =>
      let bytes ← if path.endsWith ".xsd" then IO.FS.readBinFile path else pure .empty
      return some (.file bytes.toList)
    | some true =>
      let mut entries := #[]
      for e in ← (← IO.FS.realPath path).readDir do
        if let some n ← nodeAt? depth (path ++ "/" ++ e.fileName) then
          entries := entries.push (e.fileName, n)
      return some (.directory entries.toList)

def depthLimit : Nat := 64

def withNode (t : FileTree) (path : String) (n : FileNode) : FileTree :=
  { t with root := n.plant (Path.names (t.absolute path)) t.root }

/-- The tree with the directories that a path goes through, and the file that it leads to. -/
def withPath (t : FileTree) (path : String) : IO FileTree := do
  let ps := Path.pieces path
  let mut t := t
  for n in [1:ps.length + 1] do
    let here := Path.ofPieces (ps.take n)
    match ← isDirectory? here with
    | none => pure ()
    | some true => if !t.has here then t := withNode t here (.directory [])
    | some false =>
      if n = ps.length then t := withNode t here (.file (← IO.FS.readBinFile here).toList)
  return t

def withAll (t : FileTree) (path : String) : IO FileTree := do
  let path := if path.isEmpty then "." else path
  match ← nodeAt? depthLimit path with
  | none => return t
  | some n => return withNode t path n

/-- The files that a command line is about: its settings, the schemas, and the place of its output. -/
def filesOf (t : FileTree) (i : CommandLine.Invocation) : IO FileTree := do
  let named := i.source.config.toList
  let mut t ← named.foldlM withPath t
  if let .ok settings := CommandLine.settingsOf t i then
    if let some directory := settings.schemaDir then
      t ← withAll t (Glob.literalPart (SchemaSet.pattern directory)).1
      t ← withPath t directory
      t ← named.foldlM withPath t
  if let .plan o := i.task then
    t ← o.output.toList.foldlM withPath t
  return t

def run (args : List String) : IO UInt32 := do
  let place := Path.names (← IO.currentDir).toString
  let bare : FileTree :=
    { root := (FileNode.directory []).plant place (.directory []), place := place }
  let t ← match CommandLine.read args with
    | .error _ => pure bare
    | .ok i => filesOf bare i
  let ending := CommandLine.run t args
  for (place, bytes) in t.changes ending.tree do
    IO.FS.writeBinFile ("/" ++ Path.ofPieces place) ⟨bytes.toArray⟩
  let time := (← Std.Time.PlainDateTime.now).format "uuuu-MM-dd HH:mm:ss,SSS"
  IO.print ending.stdout
  IO.eprint (ending.stderr time)
  match ending.exit with
  | .ok code => return code.toUInt32
  | .error message =>
    IO.eprintln message
    return 1

end NamespacePlan.Program

def main (args : List String) : IO UInt32 := NamespacePlan.Program.run args
