import NamespacePlan.Event
import NamespacePlan.Glob
import NamespacePlan.SchemaFile

/-!
All schemas below a directory, in the order of their paths.
-/

namespace NamespacePlan.SchemaSet

/-- The pattern for the schemas below a directory. The name of the directory is a pattern too. -/
def pattern (directory : String) : String :=
  Path.join (Path.join directory Glob.anyDepth) "*.xsd"

def paths (t : FileTree) (directory : String) : List String :=
  (Glob.find t (pattern directory)).mergeSort fun a b => a ≤ b

def load (t : FileTree) (directory : String) : Reported SchemaError (List Descriptor) :=
  if !t.hasDirectory directory then .fail (.directoryNotFound directory)
  else do
    let ds ← .ofExcept ((paths t directory).mapM fun p => SchemaFile.load t p none (some directory))
    .report (.schemasLoaded ds.length (ds.countP Descriptor.isMaindoc) directory)
    pure ds

end NamespacePlan.SchemaSet
