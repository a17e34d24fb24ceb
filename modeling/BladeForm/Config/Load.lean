import BladeForm.Config.Decode
import BladeForm.Failure
import BladeForm.Toml.Reader
import BladeForm.Tree

/-!
Finding and reading the configuration. A path names the file itself or its directory; where
there is no file, the defaults hold.
-/
namespace BladeForm.Config

def fileName : String := "formcraft.toml"

def filePath (t : Tree) (path : Path) : Path :=
  if path.fileName? = some fileName.toList || t.isFile path then path else path.join fileName

def load (t : Tree) (path : Path) : Except Failure Config :=
  let file := filePath t path
  let base := file.parent?.getD .empty
  if !t.has file then .ok (rootedAt {} base)
  else
    match t.read? file with
    | none => .error (.unreadable .plain file)
    | some text =>
      match (Toml.parse? text).bind ofTable with
      | none => .error (.malformedConfig file)
      | some c => .ok (c.rootedAt base)

end BladeForm.Config
