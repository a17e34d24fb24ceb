import BladeForm.Path
import BladeForm.Style
import BladeForm.Toml.Value

/-!
Settings of a project: where its files are, the defaults of options, and the classes of its
template families. A setting that the file does not give keeps its default.
-/
namespace BladeForm

structure Paths where
  resourceFiles : Path := ⟨"resources/codegen"⟩
  views : Path := ⟨"resources/views"⟩
  stubs : Path := ⟨"templates"⟩
  languages : Path := ⟨"resources/lang"⟩
deriving DecidableEq, Repr

structure Defaults where
  layoutName : String := "layouts.app"
  templateName : String := "default"
  locale : String := "en"
deriving DecidableEq, Repr

structure Config where
  paths : Paths := {}
  defaults : Defaults := {}
  templates : List (String × Style) := []
deriving DecidableEq, Repr

namespace Config

/-- Families without settings of their own have the default classes. -/
def styleFor (c : Config) (template : String) : Style := (c.templates.lookup template).getD {}

def rootPath (base p : Path) : Path := if p.isAbsolute then p else base.join p.text

def rootedAt (c : Config) (base : Path) : Config :=
  { c with paths :=
    ⟨rootPath base c.paths.resourceFiles, rootPath base c.paths.views,
      rootPath base c.paths.stubs, rootPath base c.paths.languages⟩ }

end Config

end BladeForm
