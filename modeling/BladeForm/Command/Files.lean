import BladeForm.Command.Line
import BladeForm.Config.Load
import BladeForm.Plan

/-!
The files that a command looks for or writes, known before it runs: the configuration first,
then what the configuration and the options name.
-/
namespace BladeForm.Command

def configFiles (config : String) : List Path :=
  [⟨config⟩, (⟨config⟩ : Path).join Config.fileName]

def resourceFiles (c : Config) (name : String) : List Path :=
  [Resource.pathOf name, c.paths.resourceFiles.join (Resource.pathOf name).text]

def files (c : Config) : Command → List Path
  | .check resourceFile => resourceFiles c resourceFile
  | .formView o _ _ =>
    match o.settle c with
    | .error _ => []
    | .ok s =>
      resourceFiles c s.resourceFile
        ++ [Stub.pathOf s.paths.stubs s.templateName Stub.formStub, s.destination, s.languagePath]

end BladeForm.Command
