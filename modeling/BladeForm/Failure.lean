import BladeForm.Json.Decode
import BladeForm.Json.Reader
import BladeForm.Path

/-!
Why a run can fail. Each cause carries what its message names; `message` and `help` hold all
the wording. Finding the view already there is a refusal, not a fault.
-/
namespace BladeForm

inductive ResourceFault where
  | noFields
  | notFields
  | badName (field : String)
  | duplicate (field : String)
  | badCollection (field collection : String)
deriving DecidableEq, Repr

inductive LanguageFault where
  | noReturn
  | noClosing
deriving DecidableEq, Repr

inductive JsonFault where
  | unreadable (e : Json.ReadError)
  | undecodable (e : Json.DecodeError)

inductive ReadPurpose where
  | plain
  | stub
  | languageFile
deriving DecidableEq, Repr

inductive Failure where
  | resourceNotFound (path : Path)
  | malformedResource (path : Path) (fault : JsonFault)
  | invalidResource (path : Path) (fault : ResourceFault)
  | emptyResource (path : Path)
  | invalidModelName (name : String)
  | viewExists (path : Path)
  | notWritten (path : Path)
  | stubNotFound (stub template : String) (path : Path)
  | malformedConfig (path : Path)
  | languageFile (path : Path) (fault : LanguageFault)
  | invalidGroupName (name : String)
  | unreadable (purpose : ReadPurpose) (path : Path)

def ResourceFault.message : ResourceFault → String
  | .noFields => "missing \"fields\" key"
  | .notFields => "expected an array of fields or an object with a \"fields\" key"
  | .badName field => s!"invalid field name '{field}'"
  | .duplicate field => s!"duplicate field '{field}'"
  | .badCollection field collection =>
    s!"relation on '{field}' has an invalid collection name '{collection}'"

def LanguageFault.message : LanguageFault → String
  | .noReturn => "expected `return [ ... ];`"
  | .noClosing => "no closing `];` found"

def ReadPurpose.message : ReadPurpose → String
  | .plain => "reading"
  | .stub => "reading stub"
  | .languageFile => "reading language file"

namespace Failure

def message : Failure → String
  | resourceNotFound path => s!"Resource file not found: {path.text}"
  | malformedResource path _ => s!"Failed to parse resource file {path.text}"
  | invalidResource path fault => s!"Invalid resource file {path.text}: {fault.message}"
  | emptyResource path =>
    s!"The resource file {path.text} does not contain any field visible on the form"
  | invalidModelName name => s!"Invalid model name '{name}'"
  | viewExists path => s!"The view already exists: {path.text}"
  | notWritten path => s!"Failed to write {path.text}"
  | stubNotFound stub template _ => s!"Stub '{stub}' not found for template '{template}'"
  | malformedConfig path => s!"Failed to parse {path.text}"
  | languageFile path fault => s!"Failed to update language file {path.text}: {fault.message}"
  | invalidGroupName name => s!"Invalid language file name '{name}'"
  | unreadable purpose path => s!"IO error: {purpose.message} {path.text}"

def help : Failure → Option String
  | resourceNotFound _ => some
    "Pass --resource-file or place <model>.json under the configured resource_files path"
  | malformedResource _ _ => some
    "The resource file must be JSON: an array of fields or \x7b\"fields\": [...]\x7d"
  | emptyResource _ => some "Set \"is-on-form\": true on at least one field"
  | invalidModelName _ => some
    "Model names must start with a letter and contain only letters, digits or underscores"
  | viewExists _ => some "Use --force to overwrite the existing view"
  | stubNotFound _ _ _ => some "Add the stub to the template directory or use the default template"
  | malformedConfig _ => some "Check the TOML syntax in your formcraft.toml file"
  | languageFile _ _ => some
    "Language files are PHP group files of the form <?php return [ 'key' => 'value', ];"
  | invalidGroupName _ => some
    ("Language file names must start with a letter or underscore and contain only letters, "
      ++ "digits, '_' or '-'")
  | invalidResource _ _ | notWritten _ | unreadable _ _ => none

def isSkip : Failure → Bool
  | viewExists _ => true
  | _ => false

end Failure

end BladeForm
