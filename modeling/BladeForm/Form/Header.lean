import BladeForm.Field.Basic
import BladeForm.Form.Blade

/-!
What labels a record. Fields marked as headers do; without any, the first textual field that
some view shows. Where there is none the model's title stands in.
-/
namespace BladeForm

structure Header where
  fields : List String
  accessor : String
deriving DecidableEq, Repr

namespace Header

def isCandidate (f : Field) : Bool := f.control.isTextual && View.all.any f.isOn

def candidates (fields : List Field) : List Field :=
  match fields.filter (·.isHeader) with
  | [] => (fields.find? isCandidate).toList
  | flagged => flagged

/-- Prints one field of the record, or the fallback as long as there is no record. -/
def printed (record fallback field : String) : String :=
  Blade.echo s!"isset(${record}->{field}) ? ${record}->{field} : '{fallback}'"

def ofFields (fields : List Field) (model : String) : Header :=
  let names := (candidates fields).map (·.name)
  let fallback := Name.title model
  ⟨names,
    if names.isEmpty then fallback
    else " ".intercalate (names.map (printed (Name.singularVariable model) fallback))⟩

end Header

end BladeForm
