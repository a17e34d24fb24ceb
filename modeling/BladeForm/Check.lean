import BladeForm.Config.Basic
import BladeForm.Form.Header
import BladeForm.Resource

/-!
Checking a resource file: what a form made from it would show and need, and what in it is
probably not meant.
-/
namespace BladeForm

inductive Warning where
  | controlIgnored (field : String) (control : Control)
  | relationHidden (field : String)
  | nothingToSelect (field : String)
  | emptyForm
deriving DecidableEq, Repr

def Warning.message : Warning → String
  | .controlIgnored field control =>
    s!"Field '{field}' declares html-type {control.caption} but renders as a relation selector"
  | .relationHidden field =>
    s!"Relation on '{field}' is hidden on the form and is not passed to the view"
  | .nothingToSelect field => s!"Select field '{field}' has neither options nor a relation"
  | .emptyForm => "No field is visible on the form"

structure Report where
  path : Path
  fieldCount : Nat
  formFields : List String
  formCollections : List String
  headerFields : List String
  warnings : List Warning
deriving DecidableEq, Repr

def Field.warning? (f : Field) : Option Warning :=
  match f.relation with
  | some _ =>
    if f.control ≠ .select then some (.controlIgnored f.name f.control)
    else if !f.isOn .form then some (.relationHidden f.name)
    else none
  | none =>
    if f.control = .select && f.options.isEmpty then some (.nothingToSelect f.name) else none

namespace Report

def ofResource (r : Resource) : Report :=
  { path := r.path
    fieldCount := r.fields.length
    formFields := (r.fieldsOn .form).map (·.name)
    formCollections := (relationsOn r.fields .form).map Relation.collectionName
    headerFields := (Header.candidates r.fields).map (·.name)
    warnings := r.fields.filterMap Field.warning?
      ++ if r.hasFieldsOn .form then [] else [.emptyForm] }

def make (t : Tree) (resourceFile : String) (c : Config) : Except Failure Report :=
  (Resource.load t resourceFile c.paths.resourceFiles none).map ofResource

end Report

end BladeForm
