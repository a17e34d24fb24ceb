import BladeForm.Name.Forms

/-!
Fields of a resource: what a form asks for, how it is entered, where it shows, and which
other model it points to.
-/
namespace BladeForm

inductive View where
  | form
  | index
  | details
deriving DecidableEq, Repr

namespace View

def all : List View := [.form, .index, .details]

def name : View → String
  | .form => "form"
  | .index => "index"
  | .details => "show"

end View

structure Visibility where
  form : Bool := true
  index : Bool := true
  details : Bool := true
deriving DecidableEq, Repr

namespace Visibility

def on (v : Visibility) : View → Bool
  | .form => v.form
  | .index => v.index
  | .details => v.details

def ofList (views : List View) : Visibility :=
  ⟨views.contains .form, views.contains .index, views.contains .details⟩

def toList (v : Visibility) : List View := View.all.filter v.on

end Visibility

inductive Control where
  | text | textarea | email | number | password | date | hidden | checkbox | select
deriving DecidableEq, Repr

namespace Control

def all : List Control :=
  [.text, .textarea, .email, .number, .password, .date, .hidden, .checkbox, .select]

def keyword : Control → String
  | .text => "text"
  | .textarea => "textarea"
  | .email => "email"
  | .number => "number"
  | .password => "password"
  | .date => "date"
  | .hidden => "hidden"
  | .checkbox => "checkbox"
  | .select => "select"

def caption : Control → String
  | .text => "Text"
  | .textarea => "Textarea"
  | .email => "Email"
  | .number => "Number"
  | .password => "Password"
  | .date => "Date"
  | .hidden => "Hidden"
  | .checkbox => "Checkbox"
  | .select => "Select"

def isTextual (c : Control) : Bool := c = .text || c = .textarea || c = .email

end Control

structure Relation where
  name : String
  kind : String := "belongsTo"
  foreignModel : Option String := none
  displayField : String := "name"
  collection : Option String := none
deriving DecidableEq, Repr

namespace Relation

/-- The view variable with the records to choose from. -/
def collectionName (r : Relation) : String :=
  r.collection.getD (Name.pluralVariable r.name)

def itemVariable (r : Relation) : String := Name.singularVariable r.name

end Relation

structure Field where
  name : String
  label : String
  control : Control
  dataType : String
  options : List (String × String)
  visibility : Visibility
  isHeader : Bool
  relation : Option Relation
deriving DecidableEq, Repr

namespace Field

def defaultDataType : String := "string"

def ofName (name : String) (control : Control) : Field :=
  ⟨name, Name.title name, control, defaultDataType, [], {}, false, none⟩

def isOn (f : Field) (v : View) : Bool := f.visibility.on v

end Field

def relationsOn (fields : List Field) (v : View) : List Relation :=
  fields.filterMap fun f => if f.isOn v then f.relation else none

end BladeForm
