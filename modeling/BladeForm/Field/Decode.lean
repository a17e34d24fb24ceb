import BladeForm.Field.Basic
import BladeForm.Json.Decode

/-!
Fields as resource files describe them. All but the name may be left out: the label is then
the name's title, a field is on every view, and it is entered as text or, with a relation,
through a selector.
-/
namespace BladeForm
open Json

def controlKeywords : List (String × Control) := Control.all.map fun c => (c.keyword, c)

structure RelationDraft where
  name : Option String := none
  kind : String := "belongsTo"
  foreignModel : Option String := none
  displayField : String := "name"
  collection : Option String := none

namespace RelationDraft

def shape : RecordShape :=
  ⟨"ForeignRelation", [("name", true), ("type", false), ("foreign-model", false),
    ("field", false), ("collection", false)]⟩

def member (d : RelationDraft) (key : String) (v : Value) : Decode RelationDraft :=
  match key with
  | "name" => do .ok { d with name := some (← asString v) }
  | "type" => do .ok { d with kind := ← asString v }
  | "foreign-model" => do .ok { d with foreignModel := ← asOption asString v }
  | "field" => do .ok { d with displayField := ← asString v }
  | "collection" => do .ok { d with collection := ← asOption asString v }
  | _ => .ok d

def finish (d : RelationDraft) : Decode Relation :=
  match d.name with
  | none => .error (.missingMember "name")
  | some name => .ok ⟨name, d.kind, d.foreignModel, d.displayField, d.collection⟩

end RelationDraft

def Relation.decode (v : Value) : Decode Relation := do
  (← asRecord RelationDraft.shape RelationDraft.member {} v).finish

structure FieldDraft where
  name : Option String := none
  label : Option String := none
  control : Option Control := none
  dataType : String := Field.defaultDataType
  options : List (String × String) := []
  onForm : Option Bool := none
  onIndex : Option Bool := none
  onDetails : Option Bool := none
  isHeader : Bool := false
  relation : Option Relation := none

namespace FieldDraft

def shape : RecordShape :=
  ⟨"RawField", [("name", true), ("label", true), ("html-type", true), ("data-type", false),
    ("options", false), ("is-on-form", true), ("is-on-index", true), ("is-on-show", true),
    ("is-header", false), ("foreign-relation", true)]⟩

def member (d : FieldDraft) (key : String) (v : Value) : Decode FieldDraft :=
  match key with
  | "name" => do .ok { d with name := some (← asString v) }
  | "label" => do .ok { d with label := ← asOption asString v }
  | "html-type" => do .ok { d with control := ← asOption (asKeyword controlKeywords) v }
  | "data-type" => do .ok { d with dataType := ← asString v }
  | "options" => do .ok { d with options := ← asTexts v }
  | "is-on-form" => do .ok { d with onForm := ← asOption asBool v }
  | "is-on-index" => do .ok { d with onIndex := ← asOption asBool v }
  | "is-on-show" => do .ok { d with onDetails := ← asOption asBool v }
  | "is-header" => do .ok { d with isHeader := ← asBool v }
  | "foreign-relation" => do .ok { d with relation := ← asOption Relation.decode v }
  | _ => .ok d

def finish (d : FieldDraft) : Decode Field :=
  match d.name with
  | none => .error (.missingMember "name")
  | some name => .ok
    { name
      label := d.label.getD (Name.title name)
      control := d.control.getD (if d.relation.isSome then .select else .text)
      dataType := d.dataType
      options := d.options
      visibility := ⟨d.onForm.getD true, d.onIndex.getD true, d.onDetails.getD true⟩
      isHeader := d.isHeader
      relation := d.relation }

end FieldDraft

def Field.decode (v : Value) : Decode Field := do
  (← asRecord FieldDraft.shape FieldDraft.member {} v).finish

end BladeForm
