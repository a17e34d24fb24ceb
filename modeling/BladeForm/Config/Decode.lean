import BladeForm.Config.Basic

/-!
Settings from a TOML table. Unknown keys are ignored. A group of settings is a table, or an
array of its members in order, which may stop early and whose further items are ignored; a
date counts as a table without settings.
-/
namespace BladeForm.Config
open Toml

def asString : Value → Option String
  | .string s => some s
  | _ => none

def asGroup (keys : List String) (member : σ → String → Value → Option σ) (default : σ) :
    Value → Option σ
  | .table _ es => es.foldlM (fun d e => member d e.1 e.2) default
  | .dateTime => some default
  | .array vs => ofItems vs
  | .tables ts => ofItems (ts.map (.table .header))
  | _ => none
where
  ofItems (vs : List Value) : Option σ :=
    (keys.zip vs).foldlM (fun d e => member d e.1 e.2) default

def pathsMember (d : Paths) (key : String) (v : Value) : Option Paths :=
  match key with
  | "resource_files" => (asString v).map fun s => { d with resourceFiles := ⟨s⟩ }
  | "views" => (asString v).map fun s => { d with views := ⟨s⟩ }
  | "stubs" => (asString v).map fun s => { d with stubs := ⟨s⟩ }
  | "languages" => (asString v).map fun s => { d with languages := ⟨s⟩ }
  | _ => some d

def asPaths : Value → Option Paths :=
  asGroup ["resource_files", "views", "stubs", "languages"] pathsMember {}

def defaultsMember (d : Defaults) (key : String) (v : Value) : Option Defaults :=
  match key with
  | "layout_name" => (asString v).map fun s => { d with layoutName := s }
  | "template_name" => (asString v).map fun s => { d with templateName := s }
  | "locale" => (asString v).map fun s => { d with locale := s }
  | _ => some d

def asDefaults : Value → Option Defaults :=
  asGroup ["layout_name", "template_name", "locale"] defaultsMember {}

def styleMember (d : Style) (key : String) (v : Value) : Option Style :=
  match key with
  | "group_class" => (asString v).map fun s => { d with groupClass := s }
  | "label_class" => (asString v).map fun s => { d with labelClass := s }
  | "input_wrapper_class" => (asString v).map fun s => { d with inputWrapperClass := s }
  | "input_class" => (asString v).map fun s => { d with inputClass := s }
  | _ => some d

def asStyle : Value → Option Style :=
  asGroup ["group_class", "label_class", "input_wrapper_class", "input_class"] styleMember {}

def asTemplates : Value → Option (List (String × Style))
  | .table _ es => es.mapM fun e => (asStyle e.2).map fun s => (e.1, s)
  | _ => none

def configMember (d : Config) (key : String) (v : Value) : Option Config :=
  match key with
  | "paths" => (asPaths v).map fun p => { d with paths := p }
  | "defaults" => (asDefaults v).map fun p => { d with defaults := p }
  | "templates" => (asTemplates v).map fun p => { d with templates := p }
  | _ => some d

def ofTable (es : Table) : Option Config :=
  es.foldlM (fun d e => configMember d e.1 e.2) {}

end BladeForm.Config
