import BladeForm.Config.Basic
import BladeForm.Failure
import BladeForm.Name.Forms
import BladeForm.Name.Rules
import BladeForm.Text.Blank

/-!
Options of a form view, as given and as settled. Blank options count as not given; the model
name gives the resource and the language file their names, the configuration all else.
-/
namespace BladeForm

structure Options where
  modelName : String
  resourceFile : Option String := none
  viewsDirectory : Option String := none
  routesPrefix : Option String := none
  languageFileName : Option String := none
  layoutName : Option String := none
  templateName : Option String := none
  force : Bool := false
deriving DecidableEq, Repr

/-- Without a routes prefix, routes and views hang directly on the plural. -/
structure Settings where
  modelName : String
  resourceFile : String
  viewsDirectory : Option String
  routesPrefix : Option String
  languageFileName : String
  layoutName : String
  templateName : String
  force : Bool
  paths : Paths
  locale : String
deriving DecidableEq, Repr

namespace Options

def nonBlank (s : Option String) : Option String :=
  s.bind fun s => let kept := Text.trim s; if kept = "" then none else some kept

def isRouteEdge (c : Char) : Bool := c = '/' || c = '.'

def trimRoute (s : String) : Option String :=
  let kept := String.ofList (Text.strip isRouteEdge s.toList)
  if kept = "" then none else some kept

def settle (o : Options) (c : Config) : Except Failure Settings :=
  let model := Text.trim o.modelName
  let group := (nonBlank o.languageFileName).getD (Name.pluralSnake model)
  if !Name.isModelName model then .error (.invalidModelName model)
  else if !Name.isGroupName group then .error (.invalidGroupName group)
  else .ok
    { modelName := model
      resourceFile := (nonBlank o.resourceFile).getD (Name.snake model)
      viewsDirectory := nonBlank o.viewsDirectory
      routesPrefix := (nonBlank o.routesPrefix).bind trimRoute
      languageFileName := group
      layoutName := (nonBlank o.layoutName).getD c.defaults.layoutName
      templateName := (nonBlank o.templateName).getD c.defaults.templateName
      force := o.force
      paths := c.paths
      locale := c.defaults.locale }

end Options

def Settings.routeName (s : Settings) (action : String) : String :=
  let route := s!"{Name.pluralSnake s.modelName}.{action}"
  match s.routesPrefix with
  | some p => s!"{p}.{route}"
  | none => route

end BladeForm
