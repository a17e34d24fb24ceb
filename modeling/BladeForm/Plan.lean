import BladeForm.Config.Options
import BladeForm.Form.Markup
import BladeForm.Form.Variables
import BladeForm.Language.File
import BladeForm.Stub.Load
import BladeForm.View.Destination

/-!
Generating a form view. A plan is made from the tree without changing it: options are
settled, the resource and the stub are read, the destination is judged, and the view is
rendered. Executing it writes the view, then completes the language file.
-/
namespace BladeForm

structure Plan where
  settings : Settings
  resource : Resource
  destination : Path
  mode : WriteMode
  header : Header
  arguments : String
  stub : Stub
  text : String
  unknownTokens : List String
deriving DecidableEq, Repr

structure Generated where
  path : Path
  mode : WriteMode
  language : Language.Update
deriving DecidableEq, Repr

namespace Settings

def commonPlaceholders (s : Settings) : Placeholders :=
  let model := s.modelName
  .ofList ([
    ("layout_name", s.layoutName),
    ("model_name_title", Name.title model),
    ("model_name_plural_title", Name.pluralTitle model),
    ("model_name_class", Name.className model),
    ("model_name_snake", Name.snake model),
    ("model_name_singular_variable", Name.singularVariable model),
    ("model_name_plural_variable", Name.pluralVariable model),
    ("index_route_name", s.routeName "index"),
    ("store_route_name", s.routeName "store"),
    ("update_route_name", s.routeName "update"),
    ("translation_file", s.languageFileName),
    ("view_name", Destination.viewName s.viewsDirectory s.routesPrefix model)].map
      fun e => (Placeholders.token e.1, e.2))

/-- The form adds its markup, moved to where the stub puts it, its variables and its header. -/
def formPlaceholders (s : Settings) (markup arguments accessor : String) : Placeholders :=
  s.commonPlaceholders.extend
    (((Placeholders.empty.named "model_name" s.modelName).named
      "form_fields_html" (Form.indented 16 markup)).named
      "view_variables" arguments |>.named "model_header" accessor)

def languagePath (s : Settings) : Path :=
  Language.pathOf s.paths.languages s.locale s.languageFileName

def destination (s : Settings) : Path :=
  Destination.path s.paths.views s.viewsDirectory s.routesPrefix s.modelName

end Settings

namespace Plan

def make (t : Tree) (o : Options) (c : Config) : Except Failure Plan := do
  let s ← o.settle c
  let resource ←
    Resource.load t s.resourceFile s.paths.resourceFiles (some s.languageFileName)
  let mode ← Destination.check t s.destination s.force resource
  let stub ← Stub.load t s.paths.stubs s.templateName Stub.formStub
  let form : Form :=
    ⟨resource.fields, s.modelName, c.styleFor s.templateName, some s.languageFileName⟩
  let arguments := Variables.ofFields resource.fields (Name.singularVariable s.modelName)
  let placeholders := s.formPlaceholders form.markup arguments form.header.accessor
  .ok
    { settings := s
      resource
      destination := s.destination
      mode
      header := form.header
      arguments
      stub
      text := stub.render placeholders
      unknownTokens := placeholders.unknownTokens stub.text }

def languageEntries (p : Plan) : List Language.Entry :=
  Language.entriesFor p.resource.fields p.settings.modelName

def execute (t : Tree) (p : Plan) : Tree × Except Failure Generated :=
  match t.write p.destination p.text with
  | (t, false) => (t, .error (.notWritten p.destination))
  | (t, true) =>
    match Language.update t p.settings.languagePath p.languageEntries with
    | (t, .error e) => (t, .error e)
    | (t, .ok u) => (t, .ok ⟨p.destination, p.mode, u⟩)

def create (t : Tree) (o : Options) (c : Config) : Tree × Except Failure Generated :=
  match make t o c with
  | .error e => (t, .error e)
  | .ok p => p.execute t

end Plan

end BladeForm
