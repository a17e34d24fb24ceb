import BladeForm.Failure
import BladeForm.Stub.Bundled
import BladeForm.Stub.Placeholders
import BladeForm.Tree

/-!
Stubs by template family. A family's stubs are files in a directory of its own; the default
family can do without the form stub, which is bundled.
-/
namespace BladeForm

structure Stub where
  name : String
  template : String
  text : String
deriving DecidableEq, Repr

namespace Stub

def defaultTemplate : String := "default"

def formStub : String := "form.blade"

def ofText (name text : String) : Stub := ⟨name, defaultTemplate, text⟩

def render (s : Stub) (ps : Placeholders) : String := ps.substitute s.text

def pathOf (stubs : Path) (template name : String) : Path :=
  (stubs.join template).join s!"{name}.stub"

def load (t : Tree) (stubs : Path) (template name : String) : Except Failure Stub :=
  let path := pathOf stubs template name
  if t.isFile path then
    match t.read? path with
    | some text => .ok ⟨name, template, text⟩
    | none => .error (.unreadable .stub path)
  else if template = defaultTemplate && name = formStub then .ok (ofText name bundledForm)
  else .error (.stubNotFound name template path)

end Stub

end BladeForm
