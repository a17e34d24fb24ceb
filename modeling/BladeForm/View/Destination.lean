import BladeForm.Resource

/-!
Where a form view goes and when it may be written. Directory options may use slashes, dots or
backslashes between their segments; the plural of the model comes last. An existing view is
replaced only on demand, and a resource must show something on the form.
-/
namespace BladeForm.Destination

def isSegmentEnd (c : Char) : Bool := c = '/' || c = '.' || c = '\\'

def optionSegments (s : String) : List String :=
  ((Text.splitAtEach isSegmentEnd s.toList).filter (!·.isEmpty)).map String.ofList

def segments (viewsDirectory routesPrefix : Option String) (model : String) : List String :=
  ((viewsDirectory.map optionSegments).getD [] ++ (routesPrefix.map optionSegments).getD [])
    ++ [Name.pluralSnake model]

def fileName : String := "form.blade.php"

def path (views : Path) (viewsDirectory routesPrefix : Option String) (model : String) : Path :=
  ((segments viewsDirectory routesPrefix model).foldl Path.join views).join fileName

/-- The dotted name that finds the view, `admin.posts.form`. -/
def viewName (viewsDirectory routesPrefix : Option String) (model : String) : String :=
  ".".intercalate (segments viewsDirectory routesPrefix model ++ ["form"])

end Destination

inductive WriteMode where
  | create
  | overwrite
deriving DecidableEq, Repr

def WriteMode.name : WriteMode → String
  | .create => "create"
  | .overwrite => "overwrite"

namespace Destination

def check (t : Tree) (path : Path) (force : Bool) (r : Resource) : Except Failure WriteMode :=
  if t.has path && !force then .error (.viewExists path)
  else if !r.hasFieldsOn .form then .error (.emptyResource r.path)
  else .ok (if t.has path then .overwrite else .create)

end BladeForm.Destination
