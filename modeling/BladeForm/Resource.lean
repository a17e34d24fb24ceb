import BladeForm.Failure
import BladeForm.Field.Decode
import BladeForm.Name.Rules
import BladeForm.Tree

/-!
Resources: the fields of a model, read from a JSON file. Field names are identifiers and all
different, and every relation's collection is named by an identifier.
-/
namespace BladeForm

structure Resource where
  path : Path
  fields : List Field
  languageFile : Option String
deriving DecidableEq, Repr

namespace Resource

def ofFields (fields : List Field) : Resource := ⟨.empty, fields, none⟩

def fieldsOn (r : Resource) (v : View) : List Field := r.fields.filter (·.isOn v)

def hasFieldsOn (r : Resource) (v : View) : Bool := r.fields.any (·.isOn v)

def fieldArray (path : Path) : Json.Value → Except Failure Json.Value
  | .array vs => .ok (.array vs)
  | .object ms =>
    match ms.lookup "fields" with
    | some v => .ok v
    | none => .error (.invalidResource path .noFields)
  | _ => .error (.invalidResource path .notFields)

def parseFields (path : Path) (text : String) : Except Failure (List Field) := do
  let v ← (Json.parse text).mapError fun e => .malformedResource path (.unreadable e)
  let array ← fieldArray path v
  (Json.asList Field.decode array).mapError fun e => .malformedResource path (.undecodable e)

/-- The first rule that a field breaks, after fields of these names. -/
def fieldFault? (earlier : List String) (f : Field) : Option ResourceFault :=
  if !Name.isIdentifier f.name then some (.badName f.name)
  else if earlier.contains f.name then some (.duplicate f.name)
  else f.relation.bind fun r =>
    if Name.isIdentifier r.collectionName then none
    else some (.badCollection f.name r.collectionName)

def fault? (earlier : List String) : List Field → Option ResourceFault
  | [] => none
  | f :: fs =>
    match fieldFault? earlier f with
    | some fault => some fault
    | none => fault? (earlier ++ [f.name]) fs

def ofText (path : Path) (languageFile : Option String) (text : String) :
    Except Failure Resource := do
  let fields ← parseFields path text
  match fault? [] fields with
  | some fault => .error (.invalidResource path fault)
  | none => .ok ⟨path, fields, languageFile⟩

def ofFile (t : Tree) (path : Path) (languageFile : Option String) : Except Failure Resource :=
  if !t.isFile path then .error (.resourceNotFound path)
  else
    match t.read? path with
    | none => .error (.unreadable .plain path)
    | some text => ofText path languageFile text

def pathOf (name : String) : Path :=
  let given : Path := ⟨name⟩
  if given.extension?.isNone then given.withExtension "json" else given

/-- The file of that name if there is one, else that under `base`. -/
def locate (t : Tree) (name : String) (base : Path) : Path :=
  let path := pathOf name
  if path.isAbsolute || t.has path then path else base.join path.text

def load (t : Tree) (name : String) (base : Path) (languageFile : Option String) :
    Except Failure Resource :=
  ofFile t (locate t name base) languageFile

end Resource

end BladeForm
