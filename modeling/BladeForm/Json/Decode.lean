import BladeForm.Decimal
import BladeForm.Json.Value
import BladeForm.Text.Quoted

/-!
Turning JSON values into records. A record is an object of its members, unknown ones ignored,
or an array of them in declared order, where trailing members may be absent if they need not be
given. The first fault wins, and members are met in the order in which the value lists them.
-/
namespace BladeForm.Json

inductive Expected where
  | string | boolean | map | sequence | nothing | stringOrMap
  | record (name : String) (size : Nat)
deriving DecidableEq, Repr

inductive DecodeError where
  | missingMember (name : String)
  | wrongType (found : Value) (expected : Expected)
  | unknownKeyword (found : String) (known : List String)
  | notOneKey
  | tooShort (length : Nat) (expected : Expected)
  | tooLong (length : Nat)

def Expected.text : Expected → String
  | .string => "a string"
  | .boolean => "a boolean"
  | .map => "a map"
  | .sequence => "a sequence"
  | .nothing => "unit"
  | .stringOrMap => "string or map"
  | .record name _ => s!"struct {name}"

def Value.description : Value → String
  | .null => "null"
  | .bool b => s!"boolean `{b}`"
  | .integer n => s!"integer `{n}`"
  | .real x => s!"floating point `{Decimal.text x}`"
  | .string s => s!"string {Text.quoted s}"
  | .array _ => "sequence"
  | .object _ => "map"

def tick (s : String) : String := "`" ++ s ++ "`"

def DecodeError.message : DecodeError → String
  | .missingMember name => s!"missing field {tick name}"
  | .wrongType found expected => s!"invalid type: {found.description}, expected {expected.text}"
  | .unknownKeyword found known =>
    s!"unknown variant {tick found}, expected one of " ++ ", ".intercalate (known.map tick)
  | .notOneKey => "invalid value: map, expected map with a single key"
  | .tooShort length (.record name size) =>
    s!"invalid length {length}, expected struct {name} with {size} elements"
  | .tooShort length expected => s!"invalid length {length}, expected {expected.text}"
  | .tooLong length => s!"invalid length {length}, expected fewer elements in array"

abbrev Decode (α : Type) := Except DecodeError α

def asString : Value → Decode String
  | .string s => .ok s
  | v => .error (.wrongType v .string)

def asBool : Value → Decode Bool
  | .bool b => .ok b
  | v => .error (.wrongType v .boolean)

def asOption (decode : Value → Decode α) : Value → Decode (Option α)
  | .null => .ok none
  | v => (decode v).map some

def asList (decode : Value → Decode α) : Value → Decode (List α)
  | .array vs => vs.mapM decode
  | v => .error (.wrongType v .sequence)

def asTexts : Value → Decode (List (String × String))
  | .object ms => ms.mapM fun m => (asString m.2).map fun s => (m.1, s)
  | v => .error (.wrongType v .map)

/-- A keyword stands alone, or is the only key of an object that maps it to null. -/
def asKeyword (known : List (String × α)) : Value → Decode α
  | .string s => find s
  | .object [(key, v)] => do
    let a ← find key
    match v with
    | .null => .ok a
    | v => .error (.wrongType v .nothing)
  | .object _ => .error .notOneKey
  | v => .error (.wrongType v .stringOrMap)
where
  find (s : String) : Decode α :=
    match known.lookup s with
    | some a => .ok a
    | none => .error (.unknownKeyword s (known.map (·.1)))

/-- A record's members in declared order; those marked may not be left out of an array. -/
structure RecordShape where
  name : String
  members : List (String × Bool)
deriving DecidableEq, Repr

def RecordShape.expected (r : RecordShape) : Expected := .record r.name r.members.length

def RecordShape.firstMissing? (r : RecordShape) (length : Nat) : Option Nat :=
  (r.members.drop length).findIdx? (·.2) |>.map (length + ·)

/-- Feeds the members to `member`, which sees a draft, a key and that key's value. -/
def asRecord (r : RecordShape) (member : σ → String → Value → Decode σ) (empty : σ) :
    Value → Decode σ
  | .object ms => ms.foldlM (fun d m => member d m.1 m.2) empty
  | .array vs => do
    let d ← (r.members.zip vs).foldlM (fun d m => member d m.1.1 m.2) empty
    match r.firstMissing? vs.length with
    | some i => .error (.tooShort i r.expected)
    | none => if vs.length > r.members.length then .error (.tooLong vs.length) else .ok d
  | v => .error (.wrongType v r.expected)

end BladeForm.Json
