/-!
TOML values. Numbers and truth values are told apart from texts only, since no setting asks
for their worth. A table knows how it came to be, which decides what may still be added.
-/
namespace BladeForm.Toml

/-- A table stands under its own header, was implied by the header of a table in it, was
    made by a dotted key, or is written inline and closed. -/
inductive Origin where
  | header | implied | dotted | closed
deriving DecidableEq, Repr

inductive Value where
  | string (s : String)
  | scalar
  | dateTime
  | array (items : List Value)
  | table (origin : Origin) (entries : List (String × Value))
  | tables (items : List (List (String × Value)))

abbrev Table := List (String × Value)

def replace (key : String) (v : Value) : Table → Table
  | [] => []
  | (k, old) :: rest => if k = key then (k, v) :: rest else (k, old) :: replace key v rest

/-- Applies `change` to the entries at the end of a path, making tables on the way. A dotted
    key may not reach into a table with a header, nothing may reach into an inline table, and
    an array of tables is entered at its last one. -/
def descend (dotted : Bool) (change : Origin → Table → Option Table) :
    (here : Origin) → (path : List String) → Table → Option Table
  | here, [], es => change here es
  | _, k :: path, es =>
    match es.lookup k with
    | none => do
      let origin : Origin := if dotted then .dotted else .implied
      some (es ++ [(k, .table origin (← descend dotted change origin path []))])
    | some (.table origin sub) =>
      if origin = .closed || dotted && origin = .header then none
      else do some (replace k (.table origin (← descend dotted change origin path sub)) es)
    | some (.tables ts) =>
      match ts.getLast? with
      | none => none
      | some last => do
        let new ← descend dotted change .header path last
        some (replace k (.tables (ts.dropLast ++ [new])) es)
    | some _ => none

/-- A dotted key ends in a table that dotted keys made, a plain key never does. -/
def addEntry (plain : Bool) (key : String) (v : Value) (here : Origin) (es : Table) :
    Option Table :=
  if (here = .dotted) = plain then none
  else if (es.lookup key).isSome then none
  else some (es ++ [(key, v)])

def addPair (path : List String) (key : String) (v : Value) : Table → Option Table :=
  descend true (addEntry path.isEmpty key v) .header path

def openTable (key : String) (_ : Origin) (es : Table) : Option Table :=
  match es.lookup key with
  | none => some (es ++ [(key, .table .header [])])
  | some (.table .implied sub) => some (replace key (.table .header sub) es)
  | some _ => none

def openItem (key : String) (_ : Origin) (es : Table) : Option Table :=
  match es.lookup key with
  | none => some (es ++ [(key, .tables [[]])])
  | some (.tables ts) => some (replace key (.tables (ts ++ [[]])) es)
  | some _ => none

end BladeForm.Toml
