import BladeForm.Toml.Scalar
import BladeForm.Toml.Value

/-!
Reading TOML documents. All faults are alike: a document either has a table or it has not.
Each step of a nested value takes one unit of fuel, and two units per character are enough.
-/
namespace BladeForm.Toml

/-- Nested arrays and inline tables, and parts of one key, stay below this. -/
def depthLimit : Nat := 80

def key? (cs : List Char) : Option (List String × List Char) := do
  let (ks, rest) ← dottedKey? (cs.length + 1) cs
  if ks.length < depthLimit then some (ks, rest) else none

def skipComment (cs : List Char) : List Char :=
  match cs with
  | '#' :: rest => rest.dropWhile isPlain
  | cs => cs

def skipLayout : (fuel : Nat) → List Char → List Char
  | 0, cs => cs
  | fuel + 1, cs =>
    match skipLines cs with
    | '#' :: rest => skipLayout fuel (rest.dropWhile isPlain)
    | rest => rest

def layout (cs : List Char) : List Char := skipLayout (cs.length + 1) cs

def endOfLine? (cs : List Char) : Option (List Char) :=
  match skipComment (cs.dropWhile isBlank) with
  | [] => some []
  | rest => newline? rest

def keyword? (word : List Char) (cs : List Char) : Option (List Char) :=
  if cs.take word.length = word then some (cs.drop word.length) else none

/-- Of the forms that begin with a sign or a digit, dates are tried before numbers. -/
def numeric? (cs : List Char) : Option (Value × List Char) :=
  match dateTime? cs with
  | some rest => some (.dateTime, rest)
  | none =>
    match decimalFloat? cs, specialFloat? cs, integer? cs with
    | some rest, _, _ | none, some rest, _ | none, none, some rest => some (.scalar, rest)
    | none, none, none => none

def splitLast? (ks : List String) : Option (List String × String) :=
  ks.getLast?.map fun k => (ks.dropLast, k)

mutual

def value? : (fuel depth : Nat) → List Char → Option (Value × List Char)
  | 0, _, _ => none
  | fuel + 1, depth, cs =>
    match cs with
    | [] => none
    | '"' :: _ | '\'' :: _ => (quoted? cs).map fun r => (.string (String.ofList r.1), r.2)
    | '[' :: rest =>
      match depth with
      | 0 => none
      | depth + 1 => (items? fuel depth rest).map fun r => (.array r.1, r.2)
    | '\x7b' :: rest =>
      match depth with
      | 0 => none
      | depth + 1 => do
        match rest.dropWhile isBlank with
        | '\x7d' :: rest => some (.table .closed [], rest)
        | rest =>
          let (es, rest) ← pairs? fuel depth [] rest
          some (.table .closed es, rest)
    | 't' :: _ => (keyword? ['t', 'r', 'u', 'e'] cs).map fun rest => (.scalar, rest)
    | 'f' :: _ => (keyword? ['f', 'a', 'l', 's', 'e'] cs).map fun rest => (.scalar, rest)
    | cs => numeric? cs

def items? : (fuel depth : Nat) → List Char → Option (List Value × List Char)
  | 0, _, _ => none
  | fuel + 1, depth, cs =>
    match layout cs with
    | ']' :: rest => some ([], rest)
    | cs => do
      let (v, rest) ← value? fuel depth cs
      match layout rest with
      | ',' :: rest => do
        let (vs, rest) ← items? fuel depth rest
        some (v :: vs, rest)
      | ']' :: rest => some ([v], rest)
      | _ => none

/-- The rest of an inline table that is not empty; `es` holds the pairs read so far. -/
def pairs? : (fuel depth : Nat) → Table → List Char → Option (Table × List Char)
  | 0, _, _, _ => none
  | fuel + 1, depth, es, cs => do
    let (ks, rest) ← key? cs
    let (path, k) ← splitLast? ks
    let rest ← expect? '=' rest
    let (v, rest) ← value? fuel depth (rest.dropWhile isBlank)
    let es ← addPair path k v es
    match rest.dropWhile isBlank with
    | ',' :: rest => pairs? fuel depth es rest
    | '\x7d' :: rest => some (es, rest)
    | _ => none

end

structure Document where
  root : Table
  current : List String

def Document.addPair? (d : Document) (ks : List String) (v : Value) : Option Document := do
  let (path, k) ← splitLast? ks
  let root ← descend false (fun _ es => addPair path k v es) .header d.current d.root
  some { d with root := root }

def Document.openWith? (d : Document) (act : String → Origin → Table → Option Table)
    (ks : List String) : Option Document := do
  let (path, k) ← splitLast? ks
  let root ← descend false (act k) .header path d.root
  some ⟨root, ks⟩

def expression? (d : Document) (cs : List Char) : Option (Document × List Char) :=
  match cs with
  | '[' :: '[' :: rest => do
    let (ks, rest) ← key? rest
    let rest ← expect? ']' (← expect? ']' rest)
    some (← d.openWith? openItem ks, ← endOfLine? rest)
  | '[' :: rest => do
    let (ks, rest) ← key? rest
    let rest ← expect? ']' rest
    some (← d.openWith? openTable ks, ← endOfLine? rest)
  | cs => do
    let (ks, rest) ← key? cs
    let rest ← expect? '=' rest
    let (v, rest) ← value? (2 * rest.length + 2) (depthLimit - 1) (rest.dropWhile isBlank)
    some (← d.addPair? ks v, ← endOfLine? rest)

def expressions? : (fuel : Nat) → Document → List Char → Option Document
  | 0, _, _ => none
  | fuel + 1, d, cs =>
    match cs.dropWhile isBlank with
    | [] => some d
    | cs =>
      match if cs.head? = some '#' then endOfLine? cs else newline? cs with
      | some rest => expressions? fuel d rest
      | none => do
        let (d, rest) ← expression? d cs
        expressions? fuel d rest

def dropMark (cs : List Char) : List Char :=
  if cs.head? = some '\ufeff' then cs.drop 1 else cs

def parse? (text : String) : Option Table :=
  let cs := dropMark text.toList
  (expressions? (cs.length + 1) ⟨[], []⟩ cs).map Document.root

end BladeForm.Toml
