import BladeForm.Path

/-!
The files as a value: the folders below the root, and the current directory, where paths that
do not begin at the root start. A path is followed segment by segment, as it is written:
`a/../b` needs `a`, a slash after a file's name leads nowhere, and above the root is the root.
-/
namespace BladeForm

/-- Bytes that are no text are kept apart: they can be overwritten, but not read. -/
inductive Content where
  | text (s : String)
  | binary (bytes : List UInt8)
deriving DecidableEq, Repr

inductive Node where
  | file (content : Content)
  | folder (entries : List (String × Node))

abbrev Entries := List (String × Node)

abbrev Location := List String

/-- The entries of the root, and where the current directory is. If no folder is there, only
    paths from the root lead anywhere. -/
structure Tree where
  entries : Entries
  current : Location

namespace Node

def isFolder : Node → Bool
  | .file _ => false
  | .folder _ => true

def isFile (n : Node) : Bool := !n.isFolder

def child? (name : String) : Node → Option Node
  | .file _ => none
  | .folder entries => entries.lookup name

end Node

def nest (loc : Location) (entries : Entries) : Entries :=
  loc.foldr (fun name inner => [(name, .folder inner)]) entries

def setEntry (name : String) (n : Node) : Entries → Entries
  | [] => [(name, n)]
  | (k, old) :: rest =>
    if k = name then (k, n) :: rest else (k, old) :: setEntry name n rest

def Node.descend? (n : Node) : Location → Option Node
  | [] => some n
  | name :: rest => (n.child? name).bind fun c => c.descend? rest

def Node.put (n : Node) (new : Node) : Location → Node
  | [] => new
  | name :: rest =>
    match n with
    | .file c => .file c
    | .folder entries =>
      match entries.lookup name with
      | some old => .folder (setEntry name (old.put new rest) entries)
      | none => if rest.isEmpty then .folder (setEntry name new entries) else .folder entries

mutual

def Node.listing (base : Location) : Node → List (Location × Option Content)
  | .file c => [(base, some c)]
  | .folder entries => (base, none) :: listingAll base entries

def listingAll (base : Location) : List (String × Node) → List (Location × Option Content)
  | [] => []
  | (name, n) :: rest => n.listing (base ++ [name]) ++ listingAll base rest

end

namespace Tree

def root (t : Tree) : Node := .folder t.entries

def node? (t : Tree) (loc : Location) : Option Node := t.root.descend? loc

def isFolderAt (t : Tree) (loc : Location) : Bool := (t.node? loc).any Node.isFolder

def put (t : Tree) (loc : Location) (n : Node) : Tree :=
  match t.root.put n loc with
  | .folder entries => { t with entries }
  | .file _ => t

def listing (t : Tree) : List (Location × Option Content) :=
  match t.node? t.current with
  | some (.folder entries) => listingAll [] entries
  | _ => []

def nameLimit : Nat := 255

def isLegalName (s : List Char) : Bool := (String.ofList s).utf8ByteSize ≤ nameLimit

def follow (t : Tree) (l : Location) (s : List Char) : Option Location :=
  if !t.isFolderAt l then none
  else if Path.isSilent s then some l
  else if Path.isUpward s then some l.dropLast
  else if !isLegalName s then none
  else
    let below := l ++ [String.ofList s]
    if (t.node? below).isSome then some below else none

def origin (t : Tree) (p : Path) : Location := if p.isAbsolute then [] else t.current

def isSpeakable (p : Path) : Bool := p.text ≠ "" && !p.text.toList.contains '\x00'

def place? (t : Tree) (p : Path) : Option Location :=
  if isSpeakable p then p.segments.foldlM t.follow (t.origin p) else none

def nodeAt? (t : Tree) (p : Path) : Option Node := (t.place? p).bind t.node?

def has (t : Tree) (p : Path) : Bool := (t.nodeAt? p).isSome

def isFile (t : Tree) (p : Path) : Bool := (t.nodeAt? p).any Node.isFile

def read? (t : Tree) (p : Path) : Option String :=
  match t.nodeAt? p with
  | some (.file (.text s)) => some s
  | _ => none

/-- Follows the segments and makes every folder that is missing. What was made before a
    segment that cannot be followed stays; then there is no place. -/
def makeFolders (t : Tree) (l : Location) : List (List Char) → Tree × Option Location
  | [] => (t, some l)
  | s :: rest =>
    match t.follow l s with
    | some next => makeFolders t next rest
    | none =>
      let new := l ++ [String.ofList s]
      if Path.isSilent s || Path.isUpward s || !isLegalName s || (t.node? new).isSome
          || !t.isFolderAt l then (t, none)
      else makeFolders (t.put new (.folder [])) new rest

/-- Where a file of this path would stand: its folder exists, and it is no folder itself. -/
def target? (t : Tree) (p : Path) : Option Location :=
  match p.segments.reverse with
  | [] => none
  | name :: before =>
    if !isSpeakable p || Path.isSilent name || Path.isUpward name || !isLegalName name then none
    else
      match before.reverse.foldlM t.follow (t.origin p) with
      | some l =>
        let file := l ++ [String.ofList name]
        if !t.isFolderAt l || t.isFolderAt file then none else some file
      | none => none

def folderOf (p : Path) : Path :=
  match p.parent? with
  | some q => if q.text = "" then ⟨"."⟩ else q
  | none => ⟨"."⟩

/-- Makes the folders of a path, then writes the file in one step. On failure the folders
    that could be made stay, and no file is added or changed. -/
def write (t : Tree) (p : Path) (s : String) : Tree × Bool :=
  let folder := folderOf p
  if !isSpeakable folder then (t, false)
  else
    match t.makeFolders (t.origin folder) folder.segments with
    | (t, none) => (t, false)
    | (t, some _) =>
      match t.target? p with
      | none => (t, false)
      | some l => (t.put l (.file (.text s)), true)

end Tree

end BladeForm
