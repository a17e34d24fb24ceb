import BladeForm.Command.Files
import BladeForm.Command.Run

/-!
The program. It takes the files that the command line names into a tree, runs the command line
on the tree, and carries what changed back. Files that cannot be read count as no text.
-/
namespace BladeForm.Shell

def onDisk (loc : Location) : IO.FS.DirEntry := ⟨"", "/" ++ "/".intercalate loc⟩

def contentOf (bytes : ByteArray) : Content :=
  match String.fromUTF8? bytes with
  | some s => .text s
  | none => .binary bytes.toList

def nodeOnDisk? (loc : Location) : IO (Option Node) := do
  let path := (onDisk loc).path
  if ← path.isDir then return some (.folder [])
  if !(← path.pathExists) then return none
  let bytes ← try IO.FS.readBinFile path catch _ => pure (ByteArray.mk #[0xff])
  return some (.file (contentOf bytes))

def readAlong (t : Tree) (p : Path) : IO Tree := do
  let mut t := t
  let mut loc := t.origin p
  for s in p.segments do
    if Path.isUpward s then loc := loc.dropLast
    else if !Path.isSilent s then
      loc := loc ++ [String.ofList s]
      if (t.node? loc).isNone then
        if let some n ← nodeOnDisk? loc then t := t.put loc n
  return t

def readTree (args : List String) : IO Tree := do
  let current := (← IO.currentDir).components.drop 1
  let t : Tree := ⟨nest current [], current⟩
  match Command.parse? args with
  | some (.run config command) =>
    let t ← (Command.configFiles config).foldlM readAlong t
    match Config.load t ⟨config⟩ with
    | .ok c => (command.files c).foldlM readAlong t
    | .error _ => pure t
  | _ => pure t

/-- The new text stands beside the file before it takes its place. -/
def writeNode (loc : Location) : Option Content → IO Unit
  | some (.text s) => do
    let beside := (onDisk (loc.dropLast ++ [loc.getLastD "" ++ ".new"])).path
    IO.FS.writeFile beside s
    IO.FS.rename beside (onDisk loc).path
  | some (.binary _) => pure ()
  | none => IO.FS.createDirAll (onDisk loc).path

def writeChanges (before after : Tree) : IO Unit := do
  let old := listingAll [] before.entries
  for (loc, content) in listingAll [] after.entries do
    unless old.contains (loc, content) do writeNode loc content

def main (args : List String) : IO UInt32 := do
  let before ← readTree args
  let (after, outcome) := Command.run before args
  writeChanges before after
  IO.print outcome.stdout
  IO.eprint (outcome.notes ++ outcome.ending.report)
  pure outcome.ending.exitCode.toUInt32

end BladeForm.Shell

def main (args : List String) : IO UInt32 := BladeForm.Shell.main args
