import BladeForm.Check
import BladeForm.Command.Help
import BladeForm.Config.Load
import BladeForm.Diff.Longest
import BladeForm.Plan

/-!
Running a command line on a tree: what it prints, how it ends, and the tree it leaves. A dry
run shows the plan and leaves the tree as it is.
-/
namespace BladeForm

inductive Ending where
  | done
  | skipped
  | failed (e : Failure)
  | misused

structure Outcome where
  stdout : String
  notes : String
  ending : Ending

def Ending.exitCode : Ending → Nat
  | .done => 0
  | .failed _ => 1
  | .skipped | .misused => 2

def Ending.report : Ending → String
  | .done | .skipped => ""
  | .failed e =>
    s!"Error: {e.message}\n" ++ (e.help.map fun h => s!"  help: {h}\n").getD ""
  | .misused => s!"error: the command line is not understood; see {Command.programName} --help\n"

namespace Command

def orNone (s : String) : String := if s = "" then "(none)" else s

def listOrNone (items : List String) : String :=
  if items.isEmpty then "(none)" else ", ".intercalate items

def indentedLines (s : String) : List String :=
  (Text.lines s.toList).map fun l => "  " ++ String.ofList l

def rule : String := "  ──────"

def tokenNotes (p : Plan) : String :=
  ended (p.unknownTokens.map fun name =>
    s!"warning: unknown placeholder {Placeholders.token name} left in stub "
      ++ s!"'{p.stub.name}' ({p.stub.template})")

def skipNotes (e : Failure) : String :=
  ended [s!"skipped: {e.message}", "  use --force to overwrite it"]

def actionText : WriteMode → String
  | .create => "create   "
  | .overwrite => "overwrite"

def planLines (p : Plan) : List String := [
  "",
  s!"==> Dry run — form view for {p.settings.modelName}:",
  s!"  {actionText p.mode} {p.destination.text}",
  s!"  variables {orNone p.arguments}"]

def previewLines (t : Tree) (p : Plan) : Except Failure (List String) :=
  match p.mode with
  | .create => .ok (indentedLines p.text)
  | .overwrite =>
    match t.read? p.destination with
    | none => .error (.unreadable .plain p.destination)
    | some existing =>
      let diff := Diff.unified existing p.text p.destination
      .ok ((if diff = "" then ["  (no changes)"] else []) ++ indentedLines diff)

def dryRunEnd : List String := ["", "ℹ Dry run — no files written."]

def dryRun (t : Tree) (p : Plan) (verbose : Bool) : Outcome :=
  if verbose then
    match previewLines t p with
    | .error e => ⟨ended (planLines p ++ [rule]), tokenNotes p, .failed e⟩
    | .ok ls =>
      ⟨ended (planLines p ++ [rule] ++ ls ++ [rule] ++ dryRunEnd), tokenNotes p, .done⟩
  else ⟨ended (planLines p ++ dryRunEnd), tokenNotes p, .done⟩

def generatedLines (g : Generated) : List String :=
  ["", "✓ Form view was crafted successfully.", s!"  {g.path.text}"]
    ++ (if g.mode = .overwrite then ["  (replaced the existing view)"] else [])
    ++ [if g.language.added.isEmpty then
          s!"  language file {g.language.path.text} is up to date"
        else
          s!"  {g.language.added.length} translation(s) added to {g.language.path.text}"]

def runFormView (t : Tree) (c : Config) (o : Options) (dry verbose : Bool) : Tree × Outcome :=
  match Plan.make t o c with
  | .error e =>
    if e.isSkip then (t, ⟨"", skipNotes e, .skipped⟩) else (t, ⟨"", "", .failed e⟩)
  | .ok p =>
    if dry then (t, dryRun t p verbose)
    else
      match p.execute t with
      | (t, .error e) => (t, ⟨"", tokenNotes p, .failed e⟩)
      | (t, .ok g) => (t, ⟨ended (generatedLines g), tokenNotes p, .done⟩)

def reportLines (r : Report) : List String :=
  [s!"Checking resource at {r.path.text}",
    s!"  Fields: {r.fieldCount}",
    s!"  On form: {listOrNone r.formFields}",
    s!"  View collections: {listOrNone r.formCollections}",
    s!"  Header: {listOrNone r.headerFields}"]
    ++ (if r.warnings.isEmpty then []
        else ["", "Warnings:"] ++ r.warnings.map fun w => s!"  ⚠ {w.message}")
    ++ ["", "✓ Resource is valid!"]

def runCheck (t : Tree) (c : Config) (resourceFile : String) : Outcome :=
  match Report.make t resourceFile c with
  | .error e => ⟨"", "", .failed e⟩
  | .ok r => ⟨ended (reportLines r), "", .done⟩

def runRequest (t : Tree) : Request → Tree × Outcome
  | .version => (t, ⟨versionText, "", .done⟩)
  | .help topic => (t, ⟨topic.text, "", .done⟩)
  | .run config command =>
    match Config.load t ⟨config⟩ with
    | .error e => (t, ⟨"", "", .failed e⟩)
    | .ok c =>
      match command with
      | .formView o dry verbose => runFormView t c o dry verbose
      | .check resourceFile => (t, runCheck t c resourceFile)

def run (t : Tree) (args : List String) : Tree × Outcome :=
  match parse? args with
  | none => (t, ⟨"", "", .misused⟩)
  | some r => runRequest t r

end Command

end BladeForm
