import BladeForm.Command.Run
import BladeForm.Proofs.Command.Line
import BladeForm.Proofs.Path
import BladeForm.Proofs.Plan.Parts
import BladeForm.Proofs.Plan.Session

/-!
What a dry run tells about the real run. Both come from one plan, and without a plan they end in the
same way. The dry run stops there: the tree stays, and only writing the view and completing the
language file can still fail. What it prints is where the view goes, whether it replaces another,
and on demand the lines of the new view.
-/
namespace BladeForm

namespace Text

end Text

namespace Command

/-- Failures of writing: that of the view, and those of reading, merging and writing the language
    file. -/
def IsWriting (s : Settings) (e : Failure) : Prop :=
  e = .notWritten s.destination ∨ e = .notWritten s.languagePath ∨
    (∃ fault, e = .languageFile s.languagePath fault) ∨
    e = .unreadable .languageFile s.languagePath

def Announces (out : Outcome) (mode : WriteMode) (view : Path) (body : List String) : Prop :=
  out.ending.exitCode = 0 ∧ ∃ heading arguments : String, out.stdout
    = ended (["", heading, s!"  {actionText mode} {view.text}", arguments] ++ body ++ dryRunEnd)

/-- What a dry run that ends well says about a real run, quietly and with the new view. -/
structure Announced (t : Tree) (s : Settings) (mode : WriteMode) (real : Tree × Outcome)
    (quiet loud : Outcome) : Prop where
  plan : Announces quiet mode s.destination []
  replaces : mode = .overwrite ↔ t.has s.destination = true
  done : real.2.ending.exitCode = 0 → (mode = .overwrite ↔ t.isFile s.destination = true) ∧
    (∃ text, real.1.read? s.destination = some text) ∧
    ∃ g, real.2.stdout = ended (generatedLines g) ∧ g.path = s.destination ∧ g.mode = mode
  late : real.2.ending.exitCode ≠ 0 → ∃ e, real.2.ending = .failed e ∧ IsWriting s e
  body : t.has s.destination = false → real.2.ending ≠ .failed (.notWritten s.destination) →
    ∃ text, real.1.read? s.destination = some text ∧
      (∀ line ∈ Text.lines text.toList, '\n' ∉ line) ∧
      Announces loud .create s.destination
        (rule :: (Text.lines text.toList).map (fun line => "  " ++ String.ofList line) ++ [rule])

/-- A dry run changes nothing, is refused as the real run is and ends well where that does; and then
    it tells what the real run does. -/
structure Foretells (t : Tree) (config : String) (o : Options) (real quiet loud : Tree × Outcome) :
    Prop where
  untouched : quiet.1 = t ∧ loud.1 = t
  refused : quiet.2.ending.exitCode = 2 ↔ real.2.ending.exitCode = 2
  success : real.2.ending.exitCode = 0 → quiet.2.ending.exitCode = 0
  told : quiet.2.ending.exitCode = 0 → ∃ c s mode, Config.load t ⟨config⟩ = .ok c ∧
    o.settle c = .ok s ∧ Announced t s mode real quiet.2 loud.2

end Command

end BladeForm
