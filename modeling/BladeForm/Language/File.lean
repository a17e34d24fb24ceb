import BladeForm.Failure
import BladeForm.Language.Group
import BladeForm.Tree

/-!
Keeping a model's language file complete. A missing file is written whole; an existing one
gets the keys it lacks, and its own labels stay.
-/
namespace BladeForm.Language

/-- The keys that were not there before, in the order in which they were added. -/
structure Update where
  path : Path
  added : List String
deriving DecidableEq, Repr

def pathOf (languages : Path) (locale file : String) : Path :=
  (languages.join locale).join s!"{file}.php"

def MergeError.fault : MergeError → LanguageFault
  | .noReturn => .noReturn
  | .noClosing => .noClosing

def save (t : Tree) (path : Path) (content : String) (added : List String) :
    Tree × Except Failure Update :=
  match t.write path content with
  | (t, true) => (t, .ok ⟨path, added⟩)
  | (t, false) => (t, .error (.notWritten path))

def missing (content : String) (es : List Entry) : List Entry :=
  es.filter fun e => !(definedKeys content).contains e.1

def update (t : Tree) (path : Path) (es : List Entry) : Tree × Except Failure Update :=
  if !t.has path then save t path (render es) (es.map (·.1))
  else
    match t.read? path with
    | none => (t, .error (.unreadable .languageFile path))
    | some content =>
      let new := missing content es
      if new.isEmpty then (t, .ok ⟨path, []⟩)
      else
        match append content (entryLines new) with
        | .error e => (t, .error (.languageFile path e.fault))
        | .ok merged => save t path merged (new.map (·.1))

end BladeForm.Language
