import BladeForm.Proofs.Language.Layout
import BladeForm.Proofs.Tree.Files

/-!
What an update of a language file does to the tree. It changes no other file, and the file it is
about is left as it was or gets its whole text: never a part of it.
-/
namespace BladeForm.Language

/-- The text that a file of this text becomes: the lines it lacks are added, if any. -/
def Completed (old : String) (es : List Entry) (new : String) : Prop :=
  missing old es = [] ∧ new = old ∨
    missing old es ≠ [] ∧ append old (entryLines (missing old es)) = .ok new

def WholeText (t : Tree) (path : Path) (es : List Entry) (new : String) : Prop :=
  t.has path = false ∧ new = render es ∨ ∃ old, t.read? path = some old ∧ Completed old es new

theorem completed_keys {old new : String} {es : List Entry} (valid : IdentifierKeys es)
    (completed : Completed old es new) : ∀ e ∈ es, e.1 ∈ definedKeys new := by
  rcases completed with ⟨complete, rfl⟩ | ⟨_, merged⟩
  · exact missing_nil_iff.1 complete
  · intro e member
    refine merged_keys merged (valid e member) ?_
    by_cases known : e.1 ∈ definedKeys old
    · exact Or.inl known
    · exact Or.inr (List.mem_map_of_mem (mem_missing.2 ⟨member, known⟩))

theorem rendered_keys {es : List Entry} (valid : IdentifierKeys es) :
    ∀ e ∈ es, e.1 ∈ definedKeys (render es) := by
  intro e member
  rw [render_keys fun e member => identifier_noArrow (valid e member)]
  exact List.mem_map_of_mem member

inductive Effect (t : Tree) (path : Path) (es : List Entry) :
    Tree → Except Failure Update → Prop where
  | unchanged {old : String} (read : t.read? path = some old) (complete : missing old es = []) :
      Effect t path es t (.ok ⟨path, []⟩)
  | written {t' : Tree} {new : String} {added : List String} (whole : WholeText t path es new)
      (written : t.write path new = (t', true)) : Effect t path es t' (.ok ⟨path, added⟩)
  | unwritten {t' : Tree} {new : String} (failed : t.write path new = (t', false)) :
      Effect t path es t' (.error (.notWritten path))
  | unread : Effect t path es t (.error (.unreadable .languageFile path))
  | unmerged (fault : LanguageFault) : Effect t path es t (.error (.languageFile path fault))

theorem save_effect {t t' : Tree} {path : Path} {es : List Entry} {new : String}
    {added : List String} {r : Except Failure Update} (whole : WholeText t path es new)
    (saved : save t path new added = (t', r)) : Effect t path es t' r := by
  unfold save at saved
  split at saved
  · next written =>
    cases saved
    exact .written whole written
  · next failed =>
    cases saved
    exact .unwritten failed

theorem update_effect {t t' : Tree} {path : Path} {es : List Entry} {r : Except Failure Update}
    (updated : update t path es = (t', r)) : Effect t path es t' r := by
  unfold update at updated
  split at updated
  · next absent => exact save_effect (Or.inl ⟨by simpa using absent, rfl⟩) updated
  · split at updated
    · cases updated
      exact .unread
    · next old read =>
      dsimp only at updated
      split at updated
      · next complete =>
        cases updated
        exact .unchanged read (by simpa using complete)
      · next incomplete =>
        split at updated
        · next e refused =>
          cases updated
          exact .unmerged e.fault
        · next new merged =>
          exact save_effect (Or.inr ⟨old, read, Or.inr ⟨by simpa using incomplete, merged⟩⟩) updated

variable {t t' : Tree} {path : Path} {es : List Entry} {r : Except Failure Update}

theorem effect_grows (effect : Effect t path es t' r) : Tree.Grows t t' := by
  cases effect with
  | unchanged => exact Tree.grows_refl t
  | written _ written => exact (Tree.write_puts written).1
  | unwritten failed => exact (Tree.write_failed failed).1
  | unread => exact Tree.grows_refl t
  | unmerged => exact Tree.grows_refl t

theorem effect_others (effect : Effect t path es t' r) {loc : Location}
    (other : t'.place? path ≠ some loc) : Tree.KeptAt t t' loc := by
  cases effect with
  | unchanged => exact Tree.kept_refl t loc
  | written _ written =>
    obtain ⟨_, place, leads, _, _, kept⟩ := Tree.write_puts written
    exact kept loc fun same => other (by rw [same, leads])
  | unwritten failed => exact (Tree.write_failed failed).2 loc
  | unread => exact Tree.kept_refl t loc
  | unmerged => exact Tree.kept_refl t loc

theorem effect_file (effect : Effect t path es t' r) {loc : Location}
    (place : t'.place? path = some loc) : Tree.KeptAt t t' loc ∨
      ∃ new, WholeText t path es new ∧ t'.entryAt? loc = some (some (.text new)) := by
  cases effect with
  | unchanged => exact Or.inl (Tree.kept_refl t loc)
  | written whole written =>
    obtain ⟨_, _, leads, file, _⟩ := Tree.write_puts written
    rw [place] at leads
    cases leads
    exact Or.inr ⟨_, whole, file⟩
  | unwritten failed => exact Or.inl ((Tree.write_failed failed).2 loc)
  | unread => exact Or.inl (Tree.kept_refl t loc)
  | unmerged => exact Or.inl (Tree.kept_refl t loc)

theorem effect_path {u : Update} (effect : Effect t path es t' (.ok u)) : u.path = path := by
  cases effect <;> rfl

theorem effect_done {u : Update} (effect : Effect t path es t' (.ok u)) :
    ∃ new, WholeText t path es new ∧ t'.read? path = some new := by
  cases effect with
  | unchanged read complete => exact ⟨_, Or.inr ⟨_, read, Or.inl ⟨complete, rfl⟩⟩, read⟩
  | written whole written => exact ⟨_, whole, Tree.write_read written⟩

end BladeForm.Language
