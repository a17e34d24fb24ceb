import Mathlib.Data.List.Induction
import BladeForm.Proofs.Plan.Creation

/-!
Plans that are executed later. A plan judges its destination in the tree that it is made from
and is executed in another one, and the execution judges nothing. So it replaces whatever file is
there by then, forced or not, and reports the mode of the planning. Both are right as long as the
destination is neither filled nor emptied in between.
-/
namespace BladeForm.Plan

/-- What may happen to a tree and to the plans that wait. An edit is any change to files that
    is not made by a plan. -/
inductive Step where
  | edit (change : Tree → Tree)
  | plan (name : String) (options : Options) (config : Config)
  | execute (name : String)
  | create (options : Options) (config : Config)

structure Session where
  tree : Tree
  saved : String → Option Plan

namespace Session

/-- A plan that cannot be made is not saved, and one that is executed is used up. -/
def step (s : Session) : Step → Session
  | .edit change => { s with tree := change s.tree }
  | .plan name o c =>
    match make s.tree o c with
    | .error _ => s
    | .ok p => { s with saved := Function.update s.saved name (some p) }
  | .execute name =>
    match s.saved name with
    | none => s
    | some p => ⟨(p.execute s.tree).1, Function.update s.saved name none⟩
  | .create o c => { s with tree := (Plan.create s.tree o c).1 }

def after (t : Tree) (steps : List Step) : Session := steps.foldl step ⟨t, fun _ => none⟩

theorem after_concat (t : Tree) (steps : List Step) (last : Step) :
    after t (steps ++ [last]) = (after t steps).step last := by
  rw [after, List.foldl_append]
  rfl

theorem saved_step {s : Session} {next : Step} {name : String} {p : Plan}
    (saved : (s.step next).saved name = some p) : s.saved name = some p ∨
      ∃ o c, next = .plan name o c ∧ make s.tree o c = .ok p := by
  cases next with
  | edit change => exact Or.inl saved
  | create o c => exact Or.inl saved
  | plan other o c =>
    cases made : make s.tree o c with
    | error e =>
      simp only [step, made] at saved
      exact Or.inl saved
    | ok q =>
      simp only [step, made, Function.update_apply] at saved
      split_ifs at saved with same
      · cases saved
        exact Or.inr ⟨o, c, by rw [same], made⟩
      · exact Or.inl saved
  | execute other =>
    cases waiting : s.saved other with
    | none =>
      simp only [step, waiting] at saved
      exact Or.inl saved
    | some q =>
      simp only [step, waiting, Function.update_apply] at saved
      split_ifs at saved
      exact Or.inl saved

theorem saved_made {t : Tree} {steps : List Step} {name : String} {p : Plan}
    (saved : (after t steps).saved name = some p) :
    ∃ earlier o c later, steps = earlier ++ .plan name o c :: later ∧
      make (after t earlier).tree o c = .ok p := by
  -- on the last step
  induction steps using List.reverseRecOn with
  | nil => cases saved
  | append_singleton steps last ih =>
    rw [after_concat] at saved
    rcases saved_step saved with before | ⟨o, c, rfl, made⟩
    · obtain ⟨earlier, o, c, later, rfl, made⟩ := ih before
      exact ⟨earlier, o, c, later ++ [last], by simp, made⟩
    · exact ⟨steps, o, c, [], rfl, made⟩

end Session

def KeepsView (t : Tree) (p : Plan) : Prop :=
  p.settings.force = false → ∀ loc content, t.place? p.destination = some loc →
    t.entryAt? loc = some (some content) → (p.execute t).1.entryAt? loc = some (some content)

def TellsMode (t : Tree) (p : Plan) : Prop :=
  ∀ g, (p.execute t).2 = .ok g → (g.mode = .overwrite ↔ t.isFile p.destination = true)

theorem execute_replaces {planned t t' : Tree} {o : Options} {c : Config} {p : Plan}
    {r : Except Failure Generated} (made : Made planned o c p) (executed : p.execute t = (t', r))
    {loc : Location} {content : Content} (place : t.place? p.destination = some loc)
    (file : t.entryAt? loc = some (some content)) :
    t'.place? p.destination = some loc ∧ t'.entryAt? loc = some (some (.text p.text)) := by
  rcases execute_cases executed with ⟨failed, _⟩ | ⟨middle, update, written, updated, _⟩
  · rw [Tree.write_present place file] at failed
    cases (Prod.mk.inj failed).2
  · have effect := Language.update_effect updated
    obtain ⟨view, viewPlace, viewFile, _⟩ := written_view made written effect
    have grows := Tree.grows_trans (Tree.write_puts written).1 (Language.effect_grows effect)
    have place' := Tree.place?_grows grows place
    rw [viewPlace] at place'
    cases place'
    exact ⟨viewPlace, viewFile⟩

theorem execute_ok {t t' : Tree} {p : Plan} {g : Generated}
    (executed : p.execute t = (t', .ok g)) :
    g.mode = p.mode ∧ (t.isFile p.destination = true ↔ t.has p.destination = true) := by
  rcases execute_cases executed with ⟨_, same⟩ | ⟨middle, update, written, _, same⟩
  · cases same
  · cases update with
    | error e => cases same
    | ok u =>
      cases same
      refine ⟨rfl, ?_⟩
      obtain ⟨grows, view, viewPlace, _, noFolder, _⟩ := Tree.write_puts written
      constructor
      · intro file
        obtain ⟨loc, content, place, there⟩ := Tree.isFile_iff.1 file
        exact Tree.has_file place there
      · intro has
        obtain ⟨loc, place, there⟩ := Tree.has_iff.1 has
        rw [Tree.place?_grows grows place] at viewPlace
        cases viewPlace
        obtain ⟨n, found⟩ := Option.isSome_iff_exists.1 there
        cases n with
        | file content => exact Tree.isFile_iff.2 ⟨_, content, place, Tree.entryAt?_file.2 found⟩
        | folder es => simp [Tree.isFolderAt, found, Node.isFolder] at noFolder

theorem keepsView_iff {planned t : Tree} {o : Options} {c : Config} {p : Plan}
    (made : Made planned o c p) : KeepsView t p ↔ p.settings.force = true ∨
      ∀ loc content, t.place? p.destination = some loc → t.entryAt? loc = some (some content) →
        content = .text p.text := by
  constructor
  · intro keeps
    cases free : p.settings.force with
    | true => exact Or.inl rfl
    | false =>
      refine Or.inr fun loc content place file => ?_
      have kept := keeps free loc content place file
      rw [(execute_replaces made (Prod.eta _).symm place file).2] at kept
      exact (Option.some.inj (Option.some.inj kept)).symm
  · rintro (forced | same) free loc content place file
    · rw [forced] at free
      contradiction
    · rw [(execute_replaces made (Prod.eta _).symm place file).2, same loc content place file]

theorem tellsMode_iff {planned t : Tree} {o : Options} {c : Config} {p : Plan}
    (made : Made planned o c p) : TellsMode t p ↔
      ∀ g, (p.execute t).2 = .ok g → t.has p.destination = planned.has p.destination := by
  have step : ∀ g, (p.execute t).2 = .ok g →
      ((g.mode = .overwrite ↔ t.isFile p.destination = true) ↔
        t.has p.destination = planned.has p.destination) := by
    intro g done
    obtain ⟨mode, file⟩ := execute_ok (Prod.ext rfl done : p.execute t = (_, .ok g))
    rw [mode, (made_mode made).1, file]
    exact Iff.comm.trans Bool.eq_iff_iff.symm
  exact forall_congr' fun g => ⟨fun tells done => (step g done).1 (tells done),
    fun same done => (step g done).2 (same done)⟩

theorem still_right {planned t : Tree} {o : Options} {c : Config} {p : Plan}
    (made : Made planned o c p) (still : t.has p.destination = planned.has p.destination) :
    KeepsView t p ∧ TellsMode t p := by
  refine ⟨?_, (tellsMode_iff made).2 fun _ _ => still⟩
  intro free loc content place file
  have there := Tree.has_file place file
  rw [still, (made_mode made).2 free] at there
  contradiction

theorem view_lost {planned t : Tree} {o : Options} {c : Config} {p : Plan} {s : String}
    (made : Made planned o c p) (free : p.settings.force = false)
    (before : t.read? p.destination = some s) (other : s ≠ p.text)
    (done : (p.execute t).2.toBool = true) :
    (p.execute t).1.read? p.destination = some p.text ∧ ¬ KeepsView t p ∧ ¬ TellsMode t p := by
  obtain ⟨loc, place, file⟩ := Tree.read?_iff.1 before
  refine ⟨?_, ?_, ?_⟩
  · exact Tree.read?_iff.2 ⟨loc, execute_replaces made (Prod.eta _).symm place file⟩
  · intro keeps
    rcases (keepsView_iff made).1 keeps with forced | same
    · rw [forced] at free
      contradiction
    · exact other (Content.text.inj (same loc _ place file))
  · intro tells
    obtain ⟨g, ok⟩ := ok_of_toBool done
    have absent := (tellsMode_iff made).1 tells g ok
    rw [(made_mode made).2 free, Tree.has_file place file] at absent
    contradiction

/-- How far a plan that was made in one tree is right in another. -/
structure Judged (planned t : Tree) (p : Plan) : Prop where
  still : t.has p.destination = planned.has p.destination → KeepsView t p ∧ TellsMode t p
  keeps : KeepsView t p ↔ p.settings.force = true ∨
    ∀ loc content, t.place? p.destination = some loc → t.entryAt? loc = some (some content) →
      content = .text p.text
  tells : TellsMode t p ↔
    ∀ g, (p.execute t).2 = .ok g → t.has p.destination = planned.has p.destination

/-- After any steps, a plan that waits was made in an earlier tree, and that tree decides: its
    execution keeps an unforced view and tells the mode as long as the destination is as it was
    there, and not beyond that. A creation plans in the tree that it writes to, so it is right. -/
theorem execution_trusts_planning (t : Tree) (steps : List Step) :
    (∀ name p, (Session.after t steps).saved name = some p →
      ∃ earlier o c later, steps = earlier ++ .plan name o c :: later ∧
        make (Session.after t earlier).tree o c = .ok p ∧
        Judged (Session.after t earlier).tree (Session.after t steps).tree p) ∧
      ∀ o c p, make (Session.after t steps).tree o c = .ok p →
        create (Session.after t steps).tree o c = p.execute (Session.after t steps).tree ∧
          KeepsView (Session.after t steps).tree p ∧ TellsMode (Session.after t steps).tree p := by
  constructor
  · intro name p saved
    obtain ⟨earlier, o, c, later, same, made⟩ := Session.saved_made saved
    have parts := make_ok made
    exact ⟨earlier, o, c, later, same, made, still_right parts, keepsView_iff parts,
      tellsMode_iff parts⟩
  · intro o c p made
    exact ⟨by rw [create, made], still_right (make_ok made) rfl⟩

def postView : Path := ⟨"site/posts/form.blade.php"⟩

def postNotes : Path := ⟨"site/en/notes.php"⟩

def waiting (path : Path) : Session :=
  Session.after (sharedTree [])
    [.plan "post" (postOptions false) sharedConfig, .edit fun t => (t.write path "by hand").1]

theorem waiting_plan_keeps_view : ∃ p, (waiting postNotes).saved "post" = some p ∧
    KeepsView (waiting postNotes).tree p ∧ TellsMode (waiting postNotes).tree p ∧
    (p.execute (waiting postNotes).tree).1.read? postView = some "'post'!" := by
  have waits : ((waiting postNotes).saved "post").any (fun p =>
      p.settings.force = false && p.destination = postView &&
        (p.execute (waiting postNotes).tree).1.read? postView = some "'post'!") = true := by
    decide +kernel
  have absent : (waiting postNotes).tree.has postView = false := by decide +kernel
  obtain ⟨p, saved, facts⟩ := (Option.any_eq_true _ _).1 waits
  simp only [Bool.and_eq_true, decide_eq_true_eq] at facts
  obtain ⟨⟨free, destination⟩, view⟩ := facts
  obtain ⟨_, _, _, _, _, made, judged⟩ := (execution_trusts_planning _ _).1 "post" p saved
  obtain ⟨keeps, tells⟩ := judged.still
    (by rw [(made_mode (make_ok made)).2 free, destination]; exact absent)
  exact ⟨p, saved, keeps, tells, view⟩

/-- A view that is written while an unforced plan waits is replaced, as if there were none. -/
theorem waiting_plan_replaces_view : ∃ p, (waiting postView).saved "post" = some p ∧
    p.settings.force = false ∧
    (waiting postView).tree.read? p.destination = some "by hand" ∧
    (p.execute (waiting postView).tree).1.read? p.destination = some "'post'!" ∧
    ¬ KeepsView (waiting postView).tree p ∧ ¬ TellsMode (waiting postView).tree p := by
  have waits : ((waiting postView).saved "post").any (fun p =>
      p.settings.force = false && p.text = "'post'!" &&
        (waiting postView).tree.read? p.destination = some "by hand" &&
        (p.execute (waiting postView).tree).2.toBool) = true := by decide +kernel
  obtain ⟨p, saved, facts⟩ := (Option.any_eq_true _ _).1 waits
  simp only [Bool.and_eq_true, decide_eq_true_eq] at facts
  obtain ⟨⟨⟨free, text⟩, before⟩, done⟩ := facts
  obtain ⟨_, _, _, _, _, made⟩ := Session.saved_made saved
  have lost := view_lost (make_ok made) free before (by rw [text]; decide) done
  rw [text] at lost
  exact ⟨p, saved, free, before, lost⟩

end BladeForm.Plan
