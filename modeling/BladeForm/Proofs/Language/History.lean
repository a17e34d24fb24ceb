import BladeForm.Proofs.Language.Layout

/-!
Updates of one file, one after the other. Each adds the entries whose keys are new to the file
and touches no other, so the file that begins absent is at all times the first run's entries
with the increments of the later runs behind them.
-/
namespace BladeForm.Language
open Text

def lacking (es next : List Entry) : List Entry := next.filter fun e => !(es.map (·.1)).contains e.1

def increments : List Entry → List (List Entry) → List (List Entry)
  | _, [] => []
  | es, run :: runs => lacking es run :: increments (es ++ lacking es run) runs

def updateAll (t : Tree) (path : Path) : List (List Entry) → Tree × Except Failure (List Update)
  | [] => (t, .ok [])
  | run :: runs =>
    match update t path run with
    | (t, .error e) => (t, .error e)
    | (t, .ok u) =>
      match updateAll t path runs with
      | (t, .error e) => (t, .error e)
      | (t, .ok us) => (t, .ok (u :: us))

/-- The entries of some model whose fields are named by identifiers. -/
def IsRequest (run : List Entry) : Prop :=
  ∃ fields model, (∀ f : Field, f ∈ fields → Name.isIdentifier f.name = true) ∧
    run = entriesFor fields model

theorem request_keys {run : List Entry} (request : IsRequest run) : IdentifierKeys run := by
  obtain ⟨fields, model, names, rfl⟩ := request
  exact entries_identifiers model names

theorem lacking_subset {es next : List Entry} {e : Entry} (member : e ∈ lacking es next) :
    e ∈ next := (List.mem_filter.1 member).1

theorem keys_append {es new : List Entry} (old : IdentifierKeys es) (next : IdentifierKeys new) :
    IdentifierKeys (es ++ new) := by
  intro e member
  rcases List.mem_append.1 member with first | second
  · exact old e first
  · exact next e second

theorem missing_render {es : List Entry} (valid : IdentifierKeys es) (next : List Entry) :
    missing (render es) next = lacking es next := by
  rw [missing, lacking, render_keys fun e member => identifier_noArrow (valid e member)]

def Saved (t t' : Tree) (path : Path) (es new : List Entry) : Prop :=
  new = [] ∧ t' = t ∨ new ≠ [] ∧ t.write path (render (es ++ new)) = (t', true)

theorem saved_read {t t' : Tree} {path : Path} {es new : List Entry}
    (present : t.read? path = some (render es)) (saved : Saved t t' path es new) :
    t'.read? path = some (render (es ++ new)) := by
  rcases saved with ⟨rfl, rfl⟩ | ⟨_, written⟩
  · rw [List.append_nil]
    exact present
  · exact Tree.write_read written

theorem update_rendered {t t' : Tree} {path : Path} {es next : List Entry}
    (valid : IdentifierKeys es) (present : t.read? path = some (render es))
    (saved : Saved t t' path es (lacking es next)) :
    update t path next = (t', .ok ⟨path, (lacking es next).map (·.1)⟩) := by
  rw [update_present present, missing_render valid]
  rcases saved with ⟨complete, rfl⟩ | ⟨incomplete, written⟩
  · exact Or.inl ⟨complete, rfl, by rw [complete]; rfl⟩
  · exact Or.inr ⟨incomplete, _, append_render es _, written, rfl⟩

/-- The file of these entries, in a place that can be written. -/
structure Kept (t : Tree) (path : Path) (es : List Entry) : Prop where
  present : t.read? path = some (render es)
  valid : IdentifierKeys es
  writable : ∀ text, ∃ t', t.write path text = (t', true)

theorem kept_written {t t' : Tree} {path : Path} {es : List Entry} (valid : IdentifierKeys es)
    (written : t.write path (render es) = (t', true)) : Kept t' path es :=
  ⟨Tree.write_read written, valid, Tree.write_again written⟩

theorem kept_update {t : Tree} {path : Path} {es next : List Entry} (kept : Kept t path es)
    (valid : IdentifierKeys next) :
    ∃ t', update t path next = (t', .ok ⟨path, (lacking es next).map (·.1)⟩) ∧
      Kept t' path (es ++ lacking es next) := by
  have keys : IdentifierKeys (es ++ lacking es next) :=
    keys_append kept.valid fun e member => valid e (lacking_subset member)
  by_cases complete : lacking es next = []
  · refine ⟨t, update_rendered kept.valid kept.present (Or.inl ⟨complete, rfl⟩), ?_⟩
    rw [complete, List.append_nil]
    exact kept
  · obtain ⟨t', written⟩ := kept.writable (render (es ++ lacking es next))
    exact ⟨t', update_rendered kept.valid kept.present (Or.inr ⟨complete, written⟩),
      kept_written keys written⟩

theorem kept_updateAll {t : Tree} {path : Path} {es : List Entry} (kept : Kept t path es)
    (runs : List (List Entry)) (valid : ∀ run ∈ runs, IdentifierKeys run) :
    ∃ t', updateAll t path runs
        = (t', .ok ((increments es runs).map fun new => ⟨path, new.map (·.1)⟩)) ∧
      Kept t' path (es ++ (increments es runs).flatten) := by
  -- on the runs, for any entries that the file has before them
  induction runs generalizing t es with
  | nil =>
    refine ⟨t, rfl, ?_⟩
    rw [increments, List.flatten_nil, List.append_nil]
    exact kept
  | cons run runs ih =>
    obtain ⟨middle, first, keptFirst⟩ := kept_update kept (valid run List.mem_cons_self)
    obtain ⟨t', rest, keptRest⟩ := ih keptFirst fun r member => valid r (List.mem_cons_of_mem run member)
    refine ⟨t', ?_, ?_⟩
    · rw [updateAll, first]
      simp only [rest]
      rfl
    · rw [increments, List.flatten_cons, ← List.append_assoc]
      exact keptRest

theorem increments_prefix (es : List Entry) (earlier later : List (List Entry)) :
    increments es earlier <+: increments es (earlier ++ later) := by
  induction earlier generalizing es with
  | nil => exact List.nil_prefix
  | cons run runs ih =>
    rw [List.cons_append, increments, increments]
    exact List.cons_prefix_cons.2 ⟨rfl, ih _⟩

theorem update_absent {t t' : Tree} {path : Path} {es : List Entry} (absent : t.has path = false)
    (written : t.write path (render es) = (t', true)) :
    update t path es = (t', .ok ⟨path, es.map (·.1)⟩) := by
  unfold update
  simp only [absent, Bool.not_false, ↓reduceIte]
  exact save_ok.2 ⟨written, rfl⟩

/-- A rendered file becomes the rendered file of its entries and the new ones, and a file that
    begins absent is after any runs the first run's entries with all increments behind them. -/
theorem layout_appends_entries (path : Path) :
    (∀ (t t' : Tree) (es : List Entry) (fields : List Field) (model : String),
      IdentifierKeys es → (∀ f ∈ fields, Name.isIdentifier f.name = true) →
      t.read? path = some (render es) →
      Saved t t' path es (lacking es (entriesFor fields model)) →
      update t path (entriesFor fields model)
          = (t', .ok ⟨path, (lacking es (entriesFor fields model)).map (·.1)⟩) ∧
        t'.read? path = some (render (es ++ lacking es (entriesFor fields model)))) ∧
    (∀ (t t₁ : Tree) (first : List Entry) (later : List (List Entry)),
      (∀ run ∈ first :: later, IsRequest run) →
      t.has path = false → t.write path (render first) = (t₁, true) →
      ∃ t', updateAll t path (first :: later)
          = (t', .ok ((first :: increments first later).map fun new => ⟨path, new.map (·.1)⟩)) ∧
        t'.read? path = some (render (first ++ (increments first later).flatten)) ∧
        ∀ earlier rest, later = earlier ++ rest →
          increments first earlier <+: increments first later) := by
  constructor
  · intro t t' es fields model valid names present saved
    exact ⟨update_rendered valid present saved, saved_read present saved⟩
  · intro t t₁ first later requests absent written
    have valid : ∀ run ∈ first :: later, IdentifierKeys run := fun run member =>
      request_keys (requests run member)
    have kept := kept_written (valid first List.mem_cons_self) written
    obtain ⟨t', updated, keptRest⟩ := kept_updateAll kept later fun run member =>
      valid run (List.mem_cons_of_mem first member)
    refine ⟨t', ?_, keptRest.present, ?_⟩
    · rw [updateAll, update_absent absent written]
      simp only [updated]
      rfl
    · rintro earlier rest rfl
      exact increments_prefix first earlier rest

def editedEntries : List Entry := [("title", "it's\n];\n'x' => \\")]

def postRuns : List (List Entry) :=
  [entriesFor [Field.ofName "title" .text] "Post", entriesFor [Field.ofName "body" .text] "Page"]

theorem edited_file_extended :
    ((postsTree (render editedEntries)).read? postsPath = some (render editedEntries) ∧
      ∃ t', update (postsTree (render editedEntries)) postsPath (entriesFor brokenFields "Post")
          = (t', .ok ⟨postsPath, ["model_name", "model_plural", "body"]⟩) ∧
        t'.read? postsPath = some (render (editedEntries ++
          [("model_name", "Post"), ("model_plural", "Posts"), ("body", "it's\n];\n'x' =>")]))) ∧
    (∀ run ∈ postRuns, IsRequest run) ∧
    ∃ t', updateAll ⟨[], []⟩ postsPath postRuns
        = (t', .ok [⟨postsPath, ["model_name", "model_plural", "title"]⟩,
            ⟨postsPath, ["body"]⟩]) ∧
      t'.read? postsPath = some (render [("model_name", "Post"), ("model_plural", "Posts"),
        ("title", "Title"), ("body", "Body")]) := by
  have present : (postsTree (render editedEntries)).read? postsPath = some (render editedEntries) := rfl
  have valid : IdentifierKeys editedEntries := by
    unfold IdentifierKeys
    decide
  have requests : ∀ run ∈ postRuns, IsRequest run := by
    intro run member
    simp only [postRuns, List.mem_cons, List.not_mem_nil, or_false] at member
    rcases member with rfl | rfl
    · exact ⟨_, _, by decide, rfl⟩
    · exact ⟨_, _, by decide, rfl⟩
  have saved : Saved (postsTree (render editedEntries))
      ((postsTree (render editedEntries)).write postsPath (render (editedEntries ++
        [("model_name", "Post"), ("model_plural", "Posts"), ("body", "it's\n];\n'x' =>")]))).1
      postsPath editedEntries (lacking editedEntries (entriesFor brokenFields "Post")) :=
    Or.inr ⟨by decide, rfl⟩
  have absent : Tree.has ⟨[], []⟩ postsPath = false := rfl
  have written : Tree.write ⟨[], []⟩ postsPath
        (render (entriesFor [Field.ofName "title" .text] "Post"))
      = ((Tree.write ⟨[], []⟩ postsPath
        (render (entriesFor [Field.ofName "title" .text] "Post"))).1, true) := rfl
  obtain ⟨t', updated, read, _⟩ := (layout_appends_entries postsPath).2 _ _ _ _
    requests absent written
  exact ⟨⟨present, _, (layout_appends_entries postsPath).1 _ _ _ _ _ valid (by decide)
    present saved⟩, requests, t', updated, read⟩

end BladeForm.Language
