import BladeForm.Diff.Unified
import BladeForm.Proofs.Diff.Script

/-!
Hunks applied to the lines of a text, as strictly as can be. A hunk begins where its two starts
say, behind all that was read and written before it, and every line that it shows unchanged or
removed must stand there. The hunks of a script make its second text of its first.
-/
namespace BladeForm.Diff

def Hunk.old (h : Hunk) : List Line := (h.rows.filter (·.1 ≠ .added)).map Prod.snd

def Hunk.new (h : Hunk) : List Line := (h.rows.filter (·.1 ≠ .removed)).map Prod.snd

/-- The text that hunks make of what is left of another one, of which `read` lines are used up
    and have become `written` lines. -/
def applyTo? : (read written : Nat) → List Hunk → List Line → Option (List Line)
  | _, _, [], old => some old
  | read, written, h :: hs, old =>
    let skipped := h.oldStart - read
    if read ≤ h.oldStart && skipped ≤ old.length && written + skipped = h.newStart
        && h.old.isPrefixOf (old.drop skipped) then
      (applyTo? (h.oldStart + h.oldLength) (h.newStart + h.newLength) hs
        (old.drop (skipped + h.oldLength))).map (old.take skipped ++ h.new ++ ·)
    else none

theorem oldLength_eq (h : Hunk) : h.oldLength = h.old.length := by
  rw [Hunk.oldLength, Hunk.old, List.length_map]

theorem newLength_eq (h : Hunk) : h.newLength = h.new.length := by
  rw [Hunk.newLength, Hunk.new, List.length_map]

/-- A hunk is applied behind lines that stay, and the others behind it. -/
theorem applyTo?_cons_iff {read written : Nat} {h : Hunk} {hs : List Hunk} {old new : List Line} :
    applyTo? read written (h :: hs) old = some new ↔ ∃ kept rest more : List Line,
      old = kept ++ h.old ++ rest ∧ new = kept ++ h.new ++ more ∧
      h.oldStart = read + kept.length ∧ h.newStart = written + kept.length ∧
      applyTo? (h.oldStart + h.old.length) (h.newStart + h.new.length) hs rest = some more := by
  rw [applyTo?, oldLength_eq, newLength_eq]
  simp only [Option.ite_none_right_eq_some, Option.map_eq_some_iff, Bool.and_eq_true,
    decide_eq_true_eq, List.isPrefixOf_iff_prefix]
  constructor
  · rintro ⟨⟨⟨⟨behind, enough⟩, starts⟩, rest, shown⟩, more, applied, rfl⟩
    have length : (old.take (h.oldStart - read)).length = h.oldStart - read := by
      rw [List.length_take, Nat.min_eq_left enough]
    have left : old.drop (h.oldStart - read + h.old.length) = rest := by
      rw [← List.drop_drop, ← shown, List.drop_left]
    rw [left] at applied
    refine ⟨_, rest, more, ?_, rfl, ?_, ?_, applied⟩
    · rw [List.append_assoc, shown, List.take_append_drop]
    · omega
    · omega
  · rintro ⟨kept, rest, more, rfl, rfl, start, start', applied⟩
    have skipped : h.oldStart - read = kept.length := by omega
    rw [skipped, List.append_assoc]
    refine ⟨⟨⟨⟨by omega, by simp⟩, by omega⟩, ?_⟩, more, ?_, ?_⟩
    · rw [List.drop_left]
      exact List.prefix_append _ _
    · rw [← List.drop_drop, List.drop_left, List.drop_left]
      exact applied
    · rw [List.take_left]

theorem applyTo?_behind {read written : Nat} {h : Hunk} {hs : List Hunk}
    {passed old new : List Line}
    (applied : applyTo? read written (h :: hs) (passed ++ old) = some new)
    (later : read + passed.length ≤ h.oldStart) : ∃ more, new = passed ++ more ∧
      applyTo? (read + passed.length) (written + passed.length) (h :: hs) old = some more := by
  obtain ⟨kept, rest, more, split, rfl, start, start', behind⟩ := applyTo?_cons_iff.1 applied
  obtain ⟨between, rfl⟩ : passed <+: kept := by
    refine List.prefix_of_prefix_length_le (List.prefix_append passed old) ?_ (by omega)
    rw [split, List.append_assoc]
    exact List.prefix_append _ _
  rw [List.append_assoc, List.append_assoc] at split
  rw [List.length_append] at start start'
  refine ⟨between ++ h.new ++ more, by simp only [List.append_assoc], applyTo?_cons_iff.2 ?_⟩
  exact ⟨between, rest, more, by rw [List.append_cancel_left split, List.append_assoc], rfl,
    by omega, by omega, behind⟩

section
variable (ls : List Line)

theorem old_context : ((rowsOf .context ls).filter (·.1 ≠ .added)).map Prod.snd = ls := by
  simp [rowsOf, List.filter_map, Function.comp_def]

theorem new_context : ((rowsOf .context ls).filter (·.1 ≠ .removed)).map Prod.snd = ls := by
  simp [rowsOf, List.filter_map, Function.comp_def]

end

section
variable (c : Change)

theorem old_rows : (c.rows.filter (·.1 ≠ .added)).map Prod.snd = c.removed := by
  simp [Change.rows, rowsOf, List.filter_map, Function.comp_def]

theorem new_rows : (c.rows.filter (·.1 ≠ .removed)).map Prod.snd = c.added := by
  simp [Change.rows, rowsOf, List.filter_map, Function.comp_def]

def Change.hidden : List Line := c.kept.take (c.kept.length - contextSize)

theorem hidden_lead : c.hidden ++ c.lead = c.kept := List.take_append_drop ..

theorem lead_starts (before : Nat) :
    before + c.kept.length - c.lead.length = before + c.hidden.length := by
  rw [← hidden_lead c, List.length_append, ← Nat.add_assoc, Nat.add_sub_cancel]

/-- The hunk of a change behind `old` and `new` lines, with more rows behind its own. -/
def Change.hunk (old new : Nat) (more : List Row) : Hunk :=
  ⟨old + c.hidden.length, new + c.hidden.length, rowsOf .context c.lead ++ c.rows ++ more⟩

theorem hunk_old (old new : Nat) (more : List Row) : (c.hunk old new more).old
    = c.lead ++ c.removed ++ (more.filter (·.1 ≠ .added)).map Prod.snd := by
  simp only [Hunk.old, Change.hunk, List.filter_append, List.map_append, old_context, old_rows]

theorem hunk_new (old new : Nat) (more : List Row) : (c.hunk old new more).new
    = c.lead ++ c.added ++ (more.filter (·.1 ≠ .removed)).map Prod.snd := by
  simp only [Hunk.new, Change.hunk, List.filter_append, List.map_append, new_context, new_rows]

end

section
variable {tail : List Line} {old new : Nat} {c next : Change} {cs : List Change}

theorem hunksFrom_last :
    hunksFrom tail old new [c] = [c.hunk old new (rowsOf .context (tail.take contextSize))] := by
  simp only [hunksFrom, lead_starts, Change.hunk]

theorem hunksFrom_cons {h : Hunk} {hs : List Hunk}
    (behind : hunksFrom tail (old + c.kept.length + c.removed.length)
      (new + c.kept.length + c.added.length) (next :: cs) = h :: hs) :
    hunksFrom tail old new (c :: next :: cs)
      = if next.kept.length ≤ 2 * contextSize then
          c.hunk old new (rowsOf .context next.hidden ++ h.rows) :: hs
        else c.hunk old new (rowsOf .context (next.kept.take contextSize)) :: h :: hs := by
  rw [hunksFrom]
  case heq => exact behind
  simp only [lead_starts]
  rfl

theorem hunksFrom_starts (tail : List Line) (old new : Nat) (c : Change) (cs : List Change) :
    ∃ more hs, hunksFrom tail old new (c :: cs) = c.hunk old new more :: hs := by
  cases cs with
  | nil => exact ⟨_, _, hunksFrom_last⟩
  | cons next cs =>
    obtain ⟨more, hs, behind⟩ := hunksFrom_starts tail (old + c.kept.length + c.removed.length)
      (new + c.kept.length + c.added.length) next cs
    rw [hunksFrom_cons behind]
    split
    · exact ⟨_, _, rfl⟩
    · exact ⟨_, _, rfl⟩

end

section
variable {old new : Nat} {c : Change} {hs : List Hunk} {shared text made : List Line}

theorem applyTo?_apart
    (behind : applyTo? (old + c.kept.length + c.removed.length + shared.length)
      (new + c.kept.length + c.added.length + shared.length) hs text = some made) :
    applyTo? old new (c.hunk old new (rowsOf .context shared) :: hs) (c.old ++ (shared ++ text))
      = some (c.new ++ (shared ++ made)) := by
  refine applyTo?_cons_iff.2 ⟨c.hidden, text, made, ?_, ?_, rfl, rfl, ?_⟩
  · rw [hunk_old, old_context, Change.old, ← hidden_lead c]
    simp only [List.append_assoc]
  · rw [hunk_new, new_context, Change.new, ← hidden_lead c]
    simp only [List.append_assoc]
  · rw [hunk_old, old_context, hunk_new, new_context]
    rw [← hidden_lead c] at behind
    simp only [List.length_append, ← Nat.add_assoc] at behind ⊢
    exact behind

theorem applyTo?_joined {first : Hunk}
    (starts : first.oldStart = old + c.kept.length + c.removed.length + shared.length)
    (behind : applyTo? (old + c.kept.length + c.removed.length)
      (new + c.kept.length + c.added.length) (first :: hs) (shared ++ text) = some made) :
    applyTo? old new (c.hunk old new (rowsOf .context shared ++ first.rows) :: hs)
      (c.old ++ (shared ++ text)) = some (c.new ++ made) := by
  obtain ⟨more, rfl, applied⟩ := applyTo?_behind behind (Nat.le_of_eq starts.symm)
  obtain ⟨kept, rest, more, rfl, rfl, start, start', later⟩ := applyTo?_cons_iff.1 applied
  have none : kept = [] := List.length_eq_zero_iff.1 (by omega)
  subst none
  have shownOld : ((rowsOf .context shared ++ first.rows).filter (·.1 ≠ .added)).map Prod.snd
      = shared ++ first.old := by
    rw [List.filter_append, List.map_append, old_context, Hunk.old]
  have shownNew : ((rowsOf .context shared ++ first.rows).filter (·.1 ≠ .removed)).map Prod.snd
      = shared ++ first.new := by
    rw [List.filter_append, List.map_append, new_context, Hunk.new]
  refine applyTo?_cons_iff.2 ⟨c.hidden, rest, more, ?_, ?_, rfl, rfl, ?_⟩
  · rw [hunk_old, shownOld, Change.old, ← hidden_lead c]
    simp only [List.append_assoc, List.nil_append]
  · rw [hunk_new, shownNew, Change.new, ← hidden_lead c]
    simp only [List.append_assoc, List.nil_append]
  · rw [hunk_old, shownOld, hunk_new, shownNew]
    rw [start, start', ← hidden_lead c] at later
    simp only [List.length_append, List.length_nil, Nat.add_zero, ← Nat.add_assoc] at later ⊢
    exact later

end

/-- The hunks of changes behind `old` and `new` lines make the second text's lines of the first
    one's. -/
theorem hunksFrom_apply (tail : List Line) (old new : Nat) (cs : List Change) :
    applyTo? old new (hunksFrom tail old new cs) (cs.flatMap Change.old ++ tail)
      = some (cs.flatMap Change.new ++ tail) := by
  induction cs generalizing old new with
  | nil => rfl
  | cons c cs ih =>
    rw [List.flatMap_cons, List.flatMap_cons, List.append_assoc, List.append_assoc]
    cases cs with
    | nil =>
      have applied :=
        @applyTo?_apart old new c [] (tail.take contextSize) (tail.drop contextSize) _ rfl
      rw [List.take_append_drop] at applied
      rw [hunksFrom_last]
      exact applied
    | cons next cs =>
      have applied := ih (old + c.kept.length + c.removed.length)
        (new + c.kept.length + c.added.length)
      obtain ⟨more, hs, behind⟩ := hunksFrom_starts tail (old + c.kept.length + c.removed.length)
        (new + c.kept.length + c.added.length) next cs
      rw [behind] at applied
      rw [hunksFrom_cons behind]
      split
      · have split : (next :: cs).flatMap Change.old ++ tail = next.hidden
            ++ (next.lead ++ next.removed ++ cs.flatMap Change.old ++ tail) := by
          rw [List.flatMap_cons, Change.old, ← hidden_lead next]
          simp only [List.append_assoc]
        rw [split] at applied ⊢
        exact applyTo?_joined rfl applied
      · next long =>
        have split : (next :: cs).flatMap Change.old ++ tail = next.kept.take contextSize
            ++ (next.kept.drop contextSize ++ next.removed ++ cs.flatMap Change.old ++ tail) := by
          conv_lhs =>
            rw [List.flatMap_cons, Change.old, ← List.take_append_drop contextSize next.kept]
          simp only [List.append_assoc]
        rw [split] at applied ⊢
        have later : old + c.kept.length + c.removed.length + (next.kept.take contextSize).length
            ≤ (next.hunk (old + c.kept.length + c.removed.length)
              (new + c.kept.length + c.added.length) more).oldStart := by
          simp only [Change.hunk, Change.hidden, List.length_take, contextSize] at long ⊢
          omega
        obtain ⟨made, same, rest⟩ := applyTo?_behind applied later
        rw [same]
        exact applyTo?_apart rest

theorem hunks_apply (s : Script) : applyTo? 0 0 (hunks s) s.old = some s.new :=
  hunksFrom_apply s.tail 0 0 s.changes

theorem hunks_nil_iff (s : Script) : hunks s = [] ↔ s.changes = [] := by
  rw [hunks]
  cases s.changes with
  | nil => exact ⟨fun _ => rfl, fun _ => rfl⟩
  | cons c cs =>
    obtain ⟨more, hs, same⟩ := hunksFrom_starts s.tail 0 0 c cs
    simp [same]

end BladeForm.Diff
