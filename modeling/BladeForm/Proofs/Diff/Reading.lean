import BladeForm.Proofs.Diff.Patch
import BladeForm.Proofs.Lines
import BladeForm.Proofs.Search

/-!
Reading a diff back from its text, and using it as a patch. Lines are read from the last one
upward, since a row is cut by the mark behind it and a hunk opens above its rows. What is printed
of hunks is read as these hunks, so the text of a diff, applied to the one text, gives the other.
-/
namespace BladeForm.Diff
open Text

def mark? (c : Char) : Option Mark :=
  if c = ' ' then some .context
  else if c = '-' then some .removed
  else if c = '+' then some .added
  else none

def number? (cs : List Char) : Option (Nat × List Char) :=
  let digits := cs.takeWhile Char.isDigit
  if digits.isEmpty then none
  else some (Nat.ofDigitChars 10 digits 0, cs.dropWhile Char.isDigit)

def range? (cs : List Char) : Option ((Nat × Nat) × List Char) := do
  let (first, rest) ← number? cs
  match after? [','] rest with
  | none => some ((first - 1, 1), rest)
  | some rest =>
    let (length, rest) ← number? rest
    some ((if length = 0 then first else first - 1, length), rest)

def header? (line : Line) : Option ((Nat × Nat) × (Nat × Nat)) := do
  let (old, rest) ← range? (← after? "@@ -".toList line)
  let (new, rest) ← range? (← after? " +".toList rest)
  if rest = " @@\n".toList then some (old, new) else none

/-- What the lines below stand for: hunks, before them rows of the hunk that is to be opened, and
    whether the line above loses its line feed. -/
structure Reading where
  cut : Bool
  rows : List Row
  hunks : List Hunk

def Reading.start : Reading := ⟨false, [], []⟩

def Reading.step (line : Line) (r : Reading) : Option Reading :=
  match line with
  | [] => none
  | c :: l =>
    if c = '\\' then if r.cut then none else some { r with cut := true }
    else if c = '@' then do
      let (old, new) ← header? line
      let h : Hunk := ⟨old.1, new.1, r.rows⟩
      if r.cut || h.oldLength ≠ old.2 || h.newLength ≠ new.2 then none
      else some ⟨false, [], h :: r.hunks⟩
    else do
      let m ← mark? c
      some { r with cut := false, rows := (m, if r.cut then l.dropLast else l) :: r.rows }

def hunks? (lines : List Line) : Option (List Hunk) :=
  match lines.foldrM Reading.step .start with
  | some ⟨false, [], hs⟩ => some hs
  | _ => none

/-- The text that the hunks of a diff make of another text. -/
def patch? (diff : List Char) (existing : String) : Option String := do
  let lines ← applyTo? 0 0 (← hunks? (rawLines diff)) (rawLines existing.toList)
  some (String.ofList lines.flatten)

section
variable {rest : List Char} (stops : ∀ c ∈ rest.head?, c.isDigit = false)
include stops

theorem number?_digits (n : Nat) : number? (Nat.toDigits 10 n ++ rest) = some (n, rest) := by
  have digits : ∀ c ∈ Nat.toDigits 10 n, c.isDigit = true := fun c member =>
    Nat.isDigit_of_mem_toDigits (by decide) (by decide) member
  have none : rest.takeWhile Char.isDigit = [] ∧ rest.dropWhile Char.isDigit = rest := by
    cases rest with
    | nil => exact ⟨rfl, rfl⟩
    | cons c cs => simp [stops c rfl]
  rw [number?, List.takeWhile_append_of_pos digits, List.dropWhile_append_of_pos digits,
    none.1, none.2, List.append_nil, Nat.ofDigitChars_toDigits (by decide) (by decide)]
  simp [Nat.toDigits_ne_nil]

theorem range?_single (first : Nat) (single : rest.head? ≠ some ',') :
    range? (Nat.toDigits 10 first ++ rest) = some ((first - 1, 1), rest) := by
  have other : after? [','] rest = none := by
    cases rest with
    | nil => rfl
    | cons c cs =>
      have differs : ',' ≠ c := by
        rintro rfl
        exact single rfl
      simp [after?, differs]
  simp [range?, number?_digits stops, other]

theorem range?_pair (first length : Nat) :
    range? (Nat.toDigits 10 first ++ ',' :: (Nat.toDigits 10 length ++ rest))
      = some ((if length = 0 then first else first - 1, length), rest) := by
  have comma : number? (Nat.toDigits 10 first ++ ',' :: (Nat.toDigits 10 length ++ rest))
      = some (first, ',' :: (Nat.toDigits 10 length ++ rest)) := number?_digits (by simp) first
  simp [range?, comma, after?, number?_digits stops]

theorem range?_text (single : rest.head? ≠ some ',') (start length : Nat) :
    range? ((rangeText start length).toList ++ rest) = some ((start, length), rest) := by
  rw [rangeText]
  split
  · next one =>
    have text : (s!"{start + 1}").toList = Nat.toDigits 10 (start + 1) := by simp
    rw [text, range?_single stops _ single, one, Nat.add_sub_cancel]
  · split
    · next none =>
      have text : (s!"{start},0").toList = Nat.toDigits 10 start ++ [',', '0'] := by
        simp only [String.toList_append, Nat.toString_eq_repr, Nat.toList_repr]
        rfl
      rw [text, List.append_assoc, none]
      exact range?_pair stops start 0
    · next some =>
      have text : (s!"{start + 1},{length}").toList
          = Nat.toDigits 10 (start + 1) ++ ',' :: Nat.toDigits 10 length := by
        simp only [String.toList_append, Nat.toString_eq_repr, Nat.toList_repr, List.append_assoc]
        rfl
      rw [text, List.append_assoc, List.cons_append, range?_pair stops, if_neg some,
        Nat.add_sub_cancel]

end

def Hunk.header (h : Hunk) : Line :=
  "@@ -".toList ++ ((rangeText h.oldStart h.oldLength).toList
    ++ (" +".toList ++ ((rangeText h.newStart h.newLength).toList ++ " @@\n".toList)))

def rowLines (r : Row) : List Line :=
  if isEnded r.2 then [r.1.char :: r.2]
  else [r.1.char :: r.2 ++ ['\n'], "\\ No newline at end of file\n".toList]

def Hunk.lines (h : Hunk) : List Line := h.header :: h.rows.flatMap rowLines

theorem rowLines_flatten (r : Row) : (rowLines r).flatten = rowText r := by
  rw [rowLines, rowText]
  split
  · simp
  · simp

theorem lines_flatten (h : Hunk) : h.lines.flatten = h.text := by
  have rows : (h.rows.flatMap rowLines).flatten = h.rows.flatMap rowText := by
    induction h.rows with
    | nil => rfl
    | cons r rows ih =>
      rw [List.flatMap_cons, List.flatMap_cons, List.flatten_append, ih, rowLines_flatten]
  rw [Hunk.lines, List.flatten_cons, rows, Hunk.text]
  congr 1
  simp only [Hunk.header, String.toList_append, List.append_assoc]
  rfl

theorem header?_printed (h : Hunk) :
    header? h.header = some ((h.oldStart, h.oldLength), (h.newStart, h.newLength)) := by
  have last : range? ((rangeText h.newStart h.newLength).toList ++ " @@\n".toList)
      = some ((h.newStart, h.newLength), " @@\n".toList) :=
    range?_text (by simp) (by simp) _ _
  have first : range? ((rangeText h.oldStart h.oldLength).toList
      ++ (" +".toList ++ ((rangeText h.newStart h.newLength).toList ++ " @@\n".toList)))
      = some ((h.oldStart, h.oldLength),
        " +".toList ++ ((rangeText h.newStart h.newLength).toList ++ " @@\n".toList)) :=
    range?_text (by simp) (by simp) _ _
  simp only [header?, Hunk.header, after?_iff.2 rfl, Option.bind_eq_bind, Option.bind_some, first,
    last, if_true]

theorem step_header (h : Hunk) (hs : List Hunk) :
    Reading.step h.header ⟨false, h.rows, hs⟩ = some ⟨false, [], h :: hs⟩ := by
  have begins : h.header = '@' :: h.header.tail := rfl
  have read := header?_printed h
  rw [begins] at read ⊢
  have old : (⟨h.oldStart, h.newStart, h.rows⟩ : Hunk) = h := rfl
  simp [Reading.step, read, old]

theorem step_row (r : Row) (rows : List Row) (hs : List Hunk) :
    (rowLines r).foldrM Reading.step ⟨false, rows, hs⟩ = some ⟨false, r :: rows, hs⟩ := by
  obtain ⟨m, l⟩ := r
  rw [rowLines]
  split
  · cases m <;> rfl
  · have ended : (l ++ ['\n']).dropLast = l := List.dropLast_concat
    cases m <;> simp [List.foldrM_cons, Reading.step, mark?, Mark.char, ended]

theorem step_rows (rows below : List Row) (hs : List Hunk) :
    (rows.flatMap rowLines).foldrM Reading.step ⟨false, below, hs⟩
      = some ⟨false, rows ++ below, hs⟩ := by
  induction rows with
  | nil => rfl
  | cons r rows ih =>
    rw [List.flatMap_cons, List.foldrM_append, ih]
    exact step_row r (rows ++ below) hs

theorem hunks?_printed (hs : List Hunk) : hunks? (hs.flatMap Hunk.lines) = some hs := by
  have read : (hs.flatMap Hunk.lines).foldrM Reading.step .start = some ⟨false, [], hs⟩ := by
    induction hs with
    | nil => rfl
    | cons h hs ih =>
      rw [List.flatMap_cons, List.foldrM_append, ih, Hunk.lines]
      simp only [Option.bind_eq_bind, Option.bind_some, List.foldrM_cons, step_rows,
        List.append_nil, step_header]
  rw [hunks?, read]

def IsLine (l : Line) : Prop := IsEnded l ∨ l ≠ [] ∧ ∀ c ∈ l, isBreak c = false

theorem isEnded_iff {l : Line} (line : IsLine l) : isEnded l = true ↔ IsEnded l := by
  constructor
  · intro ended
    refine line.resolve_right fun ⟨_, free⟩ => ?_
    simp only [isEnded, Bool.or_eq_true, decide_eq_true_eq] at ended
    rcases ended with last | last
    · exact absurd (free _ (List.mem_of_getLast? last)) (by decide)
    · exact absurd (free _ (List.mem_of_getLast? last)) (by decide)
  · rintro ⟨body, ending, rfl, _, member⟩
    simp only [breaks, List.mem_cons, List.not_mem_nil, or_false] at member
    rcases member with rfl | rfl | rfl <;> simp [isEnded]

theorem rangeText_free (start length : Nat) :
    ∀ c ∈ (rangeText start length).toList, isBreak c = false := by
  have digits : ∀ n : Nat, ∀ c ∈ n.repr.toList, isBreak c = false := by
    intro n c member
    rw [Nat.toList_repr] at member
    have digit := Nat.isDigit_of_mem_toDigits (by decide) (by decide) member
    rw [← Bool.not_eq_true, isBreak_iff]
    rintro (rfl | rfl) <;> exact absurd digit (by decide)
  have comma : ∀ c ∈ (toString ",").toList, isBreak c = false := by simp [isBreak, toString]
  have empty : ∀ c ∈ (toString ",0").toList, isBreak c = false := by simp [isBreak, toString]
  rw [rangeText]
  split
  · exact digits (start + 1)
  · split
    · simp only [String.toList_append, Nat.toString_eq_repr, List.forall_mem_append]
      exact ⟨digits _, empty⟩
    · simp only [String.toList_append, Nat.toString_eq_repr, List.forall_mem_append]
      exact ⟨⟨digits _, comma⟩, digits _⟩

theorem header_ended (h : Hunk) : IsEnded h.header := by
  refine ⟨"@@ -".toList ++ ((rangeText h.oldStart h.oldLength).toList
    ++ (" +".toList ++ ((rangeText h.newStart h.newLength).toList ++ " @@".toList))), ['\n'],
    ?_, ?_, by decide⟩
  · simp only [Hunk.header, List.append_assoc]
    rfl
  · simp only [List.forall_mem_append]
    exact ⟨by simp [isBreak], rangeText_free _ _, by simp [isBreak], rangeText_free _ _,
      by simp [isBreak]⟩

theorem rowLines_ended {r : Row} (line : IsLine r.2) :
    ∀ l ∈ rowLines r, IsEnded l ∧ l.head? ≠ some '\n' := by
  obtain ⟨m, l⟩ := r
  have mark : isBreak m.char = false ∧ some m.char ≠ some '\n' := by cases m <;> decide
  rw [rowLines]
  split
  · next ended =>
    rw [isEnded_iff line] at ended
    exact List.forall_mem_singleton.2 ⟨ended_cons mark.1 ended, mark.2⟩
  · next opened =>
    rw [isEnded_iff line] at opened
    obtain ⟨_, free⟩ := line.resolve_left opened
    refine List.forall_mem_cons.2 ⟨⟨?_, mark.2⟩, List.forall_mem_singleton.2 ⟨?_, by decide⟩⟩
    · exact ⟨m.char :: l, ['\n'], rfl, List.forall_mem_cons.2 ⟨mark.1, free⟩, by decide⟩
    · exact ⟨"\\ No newline at end of file".toList, ['\n'], rfl, by simp [isBreak], by decide⟩

theorem lines_ended {h : Hunk} (lines : ∀ r ∈ h.rows, IsLine r.2) :
    ∀ l ∈ h.lines, IsEnded l ∧ l.head? ≠ some '\n' := by
  refine List.forall_mem_cons.2 ⟨⟨header_ended h, ?_⟩, fun l member => ?_⟩
  · have begins : h.header.head? = some '@' := rfl
    rw [begins]
    decide
  · obtain ⟨r, row, inside⟩ := List.mem_flatMap.1 member
    exact rowLines_ended (lines r row) l inside

/-- Hunks of lines are read back from their text. -/
theorem hunks?_text {hs : List Hunk} (lines : ∀ h ∈ hs, ∀ r ∈ h.rows, IsLine r.2) :
    hunks? (rawLines (hs.flatMap Hunk.text)) = some hs := by
  have text : hs.flatMap Hunk.text = (hs.flatMap Hunk.lines).flatten := by
    induction hs with
    | nil => rfl
    | cons h hs ih =>
      rw [List.flatMap_cons, List.flatMap_cons, List.flatten_append, lines_flatten,
        ih (List.forall_mem_cons.1 lines).2]
  rw [text, rawLines_flatten, hunks?_printed]
  intro l member
  obtain ⟨h, hunk, inside⟩ := List.mem_flatMap.1 member
  exact lines_ended (lines h hunk) l inside

theorem applyTo?_shows {read written : Nat} {hs : List Hunk} {old new : List Line}
    (applied : applyTo? read written hs old = some new) :
    ∀ h ∈ hs, ∀ r ∈ h.rows, r.2 ∈ old ∨ r.2 ∈ new := by
  induction hs generalizing read written old new with
  | nil => exact fun h member => absurd member List.not_mem_nil
  | cons h hs ih =>
    obtain ⟨kept, rest, more, rfl, rfl, _, _, behind⟩ := applyTo?_cons_iff.1 applied
    refine List.forall_mem_cons.2 ⟨fun r row => ?_, fun g member r row => ?_⟩
    · by_cases added : r.1 = .added
      · have shown : r.2 ∈ h.new :=
          List.mem_map_of_mem (List.mem_filter.2 ⟨row, by simp [added]⟩)
        exact Or.inr (by simp [shown])
      · have shown : r.2 ∈ h.old :=
          List.mem_map_of_mem (List.mem_filter.2 ⟨row, by simp [added]⟩)
        exact Or.inl (by simp [shown])
    · exact (ih behind g member r row).imp (by simp +contextual) (by simp +contextual)

theorem patch?_edits {existing generated : String} {es : List Edit}
    (leads : Leads es (rawLines existing.toList) (rawLines generated.toList)) :
    patch? ((hunks (.ofEdits es)).flatMap Hunk.text) existing = some generated := by
  have applied := hunks_apply (.ofEdits es)
  rw [(ofEdits_sides es).1, (ofEdits_sides es).2, leads.old, leads.new] at applied
  have lines : ∀ h ∈ hunks (.ofEdits es), ∀ r ∈ h.rows, IsLine r.2 := by
    intro h hunk r row
    exact (applyTo?_shows applied h hunk r row).elim mem_rawLines mem_rawLines
  simp [patch?, hunks?_text lines, applied, flatten_rawLines]

def heading (path : Path) : String :=
  s!"--- {path.text} (existing)\n+++ {path.text} (generated)\n"

section
variable {diff : LineDiff} (valid : diff.IsValid) (existing generated : String) (path : Path)

include valid

theorem unified_cases :
    (existing = generated ∧ diff.unified existing generated path = "") ∨
      (existing ≠ generated ∧ diff.unified existing generated path = heading path ++ String.ofList
        ((hunks (diff.script (rawLines existing.toList) (rawLines generated.toList))).flatMap
          Hunk.text)) := by
  have same : hunks (diff.script (rawLines existing.toList) (rawLines generated.toList)) = []
      ↔ existing = generated := by
    rw [hunks_nil_iff, script_unchanged_iff valid]
    exact ⟨fun equal => String.toList_inj.1 (rawLines_inj equal), fun equal => by rw [equal]⟩
  rw [LineDiff.unified]
  split
  · next none => exact Or.inl ⟨same.1 none, rfl⟩
  · next some => exact Or.inr ⟨fun equal => some (same.2 equal), rfl⟩

/-- A diff is empty exactly if nothing differs. Otherwise its hunks, which follow two lines that
    name the texts, apply to the lines of the one text at the places that they give, and make the
    other text. -/
theorem diff_patches :
    (diff.unified existing generated path = "" ↔ existing = generated) ∧
      (existing ≠ generated → ∃ body,
        diff.unified existing generated path = heading path ++ body ∧
        patch? body.toList existing = some generated) := by
  have cases := unified_cases valid existing generated path
  refine ⟨⟨fun empty => ?_, fun equal => ?_⟩, fun differ => ?_⟩
  · rcases cases with ⟨equal, _⟩ | ⟨_, text⟩
    · exact equal
    · rw [text] at empty
      have texts := congrArg String.toList empty
      simp only [heading, String.toList_append, String.toList_empty, List.append_eq_nil_iff]
        at texts
      exact absurd texts.1.1.1.1.1 (by decide)
  · exact (cases.resolve_right fun ⟨differ, _⟩ => differ equal).2
  · obtain ⟨_, text⟩ := cases.resolve_left fun ⟨equal, _⟩ => differ equal
    refine ⟨_, text, ?_⟩
    rw [String.toList_ofList]
    exact patch?_edits (valid.leads _ _)

end

theorem scattered_changes_patched :
    unified "a\r\n1\n2\n3\n4\n5\n6\n7\nz" "b\r\n1\n2\n3\n4\n5\n6\n7\nz\n" ⟨"f"⟩
        = "--- f (existing)\n+++ f (generated)\n@@ -1,4 +1,4 @@\n-a\r\n+b\r\n 1\n 2\n 3\n"
          ++ "@@ -6,4 +6,4 @@\n 5\n 6\n 7\n-z\n\\ No newline at end of file\n+z\n" ∧
      ∃ body, unified "a\r\n1\n2\n3\n4\n5\n6\n7\nz" "b\r\n1\n2\n3\n4\n5\n6\n7\nz\n" ⟨"f"⟩
          = heading ⟨"f"⟩ ++ body ∧
        patch? body.toList "a\r\n1\n2\n3\n4\n5\n6\n7\nz"
          = some "b\r\n1\n2\n3\n4\n5\n6\n7\nz\n" := by
  have patched := diff_patches longest_valid "a\r\n1\n2\n3\n4\n5\n6\n7\nz"
    "b\r\n1\n2\n3\n4\n5\n6\n7\nz\n" ⟨"f"⟩
  exact ⟨by decide +kernel, patched.2 (by decide)⟩

example : patch? "@@ -1,2 +1,2 @@\n a\n-b\n+c\n\\ No newline at end of file\n".toList "a\nb\n"
    = some "a\nc" := by decide

/-- The line to be removed stands elsewhere. -/
example : patch? "@@ -1 +0,0 @@\n-b\n".toList "a\nb\n" = none := by decide

end BladeForm.Diff
