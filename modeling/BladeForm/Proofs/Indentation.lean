import BladeForm.Proofs.Path
import BladeForm.Proofs.Search

/-!
Lines that move to the right, a character at a time. A margin goes behind each line feed unless an
empty line follows, and a carriage return before a line feed is dropped. All other characters
stay, so a text can be cut at any of them and moved piece by piece, also when it moves again.
-/
namespace BladeForm.Text

def ending : List Char := ['\r', '\n']

def emptyAhead (cs : List Char) : Bool := ['\n'].isPrefixOf cs || ending.isPrefixOf cs

def margin (width : Nat) (cs : List Char) : List Char :=
  if emptyAhead cs then [] else List.replicate width ' '

def moved (width : Nat) : List Char → List Char
  | [] => []
  | c :: cs =>
    if c = '\n' then '\n' :: (margin width cs ++ moved width cs)
    else if ending.isPrefixOf (c :: cs) then moved width cs
    else c :: moved width cs

variable {width : Nat} {c : Char} {cs line xs : List Char}

theorem moved_feed (cs : List Char) :
    moved width ('\n' :: cs) = '\n' :: (margin width cs ++ moved width cs) := by
  rw [moved, if_pos rfl]

theorem moved_return (cs : List Char) :
    moved width ('\r' :: '\n' :: cs) = moved width ('\n' :: cs) := by
  rw [moved, if_neg (by decide), if_pos (by simp [ending])]

theorem moved_other (feed : c ≠ '\n') (other : ¬ ending <+: c :: cs) :
    moved width (c :: cs) = c :: moved width cs := by
  rw [moved, if_neg feed, if_neg (by simpa using other)]

theorem lines_cons (free : '\n' ∉ line) (cs : List Char) :
    lines (line ++ '\n' :: cs) = dropReturn line :: lines cs := by
  have first : splitAtEach (· = '\n') line = [line] :=
    splitAtEach_free fun c member => decide_eq_false fun same => free (same ▸ member)
  rw [lines, lines, splitAtEach_append (by simp), first]
  cases split : splitAtEach (· = '\n') cs with
  | nil => exact absurd split (splitAtEach_ne_nil _ cs)
  | cons piece pieces => rfl

theorem lines_last (free : '\n' ∉ line) (ne : line ≠ []) : lines line = [line] := by
  have single : splitAtEach (· = '\n') line = [line] :=
    splitAtEach_free fun c member => decide_eq_false fun same => free (same ▸ member)
  simp [lines, single, endPieces, ne]

theorem lines_ne (ne : cs ≠ []) : lines cs ≠ [] := by
  by_cases feed : '\n' ∈ cs
  · obtain ⟨line, rest, rfl, free⟩ := List.eq_append_cons_of_mem feed
    simp [lines_cons free]
  · simp [lines_last feed ne]

def placed (width : Nat) (line : List Char) : List Char :=
  if line.isEmpty then [] else List.replicate width ' ' ++ line

theorem indent_cons (free : '\n' ∉ line) (ne : cs ≠ []) :
    indent width (line ++ '\n' :: cs)
      = placed width (dropReturn line) ++ '\n' :: indent width cs := by
  obtain ⟨next, rest, split⟩ := List.exists_cons_of_ne_nil (lines_ne ne)
  rw [indent, indent, lines_cons free, split]
  simp [joinWith, placed]

theorem moved_free (free : '\n' ∉ line) : moved width line = line := by
  induction line with
  | nil => rfl
  | cons c cs ih =>
    simp only [List.mem_cons, not_or] at free
    have inside : ¬ ending <+: c :: cs := fun ahead =>
      absurd (ahead.subset (by simp [ending] : '\n' ∈ ending)) (by simp [free])
    rw [moved_other (Ne.symm free.1) inside, ih free.2]

theorem margin_free (free : '\n' ∉ cs) : margin width cs = List.replicate width ' ' := by
  rw [margin, if_neg]
  intro ahead
  refine free ?_
  rcases Bool.or_eq_true_iff.1 ahead with ahead | ahead
  · exact (List.isPrefixOf_iff_prefix.1 ahead).subset (by simp)
  · exact (List.isPrefixOf_iff_prefix.1 ahead).subset (by simp [ending])

theorem moved_cons (free : '\n' ∉ line) (cs : List Char) :
    moved width (line ++ '\n' :: cs)
      = dropReturn line ++ '\n' :: (margin width cs ++ moved width cs) := by
  induction line with
  | nil => exact moved_feed cs
  | cons c line ih =>
    simp only [List.mem_cons, not_or] at free
    cases line with
    | nil =>
      by_cases last : c = '\r'
      · subst c
        exact (moved_return cs).trans (moved_feed cs)
      · rw [List.singleton_append, moved_other (Ne.symm free.1) (by simp [ending, Ne.symm last]),
          moved_feed]
        simp [dropReturn, last]
    | cons d line =>
      have later : ¬ ending <+: c :: d :: (line ++ '\n' :: cs) := by
        simp only [ending, List.cons_prefix_cons, List.nil_prefix, and_true, not_and]
        rintro rfl rfl
        simp at free
      have kept : dropReturn (c :: d :: line) = c :: dropReturn (d :: line) := by
        simp only [dropReturn, List.getLast?_cons_cons, List.dropLast_cons_cons]
        split <;> rfl
      rw [List.cons_append, List.cons_append, moved_other (Ne.symm free.1) later,
        ← List.cons_append, ih free.2, kept, List.cons_append]

theorem margin_line (free : '\n' ∉ line) (cs : List Char) :
    margin width (line ++ '\n' :: cs) ++ dropReturn line = placed width (dropReturn line) := by
  cases line with
  | nil => simp [margin, emptyAhead, dropReturn, placed]
  | cons c line =>
    simp only [List.mem_cons, not_or] at free
    cases line with
    | nil =>
      by_cases last : c = '\r'
      · subst c
        simp [margin, emptyAhead, ending, dropReturn, placed]
      · simp [margin, emptyAhead, ending, dropReturn, placed, free, Ne.symm last, last]
    | cons d line =>
      simp only [List.mem_cons, not_or] at free
      have ne : dropReturn (c :: d :: line) ≠ [] := by
        rw [dropReturn]
        split <;> simp
      simp [margin, emptyAhead, ending, placed, free, ne]

/-- Moving the lines of a text that ends in none: the first one gets its margin too. -/
theorem indent_moved {width : Nat} {cs : List Char} (ne : cs ≠ [])
    (last : cs.getLast? ≠ some '\n') :
    indent width cs = margin width cs ++ moved width cs := by
  by_cases feed : '\n' ∈ cs
  · obtain ⟨line, rest, rfl, free⟩ := List.eq_append_cons_of_mem feed
    have more : rest ≠ [] := by
      rintro rfl
      simp at last
    have stop : rest.getLast? ≠ some '\n' := by
      obtain ⟨c, tail, rfl⟩ := List.exists_cons_of_ne_nil more
      simpa using last
    rw [indent_cons free more, indent_moved more stop, moved_cons free, ← List.append_assoc,
      margin_line free]
  · have empty : emptyAhead cs = false := by
      rw [Bool.eq_false_iff]
      intro ahead
      refine feed ?_
      rcases Bool.or_eq_true_iff.1 ahead with ahead | ahead
      · exact (List.isPrefixOf_iff_prefix.1 ahead).subset (by simp)
      · exact (List.isPrefixOf_iff_prefix.1 ahead).subset (by simp [ending])
    rw [indent, lines_last feed ne, moved_free feed, margin, empty]
    simp [joinWith, ne]
termination_by cs.length

/-- Changes a text at its line endings only, and brings nothing in but blanks: it goes on in the
    same way behind every other character. -/
structure Reflows (turn : List Char → List Char) : Prop where
  cut : ∀ {c : Char}, c ∉ ending → ∀ xs ys : List Char,
    turn (xs ++ c :: ys) = turn xs ++ c :: turn ys
  nil : turn [] = []
  source : ∀ {c : Char} {cs : List Char}, c ∈ turn cs → c ∈ cs ∨ c = ' '

theorem emptyAhead_cut (kept : c ∉ ending) (xs ys : List Char) :
    emptyAhead (xs ++ c :: ys) = emptyAhead xs := by
  have feed : c ∉ ['\n'] := fun member => kept (List.mem_cons_of_mem _ member)
  rw [Bool.eq_iff_iff]
  simp only [emptyAhead, Bool.or_eq_true, List.isPrefixOf_iff_prefix, begins_break feed,
    begins_break kept]

theorem moved_cut (kept : c ∉ ending) (xs ys : List Char) :
    moved width (xs ++ c :: ys) = moved width xs ++ c :: moved width ys := by
  induction xs with
  | nil =>
    have feed : c ≠ '\n' := by
      rintro rfl
      exact kept (by simp [ending])
    refine moved_other feed fun ahead => kept ?_
    rw [(List.cons_prefix_cons.1 ahead).1.symm]
    exact List.mem_cons_self
  | cons x xs ih =>
    have same : ending <+: x :: (xs ++ c :: ys) ↔ ending <+: x :: xs :=
      @begins_break ending (x :: xs) c kept ys
    simp only [List.cons_append, moved, margin, emptyAhead_cut kept, ih, List.isPrefixOf_iff_prefix,
      same]
    split_ifs <;> simp

theorem moved_source (member : c ∈ moved width cs) : c ∈ cs ∨ c = ' ' := by
  induction cs with
  | nil => cases member
  | cons d cs ih =>
    rw [moved] at member
    split_ifs at member with feed inside
    · rcases List.mem_cons.1 member with rfl | member
      · exact Or.inl (by simp [feed])
      · rcases List.mem_append.1 member with blank | later
        · right
          rw [margin] at blank
          split_ifs at blank
          · cases blank
          · exact List.eq_of_mem_replicate blank
        · exact (ih later).imp_left (List.mem_cons_of_mem d)
    · exact (ih member).imp_left (List.mem_cons_of_mem d)
    · rcases List.mem_cons.1 member with rfl | later
      · exact Or.inl List.mem_cons_self
      · exact (ih later).imp_left (List.mem_cons_of_mem d)

theorem reflows_moved (width : Nat) : Reflows (moved width) := ⟨moved_cut, rfl, moved_source⟩

namespace Reflows
variable {turn again : List Char → List Char}

theorem comp (second : Reflows again) (first : Reflows turn) : Reflows (again ∘ turn) where
  cut kept xs ys := by
    rw [Function.comp_apply, first.cut kept, second.cut kept]
    rfl
  nil := by rw [Function.comp_apply, first.nil, second.nil]
  source member := (second.source member).elim first.source Or.inr

variable (reflows : Reflows turn)
include reflows

theorem kept (free : '\r' ∉ xs ∧ '\n' ∉ xs) (ys : List Char) : turn (xs ++ ys) = xs ++ turn ys := by
  induction xs with
  | nil => rfl
  | cons x xs ih =>
    simp only [List.mem_cons, not_or] at free
    obtain ⟨⟨carriage, noCarriage⟩, feed, noFeed⟩ := free
    have other : x ∉ ending := by simp [ending, Ne.symm carriage, Ne.symm feed]
    have first := reflows.cut other [] (xs ++ ys)
    rw [reflows.nil, List.nil_append, List.nil_append] at first
    rw [List.cons_append, first, ih ⟨noCarriage, noFeed⟩, List.cons_append]

theorem same (free : '\r' ∉ xs ∧ '\n' ∉ xs) : turn xs = xs := by
  have := reflows.kept free []
  rwa [reflows.nil, List.append_nil] at this

theorem notMem (other : c ≠ ' ') (free : c ∉ cs) : c ∉ turn cs :=
  fun member => (reflows.source member).elim free other

end Reflows

theorem count_moved (width : Nat) (cs : List Char) :
    cs.count ' ' ≤ (moved width cs).count ' ' := by
  induction cs with
  | nil => simp [moved]
  | cons c cs ih =>
    rw [moved]
    split_ifs with feed inside
    · subst c
      simp only [List.count_cons, List.count_append]
      omega
    · have first : c ≠ ' ' := by
        rintro rfl
        simp [ending] at inside
      simpa [first] using ih
    · simp only [List.count_cons]
      omega

theorem count_moved_lt (wide : 0 < width) (feed : '\n' ∈ cs) :
    cs.count ' ' < (moved width cs).count ' ' := by
  induction cs with
  | nil => cases feed
  | cons c cs ih =>
    by_cases later : '\n' ∈ cs
    · have more := ih later
      rw [moved]
      split_ifs with first inside
      · subst c
        simp only [List.count_cons, List.count_append]
        omega
      · have other : c ≠ ' ' := by
          rintro rfl
          simp [ending] at inside
        simpa [other] using more
      · simp only [List.count_cons]
        omega
    · -- the last line feed has a margin behind it
      have first : c = '\n' := ((List.mem_cons.1 feed).resolve_right later).symm
      subst c
      rw [moved_feed, margin_free later, moved_free later]
      simp only [List.count_cons, List.count_append, List.count_replicate_self]
      omega

theorem moved_same_iff (wide : 0 < width) : moved width cs = cs ↔ '\n' ∉ cs := by
  constructor
  · intro same feed
    have more := count_moved_lt wide feed
    rw [same] at more
    exact Nat.lt_irrefl _ more
  · exact moved_free

/-- What a second move brings in does not undo the first. -/
theorem moved_twice_iff {again : Nat} (wide : 0 < width) :
    moved again (moved width cs) = cs ↔ '\n' ∉ cs := by
  constructor
  · intro same feed
    have more := Nat.lt_of_lt_of_le (count_moved_lt wide feed) (count_moved again _)
    rw [same] at more
    exact Nat.lt_irrefl _ more
  · intro free
    rw [moved_free free, moved_free free]

end BladeForm.Text
