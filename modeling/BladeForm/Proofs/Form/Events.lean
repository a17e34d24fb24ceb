import BladeForm.Form.Markup
import BladeForm.Proofs.Name
import BladeForm.Proofs.Path
import BladeForm.Proofs.Search

/-!
What Blade markup does with variables, read off its text: where a loop over a collection opens
and closes, and which variables are read. A name ends where its characters do and a header
stands on one line, so the lines of a text can be read one by one, and indenting them changes
nothing.
-/
namespace BladeForm.Blade
open Name Text

inductive Event where
  | opens (collection item : String)
  | closes
  | reads (name : String)
deriving DecidableEq, Repr

def loopStart : String := "foreach ($"

def loopMiddle : String := " as $"

def loop (collection item : String) : List Char :=
  loopStart.toList ++ (collection.toList ++ (loopMiddle.toList ++ (item.toList ++ [')'])))

def loop? (cs : List Char) : Option (String × String) := do
  let cs ← after? loopStart.toList cs
  let collection := String.ofList (cs.takeWhile isWordChar)
  let cs ← after? loopMiddle.toList (cs.dropWhile isWordChar)
  let item := String.ofList (cs.takeWhile isWordChar)
  let _ ← after? [')'] (cs.dropWhile isWordChar)
  some (collection, item)

/-- The event at a character, given the text behind it. -/
def eventsAt (c : Char) (cs : List Char) : List Event :=
  if c = '$' then [.reads (String.ofList (cs.takeWhile isWordChar))]
  else if c = '@' then
    match loop? cs with
    | some (collection, item) => [.opens collection item]
    | none => if "endforeach".toList.isPrefixOf cs then [.closes] else []
  else []

def events : List Char → List Event
  | [] => []
  | c :: cs => eventsAt c cs ++ events cs

def Quiet (cs : List Char) : Prop := '$' ∉ cs ∧ '@' ∉ cs

instance (cs : List Char) : Decidable (Quiet cs) := inferInstanceAs (Decidable (_ ∧ _))

theorem quiet_append {xs ys : List Char} (first : Quiet xs) (second : Quiet ys) :
    Quiet (xs ++ ys) := by
  simp only [Quiet, List.mem_append, not_or]
  exact ⟨⟨first.1, second.1⟩, first.2, second.2⟩

theorem quiet_wordy {cs : List Char} (wordy : IsWordy cs) : Quiet cs :=
  ⟨fun member => absurd (wordy '$' member) (by decide),
    fun member => absurd (wordy '@' member) (by decide)⟩

theorem events_nil : events [] = [] := rfl

theorem eventsAt_other {c : Char} (dollar : c ≠ '$') (sign : c ≠ '@') (cs : List Char) :
    eventsAt c cs = [] := by rw [eventsAt, if_neg dollar, if_neg sign]

theorem events_quiet {xs : List Char} (quiet : Quiet xs) (ys : List Char) :
    events (xs ++ ys) = events ys := by
  induction xs with
  | nil => rfl
  | cons x xs ih =>
    simp only [Quiet, List.mem_cons, not_or] at quiet
    obtain ⟨⟨dollar, noDollar⟩, sign, noSign⟩ := quiet
    rw [List.cons_append, events, eventsAt_other (Ne.symm dollar) (Ne.symm sign), List.nil_append,
      ih ⟨noDollar, noSign⟩]

theorem events_none {cs : List Char} (quiet : Quiet cs) : events cs = [] := by
  rw [← List.append_nil cs, events_quiet quiet, events]

theorem events_variable {name : String} (wordy : IsWordy name.toList) {c : Char}
    (stop : isWordChar c = false) (cs : List Char) :
    events ('$' :: (name.toList ++ c :: cs)) = .reads name :: events (c :: cs) := by
  have span := @wordy_span name.toList (c :: cs) wordy (by simpa using stop)
  rw [events, eventsAt, if_pos rfl, span.1, String.ofList_toList, List.singleton_append,
    events_quiet (quiet_wordy wordy)]

theorem loop?_iff {cs : List Char} {collection item : String} :
    loop? cs = some (collection, item) ↔
      IsWordy collection.toList ∧ IsWordy item.toList ∧ loop collection item <+: cs := by
  have wordy : ∀ xs : List Char, IsWordy (xs.takeWhile isWordChar) :=
    fun xs c member => List.all_eq_true.1 List.all_takeWhile c member
  simp only [loop?, Option.bind_eq_bind, Option.bind_eq_some_iff, after?_iff, Option.some.injEq,
    Prod.mk.injEq]
  constructor
  · rintro ⟨behind, rfl, later, second, rest, third, rfl, rfl⟩
    rw [String.toList_ofList, String.toList_ofList]
    refine ⟨wordy behind, wordy later, rest, ?_⟩
    simp only [loop, String.toList_ofList, List.append_assoc]
    rw [← third, List.takeWhile_append_dropWhile, ← second, List.takeWhile_append_dropWhile]
  · rintro ⟨first, second, rest, rfl⟩
    have last := @wordy_span item.toList ([')'] ++ rest) second (by simp [isWordChar, isLetter])
    have middle := @wordy_span collection.toList
      (loopMiddle.toList ++ (item.toList ++ ([')'] ++ rest))) first (by simp [loopMiddle, isWordChar, isLetter])
    refine ⟨_, by rw [loop]; simp only [List.append_assoc], _, middle.2, rest, last.2, ?_, ?_⟩
    · rw [middle.1, String.ofList_toList]
    · rw [last.1, String.ofList_toList]

theorem events_other {c : Char} (dollar : c ≠ '$') (sign : c ≠ '@') (cs : List Char) :
    events (c :: cs) = events cs := by
  rw [events, eventsAt_other dollar sign, List.nil_append]

theorem events_loop {collection item : String} (first : IsWordy collection.toList)
    (second : IsWordy item.toList) (cs : List Char) :
    events ('@' :: (loop collection item ++ cs))
      = .opens collection item :: .reads collection :: .reads item :: events cs := by
  have found := loop?_iff.2 ⟨first, second, cs, rfl⟩
  have names : events (loop collection item ++ cs)
      = .reads collection :: .reads item :: events cs := by
    simp [loop, loopStart, loopMiddle, events_other, events_variable, first, second, isWordChar,
      isLetter]
  rw [events, eventsAt, if_neg (by decide), if_pos rfl, found, names]
  rfl

theorem takeWhile_break {p : Char → Bool} {b : Char} (stop : p b = false) (xs ys : List Char) :
    (xs ++ b :: ys).takeWhile p = xs.takeWhile p := by
  induction xs with
  | nil => simp [stop]
  | cons x xs ih => rw [List.cons_append, List.takeWhile_cons, List.takeWhile_cons, ih]

def IsBreak (b : Char) : Prop := b = '\n' ∨ b = '\r'

theorem eventsAt_break {b : Char} (cut : IsBreak b) (c : Char) (xs ys : List Char) :
    eventsAt c (xs ++ b :: ys) = eventsAt c xs := by
  -- neither a name nor a header has a line ending in it, so none reaches behind one
  have stop : isWordChar b = false := by rcases cut with rfl | rfl <;> decide
  have outside : ∀ {name : String}, IsWordy name.toList → b ∉ name.toList := by
    intro name wordy member
    rw [wordy b member] at stop
    contradiction
  have header : loop? (xs ++ b :: ys) = loop? xs := by
    refine Option.ext fun (collection, item) => ?_
    rw [loop?_iff, loop?_iff]
    refine and_congr_right fun first => and_congr_right fun second => begins_break ?_ ys
    rcases cut with rfl | rfl <;>
      simp [loop, loopStart, loopMiddle, outside first, outside second]
  have ending : "endforeach".toList.isPrefixOf (xs ++ b :: ys)
      = "endforeach".toList.isPrefixOf xs := by
    rw [Bool.eq_iff_iff, List.isPrefixOf_iff_prefix, List.isPrefixOf_iff_prefix]
    exact begins_break (by rcases cut with rfl | rfl <;> simp) ys
  rw [eventsAt, eventsAt, takeWhile_break stop, header, ending]

/-- What stands on two sides of a line ending is read on its own. -/
theorem events_break {b : Char} (cut : IsBreak b) (xs ys : List Char) :
    events (xs ++ b :: ys) = events xs ++ events ys := by
  induction xs with
  | nil => rcases cut with rfl | rfl <;> exact events_other (by decide) (by decide) ys
  | cons x xs ih =>
    rw [List.cons_append, events, events, eventsAt_break cut, ih, List.append_assoc]

theorem events_joined (pieces : List (List Char)) :
    events (joinWith ['\n'] pieces) = pieces.flatMap events := by
  induction pieces with
  | nil => rfl
  | cons piece rest ih =>
    cases rest with
    | nil => simp [joinWith]
    | cons next rest =>
      rw [joinWith, List.append_assoc, List.singleton_append, events_break (Or.inl rfl), ih]
      rfl

theorem events_dropReturn (line : List Char) : events (dropReturn line) = events line := by
  rw [dropReturn]
  split
  · next last =>
    obtain ⟨before, rfl⟩ := List.getLast?_eq_some_iff.1 last
    rw [List.dropLast_concat, events_break (Or.inr rfl), events, List.append_nil]
  · rfl

theorem events_endPieces (pieces : List (List Char)) :
    (endPieces pieces).flatMap events = pieces.flatMap events := by
  induction pieces with
  | nil => rfl
  | cons piece rest ih =>
    cases rest with
    | nil =>
      rw [endPieces]
      split
      · next empty => rw [List.isEmpty_iff.1 empty]; rfl
      · rfl
    | cons next rest => rw [endPieces, List.flatMap_cons, List.flatMap_cons, ih, events_dropReturn]

theorem events_indent (width : Nat) (cs : List Char) : events (indent width cs) = events cs := by
  have moved : ∀ line : List Char,
      events (if line.isEmpty then [] else List.replicate width ' ' ++ line) = events line := by
    intro line
    split
    · next empty => rw [List.isEmpty_iff.1 empty]
    · refine events_quiet ⟨?_, ?_⟩ line <;> simp
  rw [indent, events_joined, List.flatMap_map]
  simp only [moved]
  rw [lines, events_endPieces, ← events_joined, joinWith_splitAtEach (by simp)]

end BladeForm.Blade
