import BladeForm.Proofs.Search
import Mathlib.Data.List.Basic
import Mathlib.Data.List.TakeWhile

/-!
What stripping keeps. The characters of a class are taken from both ends of a text, as many as
stand there, so the text falls into two ends of the class around a middle that neither begins nor
ends with it; and that middle is the only one.
-/
namespace BladeForm.Text
variable {p q : Char → Bool} {cs front core back : List Char}

structure IsBare (p : Char → Bool) (cs : List Char) : Prop where
  first : ∀ c ∈ cs.head?, p c = false
  last : ∀ c ∈ cs.getLast?, p c = false

/-- A bare middle between two ends that are all of the class. -/
structure Surrounded (p : Char → Bool) (cs front core back : List Char) : Prop where
  split : cs = front ++ (core ++ back)
  front_all : front.all p = true
  back_all : back.all p = true
  bare : IsBare p core

theorem bare_nil : IsBare p [] := ⟨by simp, by simp⟩

theorem bare_of_free (free : ∀ c ∈ cs, p c = false) : IsBare p cs :=
  ⟨fun c head => free c (List.mem_of_head? head), fun c last => free c (List.mem_of_getLast? last)⟩

theorem bare_append {xs ys : List Char} (left : IsBare p xs) (right : IsBare p ys) :
    IsBare p (xs ++ ys) := by
  constructor
  · cases xs with
    | nil => exact right.first
    | cons x xs => exact left.first
  · cases ys with
    | nil =>
      rw [List.append_nil]
      exact left.last
    | cons y ys =>
      rw [List.getLast?_append_of_ne_nil xs (List.cons_ne_nil y ys)]
      exact right.last

theorem bare_or_iff : IsBare (fun c => p c || q c) cs ↔ IsBare p cs ∧ IsBare q cs := by
  constructor
  · rintro ⟨first, last⟩
    simp only [Bool.or_eq_false_iff] at first last
    exact ⟨⟨fun c head => (first c head).1, fun c final => (last c final).1⟩,
      ⟨fun c head => (first c head).2, fun c final => (last c final).2⟩⟩
  · rintro ⟨here, there⟩
    constructor
    · intro c head
      rw [here.first c head, there.first c head, Bool.or_false]
    · intro c final
      rw [here.last c final, there.last c final, Bool.or_false]

theorem dropEnd_last (cs : List Char) : ∀ c ∈ (dropEnd p cs).getLast?, p c = false := by
  induction cs with
  | nil => simp [dropEnd]
  | cons c cs ih =>
    rw [dropEnd]
    split
    · split
      · simp
      · next kept => simpa using kept
    · next some =>
      rw [List.getLast?_cons_of_ne_nil some]
      exact ih

theorem strip_surrounded (p : Char → Bool) (cs : List Char) :
    ∃ front back, Surrounded p cs front (strip p cs) back := by
  obtain ⟨back, rest, all⟩ := dropEnd_split p (cs.dropWhile p)
  refine ⟨cs.takeWhile p, back, ?_, by simp [List.all_takeWhile], all, ?_, dropEnd_last _⟩
  · rw [strip, ← rest, List.takeWhile_append_dropWhile]
  · -- What is kept begins as the text behind its front does, if it begins at all.
    intro c head
    rw [Option.mem_def, strip] at head
    have begins : (cs.dropWhile p).head? = some c := by
      rw [rest, List.head?_append, head, Option.some_or]
    have stop := List.head?_dropWhile_not p cs
    rw [begins] at stop
    simpa using stop

theorem surrounded_strip (within : Surrounded p cs front core back) : strip p cs = core := by
  have front_all : ∀ c ∈ front, p c = true := by simpa using within.front_all
  rw [strip, within.split, List.dropWhile_append_of_pos front_all]
  rcases List.eq_nil_or_concat core with rfl | ⟨init, last, rfl⟩
  · have none : back.dropWhile p = [] :=
      List.dropWhile_eq_nil_iff.2 (by simpa using within.back_all)
    rw [List.nil_append, none, dropEnd]
  · have stop : p last = false := within.bare.last last (by simp)
    have kept : ((init ++ [last]) ++ back).dropWhile p = (init ++ [last]) ++ back := by
      cases init with
      | nil => simp [stop]
      | cons c cs => simp [within.bare.first c (by simp)]
    rw [List.concat_eq_append, kept, List.append_assoc, List.singleton_append,
      dropEnd_append within.back_all stop]

theorem strip_eq_iff : strip p cs = core ↔ ∃ front back, Surrounded p cs front core back := by
  constructor
  · rintro rfl
    exact strip_surrounded p cs
  · rintro ⟨front, back, within⟩
    exact surrounded_strip within

theorem strip_bare (p : Char → Bool) (cs : List Char) : IsBare p (strip p cs) :=
  have ⟨_, _, within⟩ := strip_surrounded p cs
  within.bare

theorem strip_self_iff : strip p cs = cs ↔ IsBare p cs := by
  constructor
  · intro same
    rw [← same]
    exact strip_bare p cs
  · intro bare
    exact strip_eq_iff.2 ⟨[], [], (List.append_nil cs).symm, rfl, rfl, bare⟩

theorem strip_all (all : cs.all p = true) : strip p cs = [] :=
  surrounded_strip ⟨(List.append_nil cs).symm, all, rfl, bare_nil⟩

theorem strip_sublist (p : Char → Bool) (cs : List Char) : (strip p cs).Sublist cs := by
  obtain ⟨front, back, within⟩ := strip_surrounded p cs
  conv => rhs; rw [within.split]
  exact (List.sublist_append_left _ _).trans (List.sublist_append_right _ _)

end BladeForm.Text
