import BladeForm.Php.Quote

/-!
Quoted text and what it means. Escaping changes only the quote and the backslash, and reading
undoes it; no other text than itself reads as a text that needs no escapes.
-/
namespace BladeForm.Php

def isPlain (c : Char) : Bool := c ≠ '\'' && c ≠ '\\'

theorem special_cases {c : Char} (special : isPlain c = false) : c = '\'' ∨ c = '\\' := by
  by_cases quote : c = '\''
  · exact Or.inl quote
  · exact Or.inr (by simpa [isPlain, quote] using special)

theorem plain_not_quote {c : Char} (plain : isPlain c = true) : c ≠ '\'' := by
  rintro rfl
  contradiction

theorem escape_special {c : Char} (special : isPlain c = false) (cs : List Char) :
    escape (c :: cs) = '\\' :: c :: escape cs := by
  rcases special_cases special with rfl | rfl
  · rfl
  · rfl

theorem escape_cons {c : Char} (plain : isPlain c = true) (cs : List Char) :
    escape (c :: cs) = c :: escape cs := by
  simp only [isPlain, Bool.and_eq_true, decide_eq_true_eq] at plain
  simp [escape, plain]

theorem escape_plain {text : List Char} (plain : text.all isPlain = true) :
    escape text = text := by
  induction text with
  | nil => rfl
  | cons c cs ih =>
    simp only [List.all_cons, Bool.and_eq_true] at plain
    rw [escape_cons plain.1, ih plain.2]

theorem mem_escape {text : List Char} {c : Char} (member : c ∈ escape text) :
    c ∈ text ∨ c = '\\' := by
  induction text with
  | nil => cases member
  | cons d ds ih =>
    cases plain : isPlain d with
    | false =>
      rw [escape_special plain] at member
      rcases List.mem_cons.1 member with rfl | later
      · exact Or.inr rfl
      · rcases List.mem_cons.1 later with rfl | rest
        · exact Or.inl List.mem_cons_self
        · exact (ih rest).imp_left (List.mem_cons_of_mem d)
    | true =>
      rw [escape_cons plain] at member
      rcases List.mem_cons.1 member with rfl | rest
      · exact Or.inl List.mem_cons_self
      · exact (ih rest).imp_left (List.mem_cons_of_mem d)

theorem free_quote {s : String} {c : Char} (other : c ≠ '\\' ∧ c ≠ '\'') (free : c ∉ s.toList) :
    c ∉ (quote s).toList := by
  have escaped : c ∉ escape s.toList := fun member => (mem_escape member).elim free other.1
  simp [quote, escaped, other.2]

theorem unescape_cons {c : Char} (plain : isPlain c = true) (cs : List Char) :
    unescape (c :: cs) = c :: unescape cs := by
  rw [unescape]
  rintro _ _ rfl
  contradiction

theorem unescape_escape (text : List Char) : unescape (escape text) = text := by
  induction text with
  | nil => rfl
  | cons c cs ih =>
    cases plain : isPlain c with
    | false =>
      rw [escape_special plain]
      rcases special_cases plain with rfl | rfl
      · simp [unescape, ih]
      · simp [unescape, ih]
    | true => rw [escape_cons plain, unescape_cons plain, ih]

theorem unescape_plain_iff {key : List Char} (plain : key.all isPlain = true) (spelled : List Char) :
    unescape spelled = key ↔ spelled = key := by
  constructor
  · intro read
    induction spelled using unescape.induct generalizing key with
    | case1 c cs special ih =>
      rw [unescape, if_pos special] at read
      subst key
      simp only [List.all_cons, isPlain, Bool.and_eq_true, decide_eq_true_eq] at plain
      simp only [Bool.or_eq_true, decide_eq_true_eq] at special
      exact absurd special (not_or.2 ⟨plain.1.2, plain.1.1⟩)
    | case2 c cs special ih =>
      rw [unescape, if_neg special] at read
      subst key
      simp [isPlain] at plain
    | case3 c cs single ih =>
      rw [unescape.eq_2 c cs single] at read
      subst key
      simp only [List.all_cons, Bool.and_eq_true] at plain
      exact congrArg (List.cons c) (ih plain.2 rfl)
    | case4 => simpa [unescape] using read
  · rintro rfl
    induction spelled with
    | nil => rfl
    | cons c cs ih =>
      simp only [List.all_cons, Bool.and_eq_true] at plain
      rw [unescape_cons plain.1, ih plain.2]

/-- Quoted text up to the quote that ends it, and what stands behind that quote. A backslash takes
    the character behind it along. -/
def untilQuote? : List Char → Option (List Char × List Char)
  | [] => none
  | ['\\'] => none
  | '\\' :: c :: cs => (untilQuote? cs).map fun r => ('\\' :: c :: r.1, r.2)
  | c :: cs => if c = '\'' then some ([], cs) else (untilQuote? cs).map fun r => (c :: r.1, r.2)

def literal? : List Char → Option (List Char × List Char)
  | [] => none
  | c :: cs => if c = '\'' then (untilQuote? cs).map fun r => (unescape r.1, r.2) else none

theorem untilQuote?_cons {c : Char} (plain : isPlain c = true) (cs : List Char) :
    untilQuote? (c :: cs) = (untilQuote? cs).map fun r => (c :: r.1, r.2) := by
  simp only [isPlain, Bool.and_eq_true, decide_eq_true_eq] at plain
  rw [untilQuote?.eq_4, if_neg plain.1]
  · rintro rfl
    exact absurd rfl plain.2
  · rintro _ _ rfl
    exact absurd rfl plain.2

theorem untilQuote?_escape (text rest : List Char) :
    untilQuote? (escape text ++ '\'' :: rest) = some (escape text, rest) := by
  induction text with
  | nil => simp [escape, untilQuote?]
  | cons c cs ih =>
    cases plain : isPlain c with
    | false =>
      rw [escape_special plain, List.cons_append, List.cons_append, untilQuote?, ih]
      rfl
    | true =>
      rw [escape_cons plain, List.cons_append, untilQuote?_cons plain, ih]
      rfl

/-- An escaped text reads as itself, and its literal ends at the quote behind it. -/
theorem literal?_escape (text rest : List Char) :
    literal? ('\'' :: (escape text ++ '\'' :: rest)) = some (text, rest) := by
  rw [literal?, if_pos rfl, untilQuote?_escape, Option.map_some, unescape_escape]

end BladeForm.Php
