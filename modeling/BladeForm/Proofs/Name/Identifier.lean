import BladeForm.Proofs.Name

/-!
Which names become variables that are identifiers. A plural is an identifier exactly if its
singular is. A name of ASCII letters, digits and separators becomes one exactly if a letter is the
first of its characters that separates no words.
-/
namespace BladeForm

namespace Text

theorem clusterTail_other (s : ClusterState) (last : s.last = .other) {cs : List Char}
    (plain : ∀ c ∈ cs, clusterClass c = .other) :
    clusterTail s cs = ([], cs.map fun c => [c]) := by
  induction cs generalizing s with
  | nil => rfl
  | cons c cs ih =>
    obtain ⟨here, plain⟩ := List.forall_mem_cons.1 plain
    have apart : s.joins .other = false := by
      simp [ClusterState.joins, ClusterState.isBreak, ClusterClass.isExtending, last]
    rw [clusterTail]
    dsimp only
    rw [here, ih (s.next .other) rfl plain, apart]
    rfl

theorem clusters_other {cs : List Char} (plain : ∀ c ∈ cs, clusterClass c = .other) :
    clusters cs = cs.map fun c => [c] := by
  cases cs with
  | nil => rfl
  | cons c cs =>
    obtain ⟨here, plain⟩ := List.forall_mem_cons.1 plain
    rw [clusters]
    dsimp only
    rw [clusterTail_other _ here plain]
    rfl

end Text

namespace Name
open Text

def isSeparator (c : Char) : Bool := c = '_' || c = '-' || c = ' '

def isNameChar (c : Char) : Bool := isWordChar c || isSeparator c

theorem nameChar_other {c : Char} (spelled : isNameChar c = true) : clusterClass c = .other := by
  have ascii : c.toNat < 128 := by
    rcases Bool.or_eq_true_iff.1 spelled with word | separator
    · exact word_ascii word
    · simp only [isSeparator, Bool.or_eq_true, decide_eq_true_eq] at separator
      rcases separator with (rfl | rfl) | rfl <;> decide
  revert spelled
  exact @ascii_forall (fun c => isNameChar c = true → clusterClass c = .other) (by decide +kernel) c
    ascii

theorem words_spelled {name : List Char} (spelled : ∀ c ∈ name, isNameChar c = true) :
    (words name).flatten = name.filter fun c => !isSeparator c := by
  have delimiter (c : Char) : isDelimiter [c] = isSeparator c := by
    simp [isDelimiter, isSeparator]
  rw [words_flatten, clusters_other fun c member => nameChar_other (spelled c member)]
  induction name with
  | nil => rfl
  | cons c name ih =>
    have rest := ih (List.forall_mem_cons.1 spelled).2
    rw [List.map_cons, List.filter_cons, List.filter_cons, delimiter]
    split_ifs
    · rw [List.flatten_cons, rest, List.singleton_append]
    · exact rest

theorem wordy_spelled {name : List Char} (spelled : ∀ c ∈ name, isNameChar c = true) :
    IsWordy (camelChars name) := by
  refine closed_word.all_camel_words fun w word c member => ?_
  have among : c ∈ (words name).flatten := List.mem_flatten.2 ⟨w, word, member⟩
  rw [words_spelled spelled] at among
  obtain ⟨inside, other⟩ := List.mem_filter.1 among
  rcases Bool.or_eq_true_iff.1 (spelled c inside) with word | separator
  · exact word
  · simp [separator] at other

theorem capitalized_begins {ws : List (List Char)} {c : Char} {cs : List Char}
    (first : ws.flatten = c :: cs) (word : isWordChar c = true) :
    ∃ ds, (ws.map capitalized).flatten = c.toUpper :: ds := by
  induction ws with
  | nil => cases first
  | cons w ws ih =>
    cases w with
    | nil => exact ih first
    | cons d w =>
      rw [List.flatten_cons, List.cons_append] at first
      obtain ⟨rfl, _⟩ := List.cons.inj first
      rw [List.map_cons, List.flatten_cons, capitalized, upperChar, if_pos (word_ascii word)]
      exact ⟨_, rfl⟩

theorem camel_begins {name cs : List Char} {c : Char} (first : (words name).flatten = c :: cs)
    (word : isWordChar c = true) :
    ∃ d ds, camelChars name = d :: ds ∧ (d = c.toLower ∨ d = c.toUpper) := by
  rw [camelChars]
  cases split : words name with
  | nil =>
    rw [split] at first
    cases first
  | cons w ws =>
    rw [split, List.flatten_cons] at first
    cases w with
    | nil =>
      obtain ⟨ds, begins⟩ := capitalized_begins first word
      exact ⟨c.toUpper, ds, begins, Or.inr rfl⟩
    | cons d w =>
      rw [List.cons_append] at first
      obtain ⟨rfl, _⟩ := List.cons.inj first
      obtain ⟨ds, begins⟩ := lower_begins word w
      dsimp only
      rw [begins]
      exact ⟨_, _, rfl, Or.inl rfl⟩

theorem camel_nil {name : List Char} (none : (words name).flatten = []) : camelChars name = [] := by
  have empty : ∀ w ∈ words name, w = [] := by simpa using none
  rw [camelChars]
  cases split : words name with
  | nil => rfl
  | cons w ws =>
    rw [split, List.forall_mem_cons] at empty
    have later : (ws.map capitalized).flatten = [] := by
      rw [List.flatten_eq_nil_iff]
      intro v member
      obtain ⟨u, among, rfl⟩ := List.mem_map.1 member
      rw [empty.2 u among]
      rfl
    dsimp only
    rw [empty.1, later]
    rfl

theorem case_starts {c d : Char} (word : isWordChar c = true) (visible : isSeparator c = false)
    (cased : d = c.toLower ∨ d = c.toUpper) :
    (isLetter d || decide (d = '_')) = isLetter c := by
  have both : isWordChar c = true → isSeparator c = false →
      (isLetter c.toLower || decide (c.toLower = '_')) = isLetter c ∧
        (isLetter c.toUpper || decide (c.toUpper = '_')) = isLetter c :=
    @ascii_forall (fun c => isWordChar c = true → isSeparator c = false →
      (isLetter c.toLower || decide (c.toLower = '_')) = isLetter c ∧
        (isLetter c.toUpper || decide (c.toUpper = '_')) = isLetter c) (by decide +kernel) c
      (word_ascii word)
  rcases cased with rfl | rfl
  · exact (both word visible).1
  · exact (both word visible).2

/-- The variable of a name is an identifier exactly if a letter is the first of its characters that
    separates no words. -/
theorem variable_identifier {name : String} (spelled : ∀ c ∈ name.toList, isNameChar c = true) :
    isIdentifier (singularVariable name) = true ↔
      ∃ c ∈ name.toList.find? fun c => !isSeparator c, isLetter c = true := by
  have flat := words_spelled spelled
  rw [isIdentifier, singularVariable, String.toList_ofList]
  cases kept : name.toList.filter fun c => !isSeparator c with
  | nil =>
    have none : name.toList.find? (fun c => !isSeparator c) = none := by
      rw [← List.head?_filter, kept]
      rfl
    rw [camel_nil (flat.trans kept), none]
    simp [startsAndContinues]
  | cons c cs =>
    have found : name.toList.find? (fun c => !isSeparator c) = some c := by
      rw [← List.head?_filter, kept]
      rfl
    have visible : isSeparator c = false := by simpa using List.find?_some found
    have word : isWordChar c = true := by
      rcases Bool.or_eq_true_iff.1 (spelled c (List.mem_of_find?_eq_some found)) with word | other
      · exact word
      · rw [visible] at other
        cases other
    obtain ⟨d, ds, begins, cased⟩ := camel_begins (flat.trans kept) word
    have wordy := wordy_spelled spelled
    rw [begins, IsWordy, List.forall_mem_cons] at wordy
    have rest : ds.all isWordChar = true := List.all_eq_true.2 wordy.2
    rw [begins, found, startsAndContinues, case_starts word visible cased, rest, Bool.and_true]
    simp

theorem starts_append {first rest : Char → Bool} {xs : List Char} (some : xs ≠ [])
    (ys : List Char) : startsAndContinues first rest (xs ++ ys)
      = (startsAndContinues first rest xs && ys.all rest) := by
  cases xs with
  | nil => exact absurd rfl some
  | cons x xs =>
    rw [List.cons_append, startsAndContinues, startsAndContinues, List.all_append, Bool.and_assoc]

theorem plural_starts (first : Char → Bool) (word : List Char) :
    startsAndContinues first isWordChar (pluralChars word)
      = startsAndContinues first isWordChar word := by
  rw [pluralChars]
  split
  · next none => rw [List.reverse_eq_nil_iff.1 none]
  · next c before reversed =>
    have spelled : word = (c :: before).reverse ++ ['y'] := by
      rw [← List.reverse_cons, ← reversed, List.reverse_reverse]
    have some : (c :: before).reverse ≠ [] := by simp
    split_ifs
    · rw [starts_append (by rw [spelled]; simp)]
      simp [isWordChar, isLetter]
    · rw [spelled, starts_append some, starts_append some]
      rfl
  · next ended _ =>
    have some : word ≠ [] := by
      rintro rfl
      exact ended rfl
    split_ifs <;> rw [starts_append some] <;> simp [isWordChar, isLetter]

theorem plural_identifier (word : String) : isIdentifier (plural word) = isIdentifier word := by
  rw [isIdentifier, plural, String.toList_ofList, plural_starts]
  rfl

theorem plural_other {word : String} (valid : isIdentifier word = true) : plural word ≠ word := by
  intro same
  obtain ⟨c, cs, spelled, _⟩ := starts_split valid
  have longer := plural_longer (show word.toList ≠ [] by rw [spelled]; simp)
  have length := congrArg (fun s : String => s.toList.length) same
  rw [plural, String.toList_ofList] at length
  omega

end Name

end BladeForm
