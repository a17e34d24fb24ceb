import BladeForm.Proofs.Name.Identifier
import BladeForm.Proofs.Path

/-!
The two plurals of a model. One is made of its variable, where words run together and begin with
capitals, the other of its snake case, where underscores part them. The last two characters choose
the ending of a plural, and behind a short last word these differ: a capital is no `x` and no vowel,
and an underscore counts as a consonant. So the plurals are one word exactly if the last word has
the same ending in both spellings.
-/
namespace BladeForm.Name
open Text
variable {cs w word : List Char} {ws : List (List Char)} {name : String}

inductive Ending where
  | plain
  | syllable
  | softened
deriving DecidableEq

def endingOf (before last : Char) : Ending :=
  if last = 'y' then if isVowel before then .plain else .softened
  else if last = 's' ∨ last = 'x' ∨ last = 'z' ∨ last = 'h' ∧ (before = 's' ∨ before = 'c') then
    .syllable
  else .plain

def Ending.close (word : List Char) : Ending → List Char
  | .plain => word ++ ['s']
  | .syllable => word ++ ['e', 's']
  | .softened => word.dropLast ++ ['i', 'e', 's']

def Ending.Fits (word : List Char) (e : Ending) : Prop :=
  e = .softened → ∃ stem, word = stem ++ ['y']

theorem plural_two (front : List Char) (b a : Char) :
    pluralChars (front ++ [b, a]) = (endingOf b a).close (front ++ [b, a]) := by
  have reversed : (front ++ [b, a]).reverse = a :: b :: front.reverse := by simp
  rw [pluralChars, reversed, endingOf]
  by_cases y : a = 'y'
  · subst y
    cases vowel : isVowel b <;> simp [vowel, Ending.close]
  · simp only [y, ↓reduceIte]
    have hissing : hisses (a :: b :: front.reverse) = true ↔
        a = 's' ∨ a = 'x' ∨ a = 'z' ∨ a = 'h' ∧ (b = 's' ∨ b = 'c') := by
      unfold hisses
      split <;> simp_all
    split_ifs <;> simp_all [Ending.close]

theorem ending_fits (front : List Char) (b a : Char) : (endingOf b a).Fits (front ++ [b, a]) := by
  intro softened
  rw [endingOf] at softened
  split_ifs at softened with y
  exact ⟨front ++ [b], by rw [y, List.append_assoc, List.singleton_append]⟩

theorem plural_closes (some : word ≠ []) : ∃ e : Ending, pluralChars word = e.close word ∧
    e.Fits word := by
  rcases List.eq_nil_or_concat word with none | ⟨init, a, rfl⟩
  · exact absurd none some
  · rw [List.concat_eq_append]
    rcases List.eq_nil_or_concat init with rfl | ⟨front, b, rfl⟩
    · -- a letter alone is never softened
      rw [List.nil_append, pluralChars, List.reverse_singleton]
      split
      · next none => cases none
      · next two => cases two
      · split_ifs
        · exact ⟨.syllable, rfl, fun softened => by cases softened⟩
        · exact ⟨.plain, rfl, fun softened => by cases softened⟩
    · rw [List.concat_eq_append, List.append_assoc, List.singleton_append]
      exact ⟨endingOf b a, plural_two front b a, ending_fits front b a⟩

theorem close_inj {e e' : Ending} (fits : e.Fits word) (fits' : e'.Fits word) :
    e.close word = e'.close word ↔ e = e' := by
  have apart : Ending.Fits word .softened → ∀ e : Ending, e ≠ .softened →
      Ending.close word .softened ≠ e.close word := by
    intro fits e other same
    obtain ⟨stem, rfl⟩ := fits rfl
    cases e <;> simp_all [Ending.close]
  constructor
  · intro same
    by_cases soft : e = .softened
    · by_contra differ
      subst soft
      exact apart fits e' (Ne.symm differ) same
    · by_cases soft' : e' = .softened
      · subst soft'
        exact absurd same.symm (apart fits' e soft)
      · cases e <;> cases e' <;> simp_all [Ending.close]
  · rintro rfl
    rfl

/-- The letters of a text, in lower case: what is heard of a name, however it is spelled. -/
def letters (cs : List Char) : List Char := (cs.filter (· ≠ '_')).map Char.toLower

theorem letters_append (xs ys : List Char) : letters (xs ++ ys) = letters xs ++ letters ys := by
  rw [letters, List.filter_append, List.map_append]
  rfl

theorem letters_flatten (ws : List (List Char)) :
    letters ws.flatten = (ws.map letters).flatten := by
  induction ws with
  | nil => rfl
  | cons w ws ih => rw [List.flatten_cons, letters_append, ih, List.map_cons, List.flatten_cons]

theorem letters_close {e : Ending} (fits : e.Fits word) :
    letters (e.close word) = e.close (letters word) ∧ e.Fits (letters word) := by
  cases e with
  | plain => exact ⟨letters_append _ _, fun softened => by cases softened⟩
  | syllable => exact ⟨letters_append _ _, fun softened => by cases softened⟩
  | softened =>
    obtain ⟨stem, rfl⟩ := fits rfl
    have y : letters (stem ++ ['y']) = letters stem ++ ['y'] := letters_append _ _
    refine ⟨?_, fun _ => ⟨letters stem, y⟩⟩
    rw [y, Ending.close, Ending.close, List.dropLast_concat, List.dropLast_concat]
    exact letters_append _ _

theorem letters_plural_iff {cs : List Char} {e e' : Ending} (same : letters word = letters cs)
    (closed : pluralChars word = e.close word) (fits : e.Fits word)
    (closed' : pluralChars cs = e'.close cs) (fits' : e'.Fits cs) :
    letters (pluralChars word) = letters (pluralChars cs) ↔ e = e' := by
  rw [closed, closed', (letters_close fits).1, (letters_close fits').1, same]
  exact close_inj (same ▸ (letters_close fits).2) (letters_close fits').2

def IsWord (w : List Char) : Prop := ∀ c ∈ w, isWordChar c = true ∧ c ≠ '_'

theorem word_cased {c : Char} (word : isWordChar c = true) (other : c ≠ '_') :
    (c.toLower ≠ '_' ∧ c.toLower.toLower = c.toLower) ∧
      (c.toUpper ≠ '_' ∧ c.toUpper.toLower = c.toLower) := by
  have ascii := word_ascii word
  revert word other
  exact @ascii_forall (fun c => isWordChar c = true → c ≠ '_' →
    (c.toLower ≠ '_' ∧ c.toLower.toLower = c.toLower) ∧
      (c.toUpper ≠ '_' ∧ c.toUpper.toLower = c.toLower)) (by decide +kernel) c ascii

theorem upper_apart {c : Char} (word : isWordChar c = true) :
    c.toUpper ∉ ['y', 's', 'x', 'z', 'h', 'c'] ∧ isVowel c.toUpper = false := by
  have ascii := word_ascii word
  revert word
  exact @ascii_forall (fun c => isWordChar c = true →
    c.toUpper ∉ ['y', 's', 'x', 'z', 'h', 'c'] ∧ isVowel c.toUpper = false)
    (by decide +kernel) c ascii

theorem IsWord.wordy (word : IsWord w) : IsWordy w := fun c member => (word c member).1

theorem letters_plain (plain : ∀ c ∈ cs, c ≠ '_') : letters cs = cs.map Char.toLower := by
  rw [letters, List.filter_eq_self.2 (by simpa using plain)]

theorem letters_lower (word : IsWord w) : letters (lower w) = w.map Char.toLower := by
  rw [lower_wordy word.wordy, letters_plain, List.map_map]
  · exact List.map_congr_left fun c member => (word_cased (word c member).1 (word c member).2).1.2
  · intro c member
    obtain ⟨d, inside, rfl⟩ := List.mem_map.1 member
    exact (word_cased (word d inside).1 (word d inside).2).1.1

theorem letters_capitalized (word : IsWord w) : letters (capitalized w) = w.map Char.toLower := by
  cases w with
  | nil => rfl
  | cons c w =>
    obtain ⟨⟨first, other⟩, rest⟩ := List.forall_mem_cons.1 word
    obtain ⟨apart, same⟩ := (word_cased first other).2
    have tail := letters_lower rest
    rw [lower_wordy (IsWord.wordy rest)] at tail
    rw [capitalized_wordy word.wordy, ← List.singleton_append, letters_append, tail,
      letters_plain (by simpa using apart), List.map_singleton, same]
    rfl

theorem words_plain (wordy : IsWordy name.toList) : ∀ w ∈ words name.toList, IsWord w := by
  intro w member c inside
  have among : c ∈ (words name.toList).flatten := List.mem_flatten.2 ⟨w, member, inside⟩
  rw [words_spelled fun d there => by rw [isNameChar, wordy d there, Bool.true_or]] at among
  obtain ⟨there, other⟩ := List.mem_filter.1 among
  refine ⟨wordy c there, ?_⟩
  rintro rfl
  cases other

theorem letters_run (each : ∀ u ∈ w :: ws, IsWord u) :
    letters (lower w ++ (ws.map capitalized).flatten) = (w :: ws).flatten.map Char.toLower := by
  obtain ⟨first, rest⟩ := List.forall_mem_cons.1 each
  rw [letters_append, letters_lower first, letters_flatten, List.map_map, List.flatten_cons,
    List.map_append, List.map_flatten]
  exact congrArg _ (congrArg _ (List.map_congr_left fun u member =>
    letters_capitalized (rest u member)))

theorem letters_joined (each : ∀ w ∈ ws, IsWord w) :
    letters (joinWith ['_'] (ws.map lower)) = ws.flatten.map Char.toLower := by
  induction ws with
  | nil => rfl
  | cons w ws ih =>
    obtain ⟨first, rest⟩ := List.forall_mem_cons.1 each
    rw [List.flatten_cons, List.map_append, ← ih rest, ← letters_lower first]
    cases ws with
    | nil => rw [List.map_singleton, joinWith, List.map_nil, joinWith, ← letters_append,
        List.append_nil]
    | cons next ws =>
      rw [List.map_cons, List.map_cons, joinWith, letters_append, letters_append]
      exact congrArg (· ++ _) (List.append_nil _)

/-- Last words that are not heard in the plural as they are written: each ending in snake case is
    another one behind a capital. -/
def shiftingWords : List (List Char) :=
  ["y", "s", "x", "z", "ay", "ey", "iy", "oy", "uy", "sh", "ch"].map String.toList

theorem letter_keeps_iff {a : Char} (word : isWordChar a = true) (before : Char) :
    endingOf before a.toUpper = endingOf '_' a.toLower ↔ [a.toLower] ∉ shiftingWords := by
  have capital : endingOf before a.toUpper = .plain := by
    have apart := (upper_apart word).1
    simp only [List.mem_cons, List.not_mem_nil, not_or] at apart
    simp [endingOf, apart]
  rw [capital, endingOf]
  simp only [shiftingWords]
  split_ifs <;> simp_all [isVowel]

theorem pair_shifts_iff (b a : Char) : [b, a] ∈ shiftingWords ↔
    a = 'y' ∧ isVowel b = true ∨ a = 'h' ∧ (b = 's' ∨ b = 'c') := by
  simp [shiftingWords, isVowel]
  tauto

theorem pair_keeps_iff {b : Char} (word : isWordChar b = true) (a : Char) :
    endingOf b.toUpper a = endingOf b.toLower a ↔ [b.toLower, a] ∉ shiftingWords := by
  obtain ⟨apart, consonant⟩ := upper_apart word
  simp only [List.mem_cons, List.not_mem_nil, not_or] at apart
  rw [pair_shifts_iff]
  by_cases y : a = 'y'
  · subst a
    cases vowel : isVowel b.toLower <;> simp [endingOf, consonant, vowel]
  · by_cases h : a = 'h'
    · subst a
      by_cases hisses : b.toLower = 's' ∨ b.toLower = 'c' <;> simp [endingOf, apart, hisses]
    · simp [endingOf, y, h]

theorem letters_two_iff {p q : List Char} {b a d c : Char}
    (same : letters (p ++ [b, a]) = letters (q ++ [d, c])) :
    letters (pluralChars (p ++ [b, a])) = letters (pluralChars (q ++ [d, c])) ↔
      endingOf b a = endingOf d c :=
  letters_plural_iff same (plural_two p b a) (ending_fits p b a) (plural_two q d c)
    (ending_fits q d c)

section
variable {before joined : List Char}

theorem empty_last_iff (some : before ≠ []) (some' : joined ≠ [])
    (same : letters before = letters (joined ++ ['_'])) :
    letters (pluralChars before) = letters (pluralChars (joined ++ ['_'])) ↔
      pluralChars before = before ++ ['s'] := by
  obtain ⟨e, closed, fits⟩ := plural_closes some
  obtain ⟨q, c, rfl⟩ := (List.eq_nil_or_concat joined).resolve_left some'
  have plain : endingOf c '_' = .plain := by simp [endingOf]
  have unsoftened : Ending.Fits before .plain := fun softened => by cases softened
  rw [List.concat_eq_append, List.append_assoc] at same ⊢
  rw [letters_plural_iff same closed fits (plural_two q c '_') (ending_fits q c '_'), plain, closed]
  exact (close_inj fits unsoftened).symm

theorem letter_last_iff {a : Char} (some : before ≠ []) (word : isWordChar a = true)
    (same : letters (before ++ [a.toUpper]) = letters (joined ++ ['_', a.toLower])) :
    letters (pluralChars (before ++ [a.toUpper]))
        = letters (pluralChars (joined ++ ['_', a.toLower])) ↔ [a.toLower] ∉ shiftingWords := by
  obtain ⟨p, c, rfl⟩ := (List.eq_nil_or_concat before).resolve_left some
  rw [List.concat_eq_append, List.append_assoc] at same ⊢
  exact (letters_two_iff same).trans (letter_keeps_iff word c)

theorem pair_last_iff {b a : Char} (word : isWordChar b = true)
    (same : letters (before ++ [b.toUpper, a]) = letters (joined ++ ['_', b.toLower, a])) :
    letters (pluralChars (before ++ [b.toUpper, a]))
        = letters (pluralChars (joined ++ ['_', b.toLower, a])) ↔
      [b.toLower, a] ∉ shiftingWords := by
  have apart : joined ++ ['_', b.toLower, a] = (joined ++ ['_']) ++ [b.toLower, a] := by simp
  rw [apart] at same ⊢
  exact (letters_two_iff same).trans (pair_keeps_iff word a)

theorem long_last_iff (c d : Char) (w : List Char) (long : 2 ≤ w.length)
    (same : letters (before ++ d :: w) = letters (joined ++ '_' :: c :: w)) :
    letters (pluralChars (before ++ d :: w)) = letters (pluralChars (joined ++ '_' :: c :: w)) ↔
      c :: w ∉ shiftingWords := by
  have short : ∀ v ∈ shiftingWords, v.length ≤ 2 := by decide
  have other : c :: w ∉ shiftingWords := by
    intro member
    have length := short _ member
    rw [List.length_cons] at length
    omega
  obtain ⟨front, b, a, rfl⟩ : ∃ front b a, w = front ++ [b, a] := by
    obtain ⟨init, a, rfl⟩ := (List.eq_nil_or_concat w).resolve_left (by rintro rfl; simp at long)
    rw [List.length_concat] at long
    obtain ⟨front, b, rfl⟩ :=
      (List.eq_nil_or_concat init).resolve_left (by rintro rfl; simp at long)
    exact ⟨front, b, a, by simp⟩
  have cut : ∀ xs ys : List Char, xs ++ (ys ++ [b, a]) = (xs ++ ys) ++ [b, a] := by simp
  rw [← List.cons_append, ← List.cons_append, ← List.cons_append, cut, cut] at same ⊢
  exact iff_of_true ((letters_two_iff same).2 rfl) other

/-- The last word of a name decides whether its plurals are heard alike. -/
theorem last_word_iff (some : before ≠ []) (some' : joined ≠ [])
    (heard : letters before = letters joined) (word : IsWord w) :
    letters (pluralChars (before ++ capitalized w))
        = letters (pluralChars (joined ++ '_' :: lower w)) ↔
      if w = [] then pluralChars before = before ++ ['s'] else lower w ∉ shiftingWords := by
  have same : letters (before ++ capitalized w) = letters (joined ++ '_' :: lower w) := by
    rw [← List.singleton_append, letters_append, letters_append, letters_append,
      letters_capitalized word, letters_lower word, heard]
    rfl
  rw [lower_wordy word.wordy] at same ⊢
  cases w with
  | nil =>
    rw [capitalized, List.append_nil] at same ⊢
    exact empty_last_iff some some' same
  | cons c w =>
    have first : isWordChar c = true := (word c List.mem_cons_self).1
    rw [capitalized_wordy word.wordy] at same ⊢
    rw [if_neg (List.cons_ne_nil c w)]
    rcases w with _ | ⟨b, _ | ⟨a, w⟩⟩
    · exact letter_last_iff some first same
    · exact pair_last_iff first same
    · exact long_last_iff _ _ _ (by simp) same

end

theorem closed_plain : CaseClosed fun c => isWordChar c = true ∧ c ≠ '_' where
  lower := by
    rintro c ⟨word, other⟩ d lowered
    refine ⟨word_lowerChar word lowered, ?_⟩
    rw [lowerChar, if_pos (word_ascii word), List.mem_singleton] at lowered
    exact lowered ▸ (word_cased word other).1.1
  upper := by
    rintro c ⟨word, other⟩ d raised
    refine ⟨word_upperChar word raised, ?_⟩
    rw [upperChar, if_pos (word_ascii word), List.mem_singleton] at raised
    exact raised ▸ (word_cased word other).2.1
  sigma := fun ⟨word, _⟩ => absurd word (by decide)

theorem variables_letters (each : ∀ w ∈ words name.toList, IsWord w) :
    (lowerCase (pluralVariable name)).toList = letters (pluralChars (camelChars name.toList)) := by
  have plain : ∀ c ∈ pluralChars (camelChars name.toList), isWordChar c = true ∧ c ≠ '_' :=
    CaseClosed.all_plural (closed_plain.all_camel_words each) (by decide)
  rw [lowerCase, pluralVariable, plural, singularVariable, String.toList_ofList,
    String.toList_ofList, String.toList_ofList, lower_wordy fun c member => (plain c member).1,
    letters_plain fun c member => (plain c member).2]

theorem snake_letters (each : ∀ w ∈ words name.toList, IsWord w) :
    (pluralSnake name).toList.filter (· ≠ '_')
      = letters (pluralChars (snakeChars name.toList)) := by
  have lowered : ∀ c ∈ snakeChars name.toList, c.toLower = c := by
    intro c member
    rcases mem_joinWith member with underscore | ⟨piece, inside, there⟩
    · rw [List.mem_singleton.1 underscore]
      rfl
    · obtain ⟨w, among, rfl⟩ := List.mem_map.1 inside
      rw [lower_wordy (each w among).wordy] at there
      obtain ⟨d, origin, rfl⟩ := List.mem_map.1 there
      obtain ⟨word, other⟩ := each w among d origin
      exact (word_cased word other).1.2
  have all := CaseClosed.all_plural (P := fun c => c.toLower = c) lowered (by decide)
  rw [pluralSnake, plural, snake, String.toList_ofList, String.toList_ofList, letters]
  refine (List.map_id' _).symm.trans (List.map_congr_left fun c member => ?_)
  exact (all c (List.mem_of_mem_filter member)).symm

/-- Whether the last word of a name is heard in both plurals as it is: it is the only word, or it is
    none of those that are shifted. Behind an underscore there is no last word, and snake case takes
    an `s`; then the variable must take one as well. -/
def EndsAlike (name : String) : Prop :=
  (words name.toList).length = 1 ∨ ∀ w ∈ (words name.toList).getLast?,
    if w = [] then pluralVariable name = singularVariable name ++ "s" else lower w ∉ shiftingWords

theorem variables_plain_iff : pluralVariable name = singularVariable name ++ "s" ↔
    pluralChars (camelChars name.toList) = camelChars name.toList ++ ['s'] := by
  rw [pluralVariable, plural, ← String.toList_inj, String.toList_append, singularVariable,
    String.toList_ofList, String.toList_ofList]
  rfl

theorem joined_last (some : ws ≠ []) (w : List Char) : joinWith ['_'] ((ws ++ [w]).map lower)
    = joinWith ['_'] (ws.map lower) ++ '_' :: lower w := by
  rw [List.map_append, joinWith_append _ (by simpa using some) (by simp)]
  simp [joinWith]

theorem joined_ne {c : Char} {v : List Char} (word : isWordChar c = true) :
    joinWith ['_'] (((c :: v) :: ws).map lower) ≠ [] := by
  obtain ⟨ds, begins⟩ := lower_begins word v
  rw [List.map_cons, begins]
  cases ws.map lower <;> simp [joinWith]

theorem last_heard_iff {c : Char} {v : List Char} (letter : isWordChar c = true)
    (each : ∀ u ∈ (c :: v) :: ws, IsWord u) (word : IsWord w) :
    letters (pluralChars (lower (c :: v) ++ ((ws ++ [w]).map capitalized).flatten))
        = letters (pluralChars (joinWith ['_'] (((c :: v) :: (ws ++ [w])).map lower))) ↔
      if w = [] then
        pluralChars (lower (c :: v) ++ ((ws ++ [w]).map capitalized).flatten)
          = lower (c :: v) ++ ((ws ++ [w]).map capitalized).flatten ++ ['s']
      else lower w ∉ shiftingWords := by
  have run : lower (c :: v) ++ ((ws ++ [w]).map capitalized).flatten
      = (lower (c :: v) ++ (ws.map capitalized).flatten) ++ capitalized w := by simp
  have heard := (letters_run each).trans (letters_joined each).symm
  have some : lower (c :: v) ++ (ws.map capitalized).flatten ≠ [] := by
    obtain ⟨ds, begins⟩ := lower_begins letter v
    simp [begins]
  rw [run, ← List.cons_append, joined_last (List.cons_ne_nil _ _),
    last_word_iff some (joined_ne letter) heard word]
  by_cases empty : w = []
  · simp only [empty, capitalized, List.append_nil]
  · simp only [empty, ↓reduceIte]

/-- In lower case and without underscores, the plural of the variable and the plural in snake case
    are one word exactly if the name ends alike in both. -/
theorem plurals_agree_iff {name : String} (valid : isModelName name = true) :
    lowerCase (pluralVariable name) = String.ofList ((pluralSnake name).toList.filter (· ≠ '_')) ↔
      EndsAlike name := by
  obtain ⟨c, v, ws, split, letter⟩ := model_words valid
  obtain ⟨_, _, spelled, _, wordy⟩ := model_chars valid
  have each : ∀ w ∈ words name.toList, IsWord w := words_plain (spelled ▸ wordy)
  rw [← String.toList_inj, String.toList_ofList, variables_letters each, snake_letters each,
    EndsAlike, variables_plain_iff, camelChars, snakeChars, split]
  rw [split] at each
  rcases List.eq_nil_or_concat ws with rfl | ⟨middle, w, rfl⟩
  · simp [joinWith]
  · rw [List.concat_eq_append] at *
    have known : ∀ u ∈ (c :: v) :: middle, IsWord u :=
      fun u member => each u (by simpa [or_assoc] using Or.inl (List.mem_cons.1 member))
    have last : ((c :: v) :: (middle ++ [w])).getLast? = some w := by
      rw [← List.cons_append, List.getLast?_concat]
    have several : ((c :: v) :: (middle ++ [w])).length ≠ 1 := by simp
    dsimp only
    rw [last_heard_iff (letter_word letter) known (each w (by simp)), last, or_iff_right several]
    simp only [Option.mem_some_iff, forall_eq']

instance (name : String) : Decidable (EndsAlike name) :=
  inferInstanceAs (Decidable (_ ∨ ∀ w ∈ (words name.toList).getLast?, _))

theorem key_plurals_agree : isModelName "APIKey2Boxes_Buzz" = true ∧
    lowerCase (pluralVariable "APIKey2Boxes_Buzz")
      = String.ofList ((pluralSnake "APIKey2Boxes_Buzz").toList.filter (· ≠ '_')) ∧
    pluralSnake "APIKey2Boxes_Buzz" = "api_key_2_boxes_buzzes" :=
  have valid : isModelName "APIKey2Boxes_Buzz" = true := by decide
  ⟨valid, (plurals_agree_iff valid).2 (by decide +kernel), by decide +kernel⟩

/-- A capital hides an `x` at the end of a variable, and an underscore is taken for a consonant
    before a `y` in snake case. -/
theorem short_word_parts_plurals :
    isModelName "PointX" = true ∧
    lowerCase (pluralVariable "PointX") = "pointxs" ∧ pluralSnake "PointX" = "point_xes" ∧
    lowerCase (pluralVariable "PointX")
      ≠ String.ofList ((pluralSnake "PointX").toList.filter (· ≠ '_')) ∧
    isModelName "EnvoyY" = true ∧
    lowerCase (pluralVariable "EnvoyY") = "envoyys" ∧ pluralSnake "EnvoyY" = "envoy_ies" ∧
    lowerCase (pluralVariable "EnvoyY")
      ≠ String.ofList ((pluralSnake "EnvoyY").toList.filter (· ≠ '_')) :=
  ⟨by decide, by decide +kernel, by decide +kernel, by decide +kernel,
    by decide, by decide +kernel, by decide +kernel, by decide +kernel⟩

end BladeForm.Name
