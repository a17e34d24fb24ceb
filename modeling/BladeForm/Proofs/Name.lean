import BladeForm.Name.Forms
import BladeForm.Name.Rules
import BladeForm.Text.Blank
import Mathlib.Data.List.Basic

/-!
Which characters the forms of a name are made of. Words are made of the characters of the name,
and a change of case keeps ASCII letters among themselves, so a variable named after an
identifier needs no quoting.
-/
namespace BladeForm

namespace Text

theorem clusterTail_flatten (s : ClusterState) (cs : List Char) :
    (clusterTail s cs).1 ++ (clusterTail s cs).2.flatten = cs := by
  induction cs generalizing s with
  | nil => rfl
  | cons c cs ih =>
    have rest := ih (s.next (clusterClass c))
    rw [clusterTail]
    dsimp only
    split
    · rw [List.cons_append, rest]
    · rw [List.flatten_cons, List.nil_append, List.cons_append, rest]

theorem clusters_flatten (cs : List Char) : (clusters cs).flatten = cs := by
  cases cs with
  | nil => rfl
  | cons c cs =>
    rw [clusters]
    dsimp only
    rw [List.flatten_cons, List.cons_append, clusterTail_flatten]

theorem ascii_forall {P : Char → Prop} (all : ∀ n < 128, P (Char.ofNat n)) {c : Char}
    (ascii : c.toNat < 128) : P c := by
  rw [← c.ofNat_toNat]
  exact all c.toNat ascii

theorem mem_lower {cs : List Char} {c : Char} (member : c ∈ lower cs) :
    ∃ d ∈ cs, c ∈ lowerChar d ∨ d = 'Σ' ∧ (c = 'σ' ∨ c = 'ς') := by
  rw [lower] at member
  generalize [] = before at member
  induction cs generalizing before with
  | nil => cases member
  | cons d cs ih =>
    rw [lowerAfter, List.mem_append] at member
    rcases member with here | later
    · refine ⟨d, List.mem_cons_self, ?_⟩
      split_ifs at here with sigma final
      · exact Or.inr ⟨sigma, Or.inr (List.mem_singleton.1 here)⟩
      · exact Or.inr ⟨sigma, Or.inl (List.mem_singleton.1 here)⟩
      · exact Or.inl here
    · obtain ⟨d, inside, source⟩ := ih _ later
      exact ⟨d, List.mem_cons_of_mem _ inside, source⟩

/-- Digits, most signs and what else stands before the letters in ASCII, without NUL. -/
def IsLow (c : Char) : Prop := 0 < c.toNat ∧ c.toNat ≤ 0x40

theorem ofNat_low {n : Nat} (high : 0x40 < n) : ¬ IsLow (Char.ofNat n) := by
  rintro ⟨positive, most⟩
  by_cases valid : n.isValidChar
  · rw [Char.ofNat, dif_pos valid] at most
    exact Nat.not_le_of_lt high most
  · rw [Char.ofNat, dif_neg valid] at positive
    cases positive

theorem mapLetter_low {runs : List CaseRun} {expansions : List (Nat × List Nat)} {c d : Char}
    (targets : ∀ r ∈ runs, 0x40 < r.target) (images : ∀ e ∈ expansions, ∀ n ∈ e.2, 0x40 < n)
    (mapped : c ∈ mapLetter runs expansions d) (low : IsLow c) : c = d := by
  rw [mapLetter] at mapped
  split at mapped
  · next ns found =>
    obtain ⟨before, after, same, _⟩ := List.lookup_eq_some_iff.1 found
    obtain ⟨n, member, rfl⟩ := List.mem_map.1 mapped
    exact absurd low (ofNat_low (images (d.toNat, ns) (by rw [same]; simp) n member))
  · split at mapped
    · next r found =>
      rw [List.mem_singleton] at mapped
      subst c
      have target := targets r (List.mem_of_find?_eq_some found)
      exact absurd low (ofNat_low (by rw [CaseRun.image]; omega))
    · exact List.mem_singleton.1 mapped

theorem lowerChar_low {c d : Char} (lowered : c ∈ lowerChar d) (low : IsLow c) : c = d := by
  rw [lowerChar] at lowered
  split_ifs at lowered with ascii
  · rw [List.mem_singleton] at lowered
    subst c
    have small := low.2
    revert small
    exact @ascii_forall (fun d => d.toLower.toNat ≤ 0x40 → d.toLower = d) (by decide) d ascii
  · exact mapLetter_low (by decide +kernel) (by decide) lowered low

theorem upperChar_low {c d : Char} (raised : c ∈ upperChar d) (low : IsLow c) : c = d := by
  rw [upperChar] at raised
  split_ifs at raised with ascii
  · rw [List.mem_singleton] at raised
    subst c
    have small := low.2
    revert small
    exact @ascii_forall (fun d => d.toUpper.toNat ≤ 0x40 → d.toUpper = d) (by decide) d ascii
  · exact mapLetter_low (by decide +kernel) (by decide) raised low

end Text

namespace Name
open Text

theorem starts_split {first rest : Char → Bool} {cs : List Char}
    (valid : startsAndContinues first rest cs = true) :
    ∃ c ds, cs = c :: ds ∧ first c = true ∧ ∀ d ∈ ds, rest d = true := by
  cases cs with
  | nil => contradiction
  | cons c ds =>
    simp only [startsAndContinues, Bool.and_eq_true, List.all_eq_true] at valid
    exact ⟨c, ds, rfl, valid⟩

theorem first_word {c : Char} (first : (isLetter c || decide (c = '_')) = true) :
    isWordChar c = true := by
  rcases Bool.or_eq_true_iff.1 first with letter | underscore
  · simp [isWordChar, letter]
  · simp [isWordChar, of_decide_eq_true underscore]

theorem word_ascii {c : Char} (word : isWordChar c = true) : c.toNat < 128 := by
  simp only [isWordChar, isLetter, Bool.or_eq_true, Bool.and_eq_true, decide_eq_true_eq,
    Char.le_def, UInt32.le_iff_toNat_le] at word
  change c.val.toNat < 128
  rcases word with ((⟨_, most⟩ | ⟨_, most⟩) | ⟨_, most⟩) | rfl
  · exact Nat.lt_of_le_of_lt most (by decide)
  · exact Nat.lt_of_le_of_lt most (by decide)
  · exact Nat.lt_of_le_of_lt most (by decide)
  · decide

theorem word_lowerChar {c d : Char} (word : isWordChar c = true) (lowered : d ∈ lowerChar c) :
    isWordChar d = true := by
  have ascii := word_ascii word
  rw [lowerChar, if_pos ascii, List.mem_singleton] at lowered
  subst d
  revert word
  exact @ascii_forall (fun c => isWordChar c → isWordChar c.toLower) (by decide) c ascii

theorem word_upperChar {c d : Char} (word : isWordChar c = true) (raised : d ∈ upperChar c) :
    isWordChar d = true := by
  have ascii := word_ascii word
  rw [upperChar, if_pos ascii, List.mem_singleton] at raised
  subst d
  revert word
  exact @ascii_forall (fun c => isWordChar c → isWordChar c.toUpper) (by decide) c ascii

def IsWordy (cs : List Char) : Prop := ∀ c ∈ cs, isWordChar c = true

instance (cs : List Char) : Decidable (IsWordy cs) :=
  decidable_of_iff (cs.all isWordChar = true) List.all_eq_true

theorem word_ne {c d : Char} (word : isWordChar c = true) (other : isWordChar d = false) :
    c ≠ d := by
  rintro rfl
  rw [word] at other
  cases other

theorem word_not_blank {c : Char} (word : isWordChar c = true) : isAsciiBlank c = false := by
  cases blank : isAsciiBlank c with
  | false => rfl
  | true =>
    simp only [isAsciiBlank, Bool.or_eq_true, decide_eq_true_eq] at blank
    rcases blank with ((((rfl | rfl) | rfl) | rfl) | rfl) | rfl <;> contradiction

theorem wordy_span {xs ys : List Char} (wordy : IsWordy xs)
    (stops : ∀ y ∈ ys.head?, isWordChar y = false) :
    (xs ++ ys).takeWhile isWordChar = xs ∧ (xs ++ ys).dropWhile isWordChar = ys := by
  rw [List.takeWhile_append_of_pos wordy, List.dropWhile_append_of_pos wordy]
  cases ys with
  | nil => simp
  | cons y ys => simp [stops y rfl]

/-- Changing the case of its characters does not lead out of the class. -/
structure CaseClosed (P : Char → Prop) : Prop where
  lower : ∀ {c : Char}, P c → ∀ d ∈ lowerChar c, P d
  upper : ∀ {c : Char}, P c → ∀ d ∈ upperChar c, P d
  sigma : P 'Σ' → P 'σ' ∧ P 'ς'

theorem closed_word : CaseClosed fun c => isWordChar c = true where
  lower word _ lowered := word_lowerChar word lowered
  upper word _ raised := word_upperChar word raised
  sigma word := absurd word (by decide)

theorem closed_other {q : Char} (low : IsLow q) : CaseClosed (· ≠ q) where
  lower other d lowered same := other (lowerChar_low (same ▸ lowered) low).symm
  upper other d raised same := other (upperChar_low (same ▸ raised) low).symm
  sigma _ := ⟨fun same => absurd (same ▸ low).2 (by decide),
    fun same => absurd (same ▸ low).2 (by decide)⟩

theorem wordTail_flatten (gs : List (List Char)) :
    (wordTail gs).1 ++ (wordTail gs).2.flatten = (gs.filter fun g => !isDelimiter g).flatten := by
  induction gs with
  | nil => rfl
  | cons g gs ih =>
    rw [wordTail]
    dsimp only
    split_ifs with delimiter ends
    · rw [List.filter_cons_of_neg (by simp [delimiter]), List.nil_append, List.flatten_cons, ih]
    · rw [List.filter_cons_of_pos (by simp [delimiter]), List.flatten_cons, List.flatten_cons, ih]
    · rw [List.filter_cons_of_pos (by simp [delimiter]), List.flatten_cons, List.append_assoc, ih]

theorem words_flatten (name : List Char) :
    (words name).flatten = ((clusters name).filter fun g => !isDelimiter g).flatten := by
  rw [words]
  split_ifs with empty
  · rw [List.isEmpty_iff.1 empty]
    rfl
  · exact wordTail_flatten (clusters name)

theorem words_chars {name w : List Char} {c : Char} (word : w ∈ words name) (member : c ∈ w) :
    c ∈ name := by
  have among : c ∈ (words name).flatten := List.mem_flatten.2 ⟨w, word, member⟩
  rw [words_flatten] at among
  obtain ⟨g, inside, here⟩ := List.mem_flatten.1 among
  rw [← clusters_flatten name]
  exact List.mem_flatten.2 ⟨g, List.mem_of_mem_filter inside, here⟩

theorem mem_joinWith {sep : List Char} {pieces : List (List Char)} {c : Char}
    (member : c ∈ joinWith sep pieces) : c ∈ sep ∨ ∃ piece ∈ pieces, c ∈ piece := by
  induction pieces with
  | nil => cases member
  | cons piece rest ih =>
    cases rest with
    | nil => exact Or.inr ⟨piece, List.mem_cons_self, member⟩
    | cons next rest =>
      rw [joinWith, List.mem_append, List.mem_append] at member
      rcases member with (here | between) | later
      · exact Or.inr ⟨piece, List.mem_cons_self, here⟩
      · exact Or.inl between
      · exact (ih later).imp_right fun ⟨p, inside, there⟩ =>
          ⟨p, List.mem_cons_of_mem piece inside, there⟩

namespace CaseClosed
variable {P : Char → Prop} {cs name word : List Char} (closed : CaseClosed P)

theorem all_plural (all : ∀ c ∈ word, P c) (endings : P 's' ∧ P 'e' ∧ P 'i') :
    ∀ c ∈ pluralChars word, P c := by
  obtain ⟨s, e, i⟩ := endings
  rw [pluralChars]
  split
  · simp
  · next d before reversed =>
    split_ifs
    · exact List.forall_mem_append.2 ⟨all, by simp [s]⟩
    · have front : ∀ c ∈ (d :: before).reverse, P c := by
        intro c member
        refine all c ?_
        rw [← List.mem_reverse, reversed]
        exact List.mem_cons_of_mem _ (List.mem_reverse.1 member)
      exact List.forall_mem_append.2 ⟨front, by simp [s, e, i]⟩
  · split_ifs
    · exact List.forall_mem_append.2 ⟨all, by simp [s, e]⟩
    · exact List.forall_mem_append.2 ⟨all, by simp [s]⟩

include closed

theorem all_lower (all : ∀ c ∈ cs, P c) : ∀ c ∈ Text.lower cs, P c := by
  intro c member
  obtain ⟨d, inside, lowered | ⟨rfl, rfl | rfl⟩⟩ := mem_lower member
  · exact closed.lower (all d inside) c lowered
  · exact (closed.sigma (all 'Σ' inside)).1
  · exact (closed.sigma (all 'Σ' inside)).2

theorem all_capitalized (all : ∀ c ∈ cs, P c) : ∀ c ∈ capitalized cs, P c := by
  cases cs with
  | nil => exact all
  | cons c cs =>
    intro d member
    rcases List.mem_append.1 member with first | later
    · exact closed.upper (all c List.mem_cons_self) d first
    · exact closed.all_lower (fun x inside => all x (List.mem_cons_of_mem c inside)) d later

theorem all_capitals {ws : List (List Char)} (each : ∀ w ∈ ws, ∀ c ∈ w, P c) :
    ∀ c ∈ (ws.map capitalized).flatten, P c := by
  intro c member
  obtain ⟨v, inside, there⟩ := List.mem_flatten.1 member
  obtain ⟨u, among, rfl⟩ := List.mem_map.1 inside
  exact closed.all_capitalized (each u among) c there

theorem all_camel_words (each : ∀ w ∈ words name, ∀ c ∈ w, P c) :
    ∀ c ∈ camelChars name, P c := by
  rw [camelChars]
  split
  · simp
  · next w ws split =>
    intro c member
    rcases List.mem_append.1 member with first | later
    · exact closed.all_lower (each w (by simp [split])) c first
    · exact closed.all_capitals (fun u among => each u (by simp [split, among])) c later

theorem all_camel (all : ∀ c ∈ name, P c) : ∀ c ∈ camelChars name, P c :=
  closed.all_camel_words fun _ word c member => all c (words_chars word member)

theorem all_title (all : ∀ c ∈ name, P c) : ∀ c ∈ titleChars name, c = ' ' ∨ P c := by
  intro c member
  rcases mem_joinWith member with space | ⟨w, inside, there⟩
  · exact Or.inl (List.mem_singleton.1 space)
  · obtain ⟨v, word, rfl⟩ := List.mem_map.1 inside
    exact Or.inr (closed.all_capitalized (fun d within => all d (words_chars word within)) c there)

theorem all_snake (all : ∀ c ∈ name, P c) : ∀ c ∈ snakeChars name, c = '_' ∨ P c := by
  intro c member
  rcases mem_joinWith member with underscore | ⟨w, inside, there⟩
  · exact Or.inl (List.mem_singleton.1 underscore)
  · obtain ⟨v, word, rfl⟩ := List.mem_map.1 inside
    exact Or.inr (closed.all_lower (fun d within => all d (words_chars word within)) c there)

end CaseClosed

theorem wordy_variable {name : String} (wordy : IsWordy name.toList) :
    IsWordy (singularVariable name).toList := by
  rw [singularVariable, String.toList_ofList]
  exact closed_word.all_camel wordy

theorem wordy_variables {name : String} (wordy : IsWordy name.toList) :
    IsWordy (pluralVariable name).toList := by
  rw [pluralVariable, plural, String.toList_ofList]
  exact CaseClosed.all_plural (wordy_variable wordy) (by decide)

theorem title_chars {name : String} (wordy : IsWordy name.toList) {c : Char}
    (member : c ∈ (title name).toList) : c = ' ' ∨ isWordChar c = true := by
  rw [title, String.toList_ofList] at member
  exact closed_word.all_title wordy c member

section
variable {q : Char} {s : String} (low : IsLow q) (free : q ∉ s.toList)
include low free

theorem free_lowerCase : q ∉ (lowerCase s).toList := by
  have other : ∀ c ∈ s.toList, c ≠ q := fun c member => ne_of_mem_of_not_mem member free
  rw [lowerCase, String.toList_ofList]
  exact fun member => (closed_other low).all_lower other q member rfl

theorem free_variable : q ∉ (singularVariable s).toList := by
  have other : ∀ c ∈ s.toList, c ≠ q := fun c member => ne_of_mem_of_not_mem member free
  rw [singularVariable, String.toList_ofList]
  exact fun member => (closed_other low).all_camel other q member rfl

theorem free_variables : q ∉ (pluralVariable s).toList := by
  have letters : 's' ≠ q ∧ 'e' ≠ q ∧ 'i' ≠ q := by
    refine ⟨?_, ?_, ?_⟩ <;>
    · rintro rfl
      exact absurd low.2 (by decide)
  have other : ∀ c ∈ (singularVariable s).toList, c ≠ q :=
    fun c member => ne_of_mem_of_not_mem member (free_variable low free)
  rw [pluralVariable, plural, String.toList_ofList]
  exact fun member => CaseClosed.all_plural other letters q member rfl

theorem free_title (visible : q ≠ ' ') : q ∉ (title s).toList := by
  have other : ∀ c ∈ s.toList, c ≠ q := fun c member => ne_of_mem_of_not_mem member free
  rw [title, String.toList_ofList]
  intro member
  rcases (closed_other low).all_title other q member with space | self
  · contradiction
  · exact self rfl

end

theorem letter_word {c : Char} (letter : isLetter c = true) : isWordChar c = true := by
  simp [isWordChar, letter]

theorem model_chars {name : String} (valid : isModelName name = true) :
    ∃ c cs, name.toList = c :: cs ∧ isLetter c = true ∧ IsWordy (c :: cs) := by
  obtain ⟨c, cs, spelled, letter, rest⟩ := starts_split valid
  exact ⟨c, cs, spelled, letter, List.forall_mem_cons.2 ⟨letter_word letter, rest⟩⟩

theorem words_begin {c : Char} (other : ∀ gs, isDelimiter (c :: gs) = false) (cs : List Char) :
    ∃ w ws, words (c :: cs) = (c :: w) :: ws := by
  rw [words, if_neg (by simp), clusters]
  dsimp only
  rw [wordTail]
  dsimp only
  rw [if_neg (by rw [other]; simp)]
  split
  · exact ⟨_, _, rfl⟩
  · exact ⟨_, _, rfl⟩

theorem letter_no_delimiter {c : Char} (letter : isLetter c = true) (gs : List Char) :
    isDelimiter (c :: gs) = false := by
  simp only [isDelimiter, Bool.or_eq_false_iff, decide_eq_false_iff_not, List.cons.injEq]
  refine ⟨⟨?_, ?_⟩, ?_⟩ <;>
  · rintro ⟨rfl, _⟩
    revert letter
    decide

theorem lower_begins {c : Char} (word : isWordChar c = true) (cs : List Char) :
    ∃ ds, lower (c :: cs) = c.toLower :: ds := by
  have sigma : c ≠ 'Σ' := by
    rintro rfl
    contradiction
  rw [lower, lowerAfter, if_neg sigma, lowerChar, if_pos (word_ascii word)]
  exact ⟨_, rfl⟩

theorem lower_wordy {cs : List Char} (wordy : IsWordy cs) : lower cs = cs.map Char.toLower := by
  rw [lower]
  generalize [] = before
  induction cs generalizing before with
  | nil => rfl
  | cons c cs ih =>
    obtain ⟨word, wordy⟩ := List.forall_mem_cons.1 wordy
    have sigma : c ≠ 'Σ' := word_ne word (by decide)
    rw [lowerAfter, if_neg sigma, lowerChar, if_pos (word_ascii word), ih wordy]
    rfl

theorem capitalized_wordy {c : Char} {cs : List Char} (wordy : IsWordy (c :: cs)) :
    capitalized (c :: cs) = c.toUpper :: cs.map Char.toLower := by
  obtain ⟨word, wordy⟩ := List.forall_mem_cons.1 wordy
  rw [capitalized, upperChar, if_pos (word_ascii word), lower_wordy wordy]
  rfl

theorem model_words {name : String} (valid : isModelName name = true) :
    ∃ c w ws, words name.toList = (c :: w) :: ws ∧ isLetter c = true := by
  obtain ⟨c, cs, spelled, letter, _⟩ := model_chars valid
  obtain ⟨w, ws, split⟩ := words_begin (letter_no_delimiter letter) cs
  exact ⟨c, w, ws, by rw [spelled, split], letter⟩

theorem record_begins {name : String} (valid : isModelName name = true) :
    ∃ c ds, camelChars name.toList = c.toLower :: ds ∧ isLetter c = true := by
  obtain ⟨c, w, ws, split, letter⟩ := model_words valid
  obtain ⟨ds, first⟩ := lower_begins (letter_word letter) w
  refine ⟨c, ds ++ (ws.map capitalized).flatten, ?_, letter⟩
  rw [camelChars, split]
  dsimp only
  rw [first, List.cons_append]

theorem snake_begins {name : String} (valid : isModelName name = true) :
    ∃ c ds, snakeChars name.toList = c.toLower :: ds ∧ isLetter c = true := by
  obtain ⟨c, w, ws, split, letter⟩ := model_words valid
  obtain ⟨ds, first⟩ := lower_begins (letter_word letter) w
  rw [snakeChars, split, List.map_cons, first]
  cases ws.map lower with
  | nil => exact ⟨c, ds, rfl, letter⟩
  | cons next later => exact ⟨c, ds ++ ['_'] ++ joinWith ['_'] (next :: later), rfl, letter⟩

theorem record_ne {name : String} (valid : isModelName name = true) :
    singularVariable name ≠ "" := by
  obtain ⟨c, ds, spelled, _⟩ := record_begins valid
  intro empty
  have none := congrArg String.toList empty
  rw [singularVariable, String.toList_ofList, spelled] at none
  cases none

theorem wordy_snake {name : List Char} (wordy : IsWordy name) : IsWordy (snakeChars name) := by
  intro c member
  rcases closed_word.all_snake wordy c member with rfl | word
  · decide
  · exact word

theorem plural_longer {word : List Char} (some : word ≠ []) :
    word.length < (pluralChars word).length := by
  rw [pluralChars]
  split
  · next none => exact absurd (List.reverse_eq_nil_iff.1 none) some
  · next c before reversed =>
    have length := congrArg List.length reversed
    simp only [List.length_reverse, List.length_cons] at length
    split_ifs <;> simp only [List.length_append, List.length_reverse, List.length_cons,
      List.length_nil] <;> omega
  · split_ifs <;> simp

theorem plural_ne {word : List Char} (ne : word ≠ []) : pluralChars word ≠ [] := by
  intro none
  have longer := plural_longer ne
  rw [none] at longer
  exact absurd longer (Nat.not_lt_zero _)

theorem wordy_pluralSnake {name : String} (valid : isModelName name = true) :
    IsWordy (pluralSnake name).toList := by
  obtain ⟨c, cs, spelled, _, wordy⟩ := model_chars valid
  rw [pluralSnake, plural, snake, String.toList_ofList, String.toList_ofList]
  exact CaseClosed.all_plural (wordy_snake (spelled ▸ wordy)) (by decide)

theorem pluralSnake_ne {name : String} (valid : isModelName name = true) :
    pluralSnake name ≠ "" := by
  obtain ⟨c, ds, spelled, _⟩ := snake_begins valid
  intro empty
  have none := congrArg String.toList empty
  rw [pluralSnake, plural, snake, String.toList_ofList, String.toList_ofList, spelled] at none
  exact plural_ne (List.cons_ne_nil _ _) none

end Name

end BladeForm
