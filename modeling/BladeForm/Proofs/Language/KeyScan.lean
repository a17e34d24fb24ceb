import BladeForm.Language.Group
import BladeForm.Proofs.Name
import BladeForm.Proofs.Php.Quote
import BladeForm.Proofs.Search

/-!
Where keys are found. The scan takes matches from left to right, and a match may run over many
lines; still, whether an identifier is found depends only on the line that spells it. No other
text before that line can hide it, and nothing else can forge it.
-/
namespace BladeForm.Language
open Text Php

/-- The text has a line that begins with the key, in quotes, and an arrow. -/
def OpensLine (key text : List Char) : Prop :=
  ∃ before blanks gap after,
    text = before ++ (blanks ++ '\'' :: (key ++ '\'' :: (gap ++ '=' :: '>' :: after))) ∧
    (before ≠ [] → before.getLast? = some '\n') ∧
    blanks.all isAsciiBlank ∧ gap.all isAsciiBlank

theorem blank_plain {c : Char} (blank : isAsciiBlank c = true) : isPlain c = true := by
  simp only [isAsciiBlank, Bool.or_eq_true, decide_eq_true_eq] at blank
  rcases blank with ((((rfl | rfl) | rfl) | rfl) | rfl) | rfl <;> rfl

theorem word_plain {c : Char} (word : Name.isWordChar c = true) : isPlain c = true := by
  have quote : c ≠ '\'' := Name.word_ne word (by decide)
  have backslash : c ≠ '\\' := Name.word_ne word (by decide)
  simp [isPlain, quote, backslash]

theorem identifier_chars {key : String} (valid : Name.isIdentifier key = true) :
    ∃ c cs, key.toList = c :: cs ∧ ∀ x ∈ c :: cs, Name.isWordChar x = true := by
  obtain ⟨c, cs, spelled, first, rest⟩ := Name.starts_split valid
  exact ⟨c, cs, spelled, List.forall_mem_cons.2 ⟨Name.first_word first, rest⟩⟩

theorem identifier_free {key : String} (valid : Name.isIdentifier key = true) {c : Char}
    (other : Name.isWordChar c = false) : c ∉ key.toList := by
  intro member
  obtain ⟨d, ds, spelled, words⟩ := identifier_chars valid
  rw [spelled] at member
  exact Name.word_ne (words c member) other rfl

theorem quoted_induction {motive : List Char → Prop} (nil : motive []) (lone : motive ['\\'])
    (escape : ∀ c rest, motive rest → motive ('\\' :: c :: rest))
    (quote : ∀ rest, motive rest → motive ('\'' :: rest))
    (plain : ∀ c rest, isPlain c = true → motive rest → motive (c :: rest))
    (text : List Char) : motive text := by
  -- on the length, since a backslash takes the next character with it
  induction h : text.length using Nat.strongRecOn generalizing text with
  | ind n ih =>
    match text with
    | [] => exact nil
    | c :: rest =>
      have later : motive rest := ih rest.length (by rw [← h, List.length_cons]; omega) rest rfl
      by_cases isEscape : c = '\\'
      · subst c
        match rest with
        | [] => exact lone
        | d :: more =>
          have shorter : more.length < n := by
            rw [← h, List.length_cons, List.length_cons]
            omega
          exact escape d more (ih more.length shorter more rfl)
      · by_cases isQuote : c = '\''
        · subst c
          exact quote rest later
        · exact plain c rest (by simp [isPlain, isEscape, isQuote]) later

theorem quotedBody?_quote (rest : List Char) : quotedBody? ('\'' :: rest) = some ([], rest) := by
  simp [quotedBody?]

theorem quotedBody?_char {c : Char} (plain : isPlain c = true) (rest : List Char) :
    quotedBody? (c :: rest) = (quotedBody? rest).map fun r => (c :: r.1, r.2) := by
  simp only [isPlain, Bool.and_eq_true, decide_eq_true_eq] at plain
  rw [quotedBody?]
  · simp [plain.1]
  · exact fun same _ => plain.2 same
  · exact fun _ _ same _ => plain.2 same

theorem quotedBody?_plain {body : List Char} (plain : body.all isPlain = true) (rest : List Char) :
    quotedBody? (body ++ '\'' :: rest) = some (body, rest) := by
  induction body with
  | nil => exact quotedBody?_quote rest
  | cons c cs ih =>
    simp only [List.all_cons, Bool.and_eq_true] at plain
    rw [List.cons_append, quotedBody?_char plain.1, ih plain.2]
    rfl

theorem quotedBody?_eq {text body rest : List Char} (read : quotedBody? text = some (body, rest)) :
    text = body ++ '\'' :: rest := by
  induction text using quoted_induction generalizing body with
  | nil => simp [quotedBody?] at read
  | lone => simp [quotedBody?] at read
  | escape c more ih =>
    rw [quotedBody?] at read
    split at read
    · contradiction
    · obtain ⟨⟨b, r⟩, found, same⟩ := Option.map_eq_some_iff.1 read
      cases same
      simp [ih found]
  | quote more _ =>
    rw [quotedBody?_quote] at read
    cases read
    rfl
  | plain c more plain ih =>
    rw [quotedBody?_char plain] at read
    obtain ⟨⟨b, r⟩, found, same⟩ := Option.map_eq_some_iff.1 read
    cases same
    simp [ih found]

/-- A quote behind plain text ends whatever quoted text comes that far: an escape just before the
    plain text reaches over no more than its first character. -/
theorem quotedBody?_stops {text gap rest body after : List Char} (plain : gap.all isPlain = true)
    (ne : gap ≠ []) (read : quotedBody? (text ++ (gap ++ '\'' :: rest)) = some (body, after)) :
    after = rest ∨ ∃ more, text = body ++ '\'' :: more ∧ after = more ++ (gap ++ '\'' :: rest) := by
  induction text using quoted_induction generalizing body with
  | nil =>
    rw [List.nil_append, quotedBody?_plain plain] at read
    cases read
    exact Or.inl rfl
  | lone =>
    cases gap with
    | nil => contradiction
    | cons g gs =>
      simp only [List.all_cons, Bool.and_eq_true] at plain
      simp only [List.cons_append, List.nil_append, quotedBody?] at read
      split at read
      · contradiction
      · rw [quotedBody?_plain plain.2] at read
        cases read
        exact Or.inl rfl
  | escape c more ih =>
    rw [List.cons_append, List.cons_append, quotedBody?] at read
    split at read
    · contradiction
    · obtain ⟨⟨b, r⟩, found, same⟩ := Option.map_eq_some_iff.1 read
      cases same
      rcases ih found with stop | ⟨tail, split, stop⟩
      · exact Or.inl stop
      · exact Or.inr ⟨tail, by simp [split], stop⟩
  | quote more _ =>
    rw [List.cons_append, quotedBody?_quote] at read
    cases read
    exact Or.inr ⟨more, rfl, rfl⟩
  | plain c more plain ih =>
    rw [List.cons_append, quotedBody?_char plain] at read
    obtain ⟨⟨b, r⟩, found, same⟩ := Option.map_eq_some_iff.1 read
    cases same
    rcases ih found with stop | ⟨tail, split, stop⟩
    · exact Or.inl stop
    · exact Or.inr ⟨tail, by simp [split], stop⟩

theorem keyAhead?_iff {text key rest : List Char} :
    keyAhead? text = some (key, rest) ↔ ∃ body tail,
      text.dropWhile isAsciiBlank = '\'' :: body ∧ quotedBody? body = some (key, tail) ∧
      tail.dropWhile isAsciiBlank = '=' :: '>' :: rest := by
  simp only [keyAhead?, Option.bind_eq_bind, Option.bind_eq_some_iff, after?_iff]
  constructor
  · rintro ⟨body, opens, ⟨k, tail⟩, read, r, arrow, same⟩
    cases same
    exact ⟨body, tail, opens, read, arrow⟩
  · rintro ⟨body, tail, opens, read, arrow⟩
    exact ⟨body, opens, (key, tail), read, rest, arrow, rfl⟩

theorem keyAhead?_spelled {blanks key gap : List Char} (leading : blanks.all isAsciiBlank = true)
    (plain : key.all isPlain = true) (between : gap.all isAsciiBlank = true) (after : List Char) :
    keyAhead? (blanks ++ '\'' :: (key ++ '\'' :: (gap ++ '=' :: '>' :: after)))
      = some (key, after) := by
  rw [keyAhead?_iff]
  exact ⟨_, _, dropWhile_blanks leading (by decide) _, quotedBody?_plain plain _,
    dropWhile_blanks between (by decide) _⟩

theorem keyAhead?_eq {text key rest : List Char} (found : keyAhead? text = some (key, rest)) :
    ∃ blanks gap, text = blanks ++ '\'' :: (key ++ '\'' :: (gap ++ '=' :: '>' :: rest)) ∧
      blanks.all isAsciiBlank = true ∧ gap.all isAsciiBlank = true := by
  obtain ⟨body, tail, opens, read, arrow⟩ := keyAhead?_iff.1 found
  obtain ⟨blanks, leading, split⟩ := blanks_split text
  obtain ⟨gap, between, tailSplit⟩ := blanks_split tail
  refine ⟨blanks, gap, ?_, leading, between⟩
  rw [← arrow, ← tailSplit, ← quotedBody?_eq read, ← opens, ← split]

theorem dropWhile_append_cases (p : Char → Bool) (xs ys : List Char) :
    xs.all p = true ∧ (xs ++ ys).dropWhile p = ys.dropWhile p ∨
      ∃ c cs, p c = false ∧ xs.dropWhile p = c :: cs ∧ (xs ++ ys).dropWhile p = c :: (cs ++ ys) := by
  induction xs with
  | nil => exact Or.inl ⟨rfl, rfl⟩
  | cons x xs ih =>
    cases blank : p x with
    | false => exact Or.inr ⟨x, xs, blank, by simp [blank], by simp [blank]⟩
    | true => simpa [blank] using ih

theorem dropWhile_ends {p : Char → Bool} {xs cs : List Char} {c d : Char}
    (left : (xs ++ [d]).dropWhile p = c :: cs) (ne : c ≠ d) : ∃ ds, cs = ds ++ [d] := by
  induction xs with
  | nil =>
    rw [List.nil_append, List.dropWhile_cons] at left
    split at left
    · contradiction
    · cases left
      contradiction
  | cons x xs ih =>
    rw [List.cons_append, List.dropWhile_cons] at left
    split at left
    · exact ih left
    · cases left
      exact ⟨xs, rfl⟩

/-- A match that begins before the line of a quoted word either begins with blank lines only, and
    then it is the match at that line, or it ends before that line. -/
theorem match_before_line {before blanks tail k rest : List Char} {c : Char}
    (leading : blanks.all isAsciiBlank = true) (word : Name.isWordChar c = true)
    (found : keyAhead? (before ++ '\n' :: (blanks ++ '\'' :: c :: tail)) = some (k, rest)) :
    (before.all isAsciiBlank = true ∧ keyAhead? (blanks ++ '\'' :: c :: tail) = some (k, rest))
      ∨ blanks ++ '\'' :: c :: tail <:+ rest := by
  have line : before ++ '\n' :: (blanks ++ '\'' :: c :: tail)
      = (before ++ ['\n']) ++ (blanks ++ '\'' :: c :: tail) := by simp
  rw [line] at found
  obtain ⟨body, behind, opens, read, arrow⟩ := keyAhead?_iff.1 found
  rcases dropWhile_append_cases isAsciiBlank (before ++ ['\n']) (blanks ++ '\'' :: c :: tail)
    with ⟨all, blank⟩ | ⟨q, cs, _, left, whole⟩
  · rw [List.all_append, Bool.and_eq_true] at all
    exact Or.inl ⟨all.1, keyAhead?_iff.2 ⟨body, behind, blank ▸ opens, read, arrow⟩⟩
  · right
    rw [whole] at opens
    obtain ⟨rfl, rfl⟩ := List.cons.inj opens
    obtain ⟨ds, rfl⟩ := dropWhile_ends left (by decide)
    have plain : ('\n' :: blanks).all isPlain = true := by
      simp only [List.all_cons, List.all_eq_true, Bool.and_eq_true] at leading ⊢
      exact ⟨rfl, fun x member => blank_plain (leading x member)⟩
    rw [show ds ++ ['\n'] ++ (blanks ++ '\'' :: c :: tail)
      = ds ++ (('\n' :: blanks) ++ '\'' :: c :: tail) by simp] at read
    rcases quotedBody?_stops plain (by simp) read with stop | ⟨more, _, stop⟩
    · -- the word would have to be the arrow
      rw [stop, List.dropWhile_cons_of_neg (by simp [Name.word_not_blank word])] at arrow
      cases (List.cons.inj arrow).1
      contradiction
    · rw [show more ++ (('\n' :: blanks) ++ '\'' :: c :: tail)
        = (more ++ ['\n']) ++ (blanks ++ '\'' :: c :: tail) by simp] at stop
      rw [stop] at arrow
      rcases dropWhile_append_cases isAsciiBlank (more ++ ['\n']) (blanks ++ '\'' :: c :: tail)
        with ⟨_, blank⟩ | ⟨e, es, _, first, later⟩
      · rw [blank, dropWhile_blanks leading (by decide)] at arrow
        cases (List.cons.inj arrow).1
      · rw [later] at arrow
        obtain ⟨rfl, closing⟩ := List.cons.inj arrow
        obtain ⟨gs, rfl⟩ := dropWhile_ends first (by decide)
        cases gs with
        | nil => cases (List.cons.inj closing).1
        | cons g gs =>
          obtain ⟨_, rfl⟩ := List.cons.inj closing
          exact ⟨gs ++ ['\n'], rfl⟩

def LineStart (opens : Bool) (before : List Char) : Prop :=
  (before = [] → opens = true) ∧ (before ≠ [] → before.getLast? = some '\n')

theorem line_start_tail {opens : Bool} {c : Char} {before : List Char}
    (start : LineStart opens (c :: before)) : LineStart (c = '\n') before := by
  have feed := start.2 (by simp)
  constructor
  · rintro rfl
    simpa using feed
  · intro ne
    rw [← feed, List.getLast?_cons_of_ne_nil ne]

theorem line_start_cons {c : Char} {before : List Char} (opens : Bool)
    (start : LineStart (c = '\n') before) : LineStart opens (c :: before) := by
  refine ⟨by simp, fun _ => ?_⟩
  cases before with
  | nil => simpa using start.1 rfl
  | cons b bs =>
    rw [List.getLast?_cons_cons]
    exact start.2 (by simp)

theorem keysFrom_reaches {before blanks tail k after : List Char} {c : Char} (skip : Nat)
    (opens : Bool) (leading : blanks.all isAsciiBlank = true) (word : Name.isWordChar c = true)
    (line : keyAhead? (blanks ++ '\'' :: c :: tail) = some (k, after))
    (short : skip ≤ before.length) (start : LineStart opens before) :
    k ∈ keysFrom skip opens (before ++ (blanks ++ '\'' :: c :: tail)) := by
  -- on the text before the line: a match on the way may run on, but not into the line
  induction before generalizing skip opens with
  | nil =>
    have first : skip = 0 := by simpa using short
    subst skip
    rw [start.1 rfl, List.nil_append]
    cases text : blanks ++ '\'' :: c :: tail with
    | nil => simp at text
    | cons x xs =>
      rw [text] at line
      simp [keysFrom, line]
  | cons b bs ih =>
    have startTail := line_start_tail start
    cases skip with
    | succ n =>
      rw [List.cons_append, keysFrom]
      exact ih n _ (by simpa using short) startTail
    | zero =>
      rw [List.cons_append, keysFrom]
      split
      · next key rest found =>
        have here : keyAhead? (b :: bs ++ (blanks ++ '\'' :: c :: tail)) = some (key, rest) := by
          cases opens <;> simp_all
        obtain ⟨ds, ends⟩ := List.getLast?_eq_some_iff.1 (start.2 (by simp))
        rw [ends, List.append_assoc, List.singleton_append] at here
        rcases match_before_line leading word here with ⟨_, same⟩ | behind
        · rw [same] at line
          cases line
          exact List.mem_cons_self
        · apply List.mem_cons_of_mem
          refine ih _ _ ?_ startTail
          have := behind.length_le
          simp only [List.length_append] at this ⊢
          omega
      · exact ih 0 _ (by omega) startTail

theorem keysFrom_found {text key : List Char} {skip : Nat} {opens : Bool}
    (found : key ∈ keysFrom skip opens text) :
    ∃ before rest after, text = before ++ rest ∧ LineStart opens before ∧
      keyAhead? rest = some (key, after) := by
  induction text generalizing skip opens with
  | nil => simp [keysFrom] at found
  | cons c cs ih =>
    have later {n : Nat} (member : key ∈ keysFrom n (c = '\n') cs) :
        ∃ before rest after, c :: cs = before ++ rest ∧ LineStart opens before ∧
          keyAhead? rest = some (key, after) := by
      obtain ⟨before, rest, after, split, start, ahead⟩ := ih member
      exact ⟨c :: before, rest, after, by simp [split], line_start_cons opens start, ahead⟩
    cases skip with
    | succ n =>
      rw [keysFrom] at found
      exact later found
    | zero =>
      rw [keysFrom] at found
      split at found
      · next k rest ahead =>
        rcases List.mem_cons.1 found with same | member
        · subst k
          cases opens with
          | false => simp at ahead
          | true => exact ⟨[], c :: cs, rest, rfl, ⟨fun _ => rfl, by simp⟩, by simpa using ahead⟩
        · exact later member
      · exact later found

theorem identifier_plain {key : String} (valid : Name.isIdentifier key = true) :
    key.toList.all isPlain = true := by
  obtain ⟨c, cs, spelled, words⟩ := identifier_chars valid
  rw [spelled, List.all_eq_true]
  exact fun x member => word_plain (words x member)

theorem mem_definedKeys_iff {key content : String} (plain : key.toList.all isPlain = true) :
    key ∈ definedKeys content ↔ key.toList ∈ keysFrom 0 true content.toList := by
  rw [definedKeys, List.mem_map]
  constructor
  · rintro ⟨spelled, member, rfl⟩
    rw [String.toList_ofList] at plain ⊢
    rwa [← (unescape_plain_iff plain spelled).1 rfl]
  · intro member
    exact ⟨_, member, by rw [(unescape_plain_iff plain _).2 rfl, String.ofList_toList]⟩

/-- An identifier is a key of the file exactly if it opens a line there. -/
theorem identifier_found_iff {key content : String} (valid : Name.isIdentifier key = true) :
    key ∈ definedKeys content ↔ OpensLine key.toList content.toList := by
  have plain := identifier_plain valid
  rw [mem_definedKeys_iff plain]
  constructor
  · intro member
    obtain ⟨before, rest, after, split, start, ahead⟩ := keysFrom_found member
    obtain ⟨blanks, gap, spelled, leading, between⟩ := keyAhead?_eq ahead
    exact ⟨before, blanks, gap, after, by rw [split, spelled], start.2, leading, between⟩
  · rintro ⟨before, blanks, gap, after, split, feed, leading, between⟩
    obtain ⟨c, cs, spelled, words⟩ := identifier_chars valid
    have ahead := keyAhead?_spelled leading plain between after
    rw [split]
    rw [spelled] at ahead ⊢
    exact keysFrom_reaches 0 true leading (words c List.mem_cons_self) ahead (Nat.zero_le _)
      ⟨fun _ => rfl, feed⟩

end BladeForm.Language
