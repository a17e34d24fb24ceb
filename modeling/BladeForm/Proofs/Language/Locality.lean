import BladeForm.Proofs.Language.Growth

/-!
Identifier keys line by line. The scan takes quoted text as a whole, so what it finds could hang on
any quote or backslash that stands before. For identifiers it does not: a scan that never reads
quoted text, and remembers only whether a line has held nothing but blanks, finds the same ones in
the same order and as often. So lines put before a text add their own identifiers and neither hide
nor change those of the text.
-/
namespace BladeForm.Language
open Text Php

def wordAhead? (text : List Char) : Option String := do
  let rest ← after? ['\''] (text.dropWhile Name.isWordChar)
  let _ ← after? ['=', '>'] (rest.dropWhile isAsciiBlank)
  let word := String.ofList (text.takeWhile Name.isWordChar)
  if Name.isIdentifier word then some word else none

/-- Identifiers that open a line of the text; their arrow may stand in the text behind it. `fresh`
    tells whether the line holds only blanks so far. -/
def lineWords : (fresh : Bool) → (text behind : List Char) → List String
  | _, [], _ => []
  | fresh, c :: cs, behind =>
    (if fresh && c = '\'' then wordAhead? (cs ++ behind) else none).toList
      ++ lineWords (c = '\n' || fresh && isAsciiBlank c) cs behind

def identifiersOf (content : String) : List String :=
  (definedKeys content).filter Name.isIdentifier

theorem wordAhead?_iff {text : List Char} {word : String} :
    wordAhead? text = some word ↔ Name.isIdentifier word = true ∧ ∃ gap after,
      text = word.toList ++ '\'' :: (gap ++ '=' :: '>' :: after) ∧ gap.all isAsciiBlank = true := by
  simp only [wordAhead?, Option.bind_eq_bind, Option.bind_eq_some_iff, after?_iff,
    Option.ite_none_right_eq_some, Option.some.injEq]
  constructor
  · rintro ⟨rest, closing, after, arrow, valid, rfl⟩
    obtain ⟨gap, between, split⟩ := blanks_split rest
    refine ⟨valid, gap, after, ?_, between⟩
    rw [arrow] at split
    rw [String.toList_ofList]
    calc text = text.takeWhile Name.isWordChar ++ text.dropWhile Name.isWordChar := by simp
      _ = _ := by rw [closing, split]; rfl
  · rintro ⟨valid, gap, after, rfl, between⟩
    obtain ⟨c, cs, spelled, words⟩ := identifier_chars valid
    have all : ∀ x ∈ word.toList, Name.isWordChar x = true := by
      rw [spelled]
      exact words
    have stop : Name.isWordChar '\'' = false := by decide
    refine ⟨gap ++ '=' :: '>' :: after, ?_, after, dropWhile_blanks between (by decide) _, ?_⟩
    · rw [List.dropWhile_append_of_pos all, List.dropWhile_cons_of_neg (by simp [stop])]
      rfl
    · rw [List.takeWhile_append_of_pos all, List.takeWhile_cons_of_neg (by simp [stop]),
        List.append_nil, String.ofList_toList]
      exact ⟨valid, rfl⟩

theorem unspelled_no_word {text : List Char}
    (unspelled : ∀ word gap after, Name.isIdentifier word = true → gap.all isAsciiBlank = true →
      text ≠ word.toList ++ '\'' :: (gap ++ '=' :: '>' :: after)) : wordAhead? text = none := by
  rw [Option.eq_none_iff_forall_ne_some]
  intro word ahead
  obtain ⟨valid, gap, after, split, between⟩ := wordAhead?_iff.1 ahead
  exact unspelled word gap after valid between split

theorem lineWords_quote (fresh : Bool) (cs behind : List Char) :
    lineWords fresh ('\'' :: cs) behind
      = (if fresh then wordAhead? (cs ++ behind) else none).toList
        ++ lineWords false cs behind := by
  have dark : isAsciiBlank '\'' = false := by decide
  simp [lineWords, dark]

theorem lineWords_other {c : Char} (quote : c ≠ '\'') (fresh : Bool) (cs behind : List Char) :
    lineWords fresh (c :: cs) behind
      = lineWords (c = '\n' || fresh && isAsciiBlank c) cs behind := by
  simp [lineWords, quote]

theorem lineWords_blanks {blanks : List Char} (all : blanks.all isAsciiBlank = true)
    (cs behind : List Char) :
    lineWords true (blanks ++ cs) behind = lineWords true cs behind := by
  induction blanks with
  | nil => rfl
  | cons b bs ih =>
    simp only [List.all_cons, Bool.and_eq_true] at all
    rw [List.cons_append, lineWords_other (plain_not_quote (blank_plain all.1)), all.1,
      Bool.and_true, Bool.or_true, ih all.2]

theorem lineWords_unquoted {xs : List Char} {d : Char} (free : '\'' ∉ xs) (quote : d ≠ '\'')
    (dark : isAsciiBlank d = false) (fresh : Bool) (ys behind : List Char) :
    lineWords fresh (xs ++ d :: ys) behind = lineWords false ys behind := by
  induction xs generalizing fresh with
  | nil =>
    have feed : d ≠ '\n' := by
      rintro rfl
      contradiction
    rw [List.nil_append, lineWords_other quote, dark]
    simp [feed]
  | cons x xs ih =>
    rw [List.mem_cons, not_or] at free
    rw [List.cons_append, lineWords_other (Ne.symm free.1), ih free.2]

/-- Within quoted text a quote stands only behind a backslash, so no word begins there. Its closing
    quote may be the first of a line, and is not taken for an opening one if no word follows it. -/
theorem lineWords_quoted {body key tail : List Char} (read : quotedBody? body = some (key, tail))
    (noWord : wordAhead? tail = none) (fresh : Bool) :
    lineWords fresh body [] = lineWords false tail [] := by
  induction body using quoted_induction generalizing key fresh with
  | nil => simp [quotedBody?] at read
  | lone => simp [quotedBody?] at read
  | escape c more ih =>
    rw [quotedBody?] at read
    split at read
    · contradiction
    · obtain ⟨b, found, _⟩ := (mapped_read_iff ('\\' :: c :: ·)).1 read
      have within : lineWords fresh ('\\' :: c :: more) []
          = lineWords (c = '\n') more [] := by
        simp [lineWords, isAsciiBlank]
      rw [within, ih found]
  | quote more _ =>
    rw [quotedBody?_quote] at read
    cases read
    rw [lineWords_quote, List.append_nil, noWord]
    simp
  | plain c more plain ih =>
    rw [quotedBody?_char plain] at read
    obtain ⟨b, found, _⟩ := (mapped_read_iff (c :: ·)).1 read
    rw [lineWords_other (plain_not_quote plain), ih found]

theorem wordAhead?_quoted {body key tail : List Char}
    (read : quotedBody? body = some (key, tail)) {gap rest : List Char}
    (arrow : tail = gap ++ '=' :: '>' :: rest) (between : gap.all isAsciiBlank = true) :
    (wordAhead? body).toList = [String.ofList (unescape key)].filter Name.isIdentifier := by
  by_cases valid : Name.isIdentifier (String.ofList (unescape key)) = true
  · have plain := identifier_plain valid
    rw [String.toList_ofList] at plain
    have spelled : key = unescape key := (unescape_plain_iff plain key).1 rfl
    have found : wordAhead? body = some (String.ofList (unescape key)) := by
      refine wordAhead?_iff.2 ⟨valid, gap, rest, ?_, between⟩
      rw [String.toList_ofList, ← spelled, quotedBody?_eq read, arrow]
    rw [found, List.filter_cons_of_pos valid]
    rfl
  · have noWord : wordAhead? body = none := by
      apply unspelled_no_word
      intro word _ _ identifier _ split
      have plain := identifier_plain identifier
      rw [split, quotedBody?_plain plain] at read
      cases read
      rw [(unescape_plain_iff plain _).2 rfl, String.ofList_toList] at valid
      exact valid identifier
    rw [noWord, List.filter_cons_of_neg valid]
    rfl

theorem arrow_no_word {tail rest : List Char}
    (arrow : tail.dropWhile isAsciiBlank = '=' :: '>' :: rest) : wordAhead? tail = none := by
  apply unspelled_no_word
  intro word gap after valid _ split
  obtain ⟨c, cs, spelled, words⟩ := identifier_chars valid
  have first := words c List.mem_cons_self
  rw [split, spelled, List.cons_append,
    List.dropWhile_cons_of_neg (by simp [Name.word_not_blank first])] at arrow
  cases (List.cons.inj arrow).1
  contradiction

theorem keyless_no_word {cs : List Char} (noKey : keyAhead? ('\'' :: cs) = none) :
    wordAhead? cs = none := by
  apply unspelled_no_word
  intro word gap after valid between split
  have found := @keyAhead?_spelled [] _ _ rfl (identifier_plain valid) between after
  rw [List.nil_append, ← split, noKey] at found
  cases found

theorem lineWords_match {text key rest : List Char} (found : keyAhead? text = some (key, rest)) :
    lineWords true text [] = [String.ofList (unescape key)].filter Name.isIdentifier
      ++ lineWords false rest [] := by
  obtain ⟨body, tail, opens, read, arrow⟩ := keyAhead?_iff.1 found
  obtain ⟨blanks, leading, split⟩ := blanks_split text
  obtain ⟨gap, between, tailSplit⟩ := blanks_split tail
  rw [arrow] at tailSplit
  have quiet : '\'' ∉ gap ++ ['='] := by
    intro member
    rcases List.mem_append.1 member with blank | sign
    · have := List.all_eq_true.1 between _ blank
      contradiction
    · cases List.mem_singleton.1 sign
  have passed : lineWords false tail [] = lineWords false rest [] := by
    have joined : tail = (gap ++ ['=']) ++ '>' :: rest := by simp [tailSplit]
    rw [joined, lineWords_unquoted quiet (by decide) (by decide)]
  rw [split, opens, lineWords_blanks leading, lineWords_quote, if_pos rfl, List.append_nil,
    wordAhead?_quoted read tailSplit between, lineWords_quoted read (arrow_no_word arrow), passed]

theorem lineWords_passes {c : Char} {cs : List Char} {fresh : Bool}
    (noKey : fresh = true → keyAhead? (c :: cs) = none) :
    lineWords fresh (c :: cs) [] = lineWords (c = '\n' || fresh && isAsciiBlank c) cs [] := by
  by_cases quote : c = '\''
  · subst c
    have noWord : (if fresh then wordAhead? (cs ++ []) else none) = none := by
      cases fresh with
      | false => rfl
      | true => rw [if_pos rfl, List.append_nil, keyless_no_word (noKey rfl)]
    have dark : isAsciiBlank '\'' = false := by decide
    rw [lineWords_quote, noWord, dark]
    simp
  · exact lineWords_other quote fresh cs []

/-- The scan tries a key only where a line begins. Behind blanks the line is still fresh, but a key
    there would have been found at its beginning. -/
def Settled (opens fresh : Bool) (text : List Char) : Prop :=
  opens = fresh ∨ fresh = true ∧ keyAhead? text = none

theorem settled_keyless {opens fresh : Bool} {text : List Char} (settled : Settled opens fresh text)
    (noKey : opens = true → keyAhead? text = none) : fresh = true → keyAhead? text = none := by
  intro begins
  rcases settled with same | ⟨_, known⟩
  · exact noKey (same.trans begins)
  · exact known

theorem settled_next {c : Char} {cs : List Char} {fresh : Bool}
    (noKey : fresh = true → keyAhead? (c :: cs) = none) :
    Settled (c = '\n') (c = '\n' || fresh && isAsciiBlank c) cs := by
  by_cases blank : fresh = true ∧ isAsciiBlank c = true
  · right
    rw [← keyAhead?_blank blank.2, noKey blank.1, blank.1, blank.2]
    simp
  · left
    rw [← Bool.and_eq_true] at blank
    rw [eq_false_of_ne_true blank, Bool.or_false]

theorem keysFrom_step (opens : Bool) (c : Char) (cs : List Char) :
    (∃ key rest, opens = true ∧ keyAhead? (c :: cs) = some (key, rest) ∧
        rest.length < (c :: cs).length ∧
        keysFrom 0 opens (c :: cs) = key :: keysFrom 0 false rest) ∨
      (opens = true → keyAhead? (c :: cs) = none) ∧
        keysFrom 0 opens (c :: cs) = keysFrom 0 (c = '\n') cs := by
  by_cases here : opens = true ∧ ∃ key rest, keyAhead? (c :: cs) = some (key, rest)
  · left
    obtain ⟨rfl, key, rest, found⟩ := here
    obtain ⟨blanks, gap, split, _⟩ := keyAhead?_eq found
    refine ⟨key, rest, rfl, found, ?_, keysFrom_found_first found⟩
    rw [split]
    simp only [List.length_append, List.length_cons]
    omega
  · right
    have noKey : opens = true → keyAhead? (c :: cs) = none := by
      intro line
      rw [Option.eq_none_iff_forall_ne_some]
      exact fun r found => here ⟨line, r.1, r.2, found⟩
    exact ⟨noKey, keysFrom_passes noKey⟩

/-- The identifiers of the scan are the words that open a line. The induction is on the length of
    the text, since a step may pass over many lines; `Settled` is what each step keeps. -/
theorem keysFrom_words {opens fresh : Bool} {text : List Char}
    (settled : Settled opens fresh text) :
    ((keysFrom 0 opens text).map fun key => String.ofList (unescape key)).filter Name.isIdentifier
      = lineWords fresh text [] := by
  induction h : text.length using Nat.strongRecOn generalizing opens fresh text with
  | ind n ih =>
    cases text with
    | nil => rfl
    | cons c cs =>
      rcases keysFrom_step opens c cs with ⟨key, rest, rfl, found, shorter, step⟩ | ⟨noKey, step⟩
      · have begins : fresh = true := settled.elim Eq.symm And.left
        have later := ih rest.length (h ▸ shorter) (Or.inl (Eq.refl false)) rfl
        rw [begins, step, lineWords_match found, List.map_cons, ← List.singleton_append,
          List.filter_append, later]
      · have noWord := settled_keyless settled noKey
        rw [step, lineWords_passes noWord]
        exact ih cs.length (by rw [← h]; simp) (settled_next noWord) rfl

theorem identifiersOf_words (content : String) :
    identifiersOf content = lineWords true content.toList [] :=
  keysFrom_words (Or.inl rfl)

theorem lineWords_lines (fresh : Bool) (xs ys behind : List Char) :
    lineWords fresh (xs ++ '\n' :: ys) behind
      = lineWords fresh (xs ++ ['\n']) (ys ++ behind) ++ lineWords true ys behind := by
  induction xs generalizing fresh with
  | nil => simp [lineWords]
  | cons x xs ih =>
    rw [List.cons_append, List.cons_append, lineWords, lineWords, ih]
    simp

/-- Whether an identifier is a key depends on the line that opens with it and on nothing else. In
    order and number too, the identifiers among the keys are the words that open a line, and lines
    before a text put theirs before those of the text, which stay as they are. -/
theorem identifier_keys_local (content : String) :
    (∀ key : String, Name.isIdentifier key = true →
      (key ∈ definedKeys content ↔ OpensLine key.toList content.toList)) ∧
    identifiersOf content = lineWords true content.toList [] ∧
    ∀ before : String, identifiersOf (before ++ "\n" ++ content)
      = lineWords true (before ++ "\n").toList content.toList ++ identifiersOf content := by
  refine ⟨fun key valid => identifier_found_iff valid, identifiersOf_words content, ?_⟩
  intro before
  have text : (before ++ "\n" ++ content).toList = before.toList ++ '\n' :: content.toList := by
    simp
  have lines : (before ++ "\n").toList = before.toList ++ ['\n'] := by simp
  rw [identifiersOf_words, identifiersOf_words, text, lines, lineWords_lines, List.append_nil]

def tangledContent : String :=
  "// don't\n'odd\n 'title' => 'x',\n\n\t'body'\n => '\\\n'slug' => 'n',\n'n\n  \\'forged' => 1"

theorem tangled_keys_found :
    Name.isIdentifier "slug" = true ∧ "slug" ∈ definedKeys tangledContent ∧
    Name.isIdentifier "forged" = true ∧ ¬ OpensLine "forged".toList tangledContent.toList ∧
    identifiersOf tangledContent = ["title", "body", "slug"] ∧
    identifiersOf ("'a\\\n" ++ "\n" ++ tangledContent) = ["title", "body", "slug"] := by
  obtain ⟨found, words, behind⟩ := identifier_keys_local tangledContent
  have slug : Name.isIdentifier "slug" = true := by decide
  have forged : Name.isIdentifier "forged" = true := by decide
  have line : OpensLine "slug".toList tangledContent.toList :=
    ⟨tangledContent.toList.take 47, [], [' '], tangledContent.toList.drop 56, by decide, by decide,
      by decide, by decide⟩
  have absent : "forged" ∉ definedKeys tangledContent := by decide
  have listed : identifiersOf tangledContent = ["title", "body", "slug"] := words.trans (by decide)
  refine ⟨slug, (found "slug" slug).2 line, forged, ?_, listed, ?_⟩
  · exact fun opens => absent ((found "forged" forged).2 opens)
  · rw [behind, listed]
    decide

end BladeForm.Language
