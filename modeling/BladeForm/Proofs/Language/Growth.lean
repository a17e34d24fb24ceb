import BladeForm.Proofs.Language.History

/-!
The keys of a file that grows at its end. A text whose first line opens with a word is scanned as
if it stood alone, whatever text stands before it: no match begins there and ends within it. So
the file of more entries has the old keys and the new ones behind them, also where the keys of the
old file are no identifiers and the scan finds other keys than were written.
-/
namespace BladeForm.Language
open Text Php

theorem mapped_read_iff (f : List Char → List Char) {read : Option (List Char × List Char)}
    {body rest : List Char} : (read.map fun r => (f r.1, r.2)) = some (body, rest) ↔
      ∃ b, read = some (b, rest) ∧ f b = body := by
  simp only [Option.map_eq_some_iff, Prod.exists, Prod.mk.injEq]
  constructor
  · rintro ⟨b, r, found, same, rfl⟩
    exact ⟨b, found, same⟩
  · rintro ⟨b, found, same⟩
    exact ⟨b, rest, found, same, rfl⟩

theorem quotedBody?_before_iff {xs ys body r : List Char} :
    quotedBody? (xs ++ ys) = some (body, r ++ ys) ↔ quotedBody? xs = some (body, r) := by
  have shorter : ∀ b : List Char, ys ≠ b ++ '\'' :: (r ++ ys) := by
    intro b same
    have := congrArg List.length same
    simp only [List.length_append, List.length_cons] at this
    omega
  induction xs using quoted_induction generalizing body with
  | nil => exact iff_of_false (fun read => shorter body (quotedBody?_eq read)) (by simp [quotedBody?])
  | lone =>
    refine iff_of_false ?_ (by simp [quotedBody?])
    cases ys with
    | nil => simp [quotedBody?]
    | cons c ys =>
      rw [List.cons_append, List.nil_append, quotedBody?]
      intro read
      split at read
      · contradiction
      · obtain ⟨b, found, _⟩ := (mapped_read_iff ('\\' :: c :: ·)).1 read
        exact shorter (c :: b) (congrArg (c :: ·) (quotedBody?_eq found))
  | escape c more ih =>
    rw [List.cons_append, List.cons_append, quotedBody?, quotedBody?]
    split
    · simp
    · rw [mapped_read_iff ('\\' :: c :: ·), mapped_read_iff ('\\' :: c :: ·)]
      exact exists_congr fun b => and_congr_left' ih
  | quote more _ => simp [quotedBody?_quote]
  | plain c more plain ih =>
    rw [List.cons_append, quotedBody?_char plain, quotedBody?_char plain,
      mapped_read_iff (c :: ·), mapped_read_iff (c :: ·)]
    exact exists_congr fun b => and_congr_left' ih

theorem keyAhead?_before_iff {xs ys key r : List Char} :
    keyAhead? (xs ++ ys) = some (key, r ++ ys) ↔ keyAhead? xs = some (key, r) := by
  constructor
  · intro found
    obtain ⟨body, tail, opens, read, arrow⟩ := keyAhead?_iff.1 found
    obtain ⟨blanks, leading, split⟩ := blanks_split (xs ++ ys)
    obtain ⟨gap, between, tailSplit⟩ := blanks_split tail
    have closes : tail = (gap ++ '=' :: '>' :: r) ++ ys := by
      rw [tailSplit, arrow]
      simp
    have inner : body = (key ++ '\'' :: (gap ++ '=' :: '>' :: r)) ++ ys := by
      rw [quotedBody?_eq read, closes]
      simp
    rw [opens, inner, ← List.cons_append, ← List.append_assoc] at split
    rw [List.append_cancel_right split]
    rw [inner, closes, quotedBody?_before_iff] at read
    exact keyAhead?_iff.2 ⟨_, _, dropWhile_blanks leading (by decide) _, read,
      dropWhile_blanks between (by decide) _⟩
  · intro found
    obtain ⟨body, tail, opens, read, arrow⟩ := keyAhead?_iff.1 found
    have longer : ∀ {cs rest : List Char} {c : Char}, cs.dropWhile isAsciiBlank = c :: rest →
        (cs ++ ys).dropWhile isAsciiBlank = c :: (rest ++ ys) := by
      intro cs rest c left
      rw [List.dropWhile_append, left]
      rfl
    exact keyAhead?_iff.2 ⟨body ++ ys, tail ++ ys, longer opens, quotedBody?_before_iff.2 read,
      longer arrow⟩

/-- No match begins before the text and ends within it, unless it is the text's own first one. -/
def StandsApart (text : List Char) : Prop :=
  ∀ before key rest : List Char, keyAhead? (before ++ '\n' :: text) = some (key, rest) →
    before.all isAsciiBlank = true ∧ keyAhead? text = some (key, rest) ∨ text <:+ rest

theorem word_line_apart {blanks tail : List Char} {c : Char}
    (leading : blanks.all isAsciiBlank = true) (word : Name.isWordChar c = true) :
    StandsApart (blanks ++ '\'' :: c :: tail) :=
  fun _ _ _ found => match_before_line leading word found

theorem arrowless_apart {text : List Char} (free : '>' ∉ text) : StandsApart text := by
  intro before key rest found
  right
  obtain ⟨blanks, gap, split, _⟩ := keyAhead?_eq found
  have arrow : '>' :: rest <:+ before ++ '\n' :: text :=
    ⟨blanks ++ '\'' :: (key ++ '\'' :: (gap ++ ['='])), by rw [split]; simp⟩
  have whole : text <:+ before ++ '\n' :: text := ⟨before ++ ['\n'], by simp⟩
  rcases List.suffix_or_suffix_of_suffix arrow whole with within | behind
  · exact absurd (within.subset List.mem_cons_self) free
  · rcases List.suffix_cons_iff.1 behind with same | later
    · exact absurd (same ▸ List.mem_cons_self) free
    · exact later

theorem keysFrom_found_first {text key rest : List Char}
    (found : keyAhead? text = some (key, rest)) :
    keysFrom 0 true text = key :: keysFrom 0 false rest := by
  obtain ⟨blanks, gap, split, _⟩ := keyAhead?_eq found
  obtain ⟨c, passed, front⟩ : ∃ c passed,
      blanks ++ '\'' :: (key ++ '\'' :: (gap ++ ['='])) = c :: passed :=
    List.exists_cons_of_ne_nil (by simp)
  have spelled : text = c :: (passed ++ '>' :: rest) := by
    have joined := congrArg (· ++ '>' :: rest) front
    simpa [split] using joined
  rw [spelled] at found ⊢
  exact keysFrom_match found

theorem keysFrom_arrowless {text : List Char} (free : '>' ∉ text) (opens : Bool) :
    keysFrom 0 opens text = [] := by
  rw [List.eq_nil_iff_forall_not_mem]
  intro key member
  obtain ⟨before, rest, after, rfl, _, found⟩ := keysFrom_found member
  obtain ⟨blanks, gap, rfl, _⟩ := keyAhead?_eq found
  exact free (by simp)

theorem blank_arrowless {blanks : List Char} (all : blanks.all isAsciiBlank = true) :
    '>' ∉ blanks := by
  intro member
  have := List.all_eq_true.1 all _ member
  contradiction

theorem match_within_line {before key r : List Char}
    (found : keyAhead? (before ++ ['\n']) = some (key, r)) :
    ∃ later, r = later ++ ['\n'] ∧ later.length < before.length := by
  obtain ⟨blanks, gap, split, _⟩ := keyAhead?_eq found
  have line : before ++ ['\n']
      = (blanks ++ '\'' :: (key ++ '\'' :: (gap ++ ['='])) ++ ['>']) ++ r := by
    rw [split]
    simp
  rcases List.eq_nil_or_concat r with rfl | ⟨later, d, rfl⟩
  · rw [List.append_nil] at line
    cases (List.append_inj' line rfl).2
  · rw [List.concat_eq_append, ← List.append_assoc] at line
    obtain ⟨front, feed⟩ := List.append_inj' line rfl
    refine ⟨later, by rw [List.concat_eq_append, feed], ?_⟩
    rw [front]
    simp only [List.length_append, List.length_cons]
    omega

theorem keysFrom_apart {text : List Char} (apart : StandsApart text) (before : List Char)
    (opens : Bool) : keysFrom 0 opens (before ++ '\n' :: text)
      = keysFrom 0 opens (before ++ ['\n']) ++ keysFrom 0 true text := by
  -- on the length of the first text: a match ends in it or is the first one of the second
  induction h : before.length using Nat.strongRecOn generalizing before opens with
  | ind n ih =>
    have whole : before ++ '\n' :: text = (before ++ ['\n']) ++ text := by simp
    by_cases here : opens = true ∧ ∃ key rest, keyAhead? (before ++ '\n' :: text) = some (key, rest)
    · obtain ⟨rfl, key, rest, found⟩ := here
      rw [keysFrom_found_first found]
      rcases apart before key rest found with ⟨blank, own⟩ | ⟨r, rfl⟩
      · have none : '>' ∉ before ++ ['\n'] := by simpa using blank_arrowless blank
        rw [keysFrom_arrowless none, keysFrom_found_first own, List.nil_append]
      · rw [whole, keyAhead?_before_iff] at found
        obtain ⟨later, rfl, shorter⟩ := match_within_line found
        rw [keysFrom_found_first found, List.append_assoc, List.singleton_append,
          ih _ (h ▸ shorter) later false rfl]
        rfl
    · have noKey : opens = true → keyAhead? (before ++ '\n' :: text) = none := by
        intro line
        rw [Option.eq_none_iff_forall_ne_some]
        exact fun r found => here ⟨line, r.1, r.2, found⟩
      have noKeyAlone : opens = true → keyAhead? (before ++ ['\n']) = none := by
        intro line
        rw [Option.eq_none_iff_forall_ne_some]
        intro r found
        rw [whole, keyAhead?_before_iff.2 found] at noKey
        cases noKey line
      cases before with
      | nil =>
        have none : keysFrom 0 opens ['\n'] = [] := keysFrom_arrowless (by decide) opens
        simp only [List.nil_append] at noKey ⊢
        rw [keysFrom_passes noKey, none]
        rfl
      | cons b bs =>
        rw [List.cons_append] at noKey noKeyAlone ⊢
        rw [List.cons_append, keysFrom_passes noKey, keysFrom_passes noKeyAlone]
        exact ih bs.length (by rw [← h]; simp) bs _ rfl

theorem definedKeys_apart {text : List Char} (apart : StandsApart text) (before : List Char) :
    definedKeys (String.ofList (before ++ '\n' :: text))
      = definedKeys (String.ofList (before ++ ['\n'])) ++ definedKeys (String.ofList text) := by
  simp only [definedKeys, String.toList_ofList, keysFrom_apart apart, List.map_append]

theorem definedKeys_behind (es : List Entry) {text : List Char} (apart : StandsApart text) :
    definedKeys (String.ofList (header ++ (es.flatMap lineChars ++ text)))
      = definedKeys (String.ofList (header ++ es.flatMap lineChars))
        ++ definedKeys (String.ofList text) := by
  obtain ⟨lines, c, close, _⟩ := lines_close es
  have whole : lines ++ [c, '\n'] ++ text = (lines ++ [c]) ++ '\n' :: text := by simp
  have front : lines ++ [c, '\n'] = (lines ++ [c]) ++ ['\n'] := by simp
  rw [← List.append_assoc, close, whole, definedKeys_apart apart, ← front]

theorem definedKeys_render (es : List Entry) : definedKeys (render es)
    = definedKeys (String.ofList (header ++ es.flatMap lineChars)) := by
  have text : render es = String.ofList (header ++ (es.flatMap lineChars ++ [']', ';', '\n'])) := by
    rw [← String.toList_inj, render_toList, String.toList_ofList]
  have closing : definedKeys (String.ofList [']', ';', '\n']) = [] := by decide
  rw [text, definedKeys_behind es (arrowless_apart (by decide)), closing, List.append_nil]

/-- A line that is written stands apart from all before it, whatever the labels. -/
theorem lines_apart {e : Entry} (valid : Name.isIdentifier e.1 = true) (rest : List Char) :
    StandsApart (lineChars e ++ rest) := by
  obtain ⟨w, ws, spelled, words⟩ := identifier_chars valid
  have key : Php.escape e.1.toList = w :: ws := by
    rw [escape_plain (identifier_plain valid), spelled]
  have opens : lineChars e ++ rest = [' ', ' ', ' ', ' '] ++ '\'' :: w :: (ws ++ '\'' :: ' ' :: '='
      :: '>' :: ' ' :: '\'' :: (Php.escape e.2.toList ++ '\'' :: ',' :: '\n' :: rest)) := by
    simp [lineChars, key]
  have blanks : [' ', ' ', ' ', ' '].all isAsciiBlank = true := by decide
  rw [opens]
  exact word_line_apart blanks (words w List.mem_cons_self)

theorem definedKeys_lines (es : List Entry) {e : Entry} (valid : Name.isIdentifier e.1 = true)
    (new : List Entry) : definedKeys (render (es ++ e :: new)) = definedKeys (render es)
      ++ definedKeys (String.ofList ((e :: new).flatMap lineChars ++ [']', ';', '\n'])) := by
  have text : render (es ++ e :: new) = String.ofList (header ++ (es.flatMap lineChars
      ++ ((e :: new).flatMap lineChars ++ [']', ';', '\n']))) := by
    rw [← String.toList_inj, render_toList, String.toList_ofList, List.flatMap_append,
      List.append_assoc]
  have apart : StandsApart ((e :: new).flatMap lineChars ++ [']', ';', '\n']) := by
    rw [List.flatMap_cons, List.append_assoc]
    exact lines_apart valid _
  rw [text, definedKeys_behind es apart, definedKeys_render]

theorem render_grows (es : List Entry) {new : List Entry} (valid : IdentifierKeys new) :
    definedKeys (render (es ++ new)) = definedKeys (render es) ++ new.map (·.1) := by
  cases new with
  | nil => simp
  | cons e new =>
    have first := valid e List.mem_cons_self
    have alone : definedKeys (render (e :: new)) = (e :: new).map (·.1) :=
      render_keys fun d member => identifier_noArrow (valid d member)
    have empty : definedKeys (render []) = [] := @render_keys [] (by simp)
    have lines := definedKeys_lines [] first new
    rw [List.nil_append, alone, empty, List.nil_append] at lines
    rw [definedKeys_lines es first, lines]

end BladeForm.Language
