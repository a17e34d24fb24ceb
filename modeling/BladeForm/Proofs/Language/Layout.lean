import BladeForm.Proofs.Language.Completion

/-!
Files in the library's own layout. Their keys are read back in order whatever the labels hold,
and an update makes of the file of some entries the file of these and the new ones; so a file
kept by any number of updates is a list of entries that only grows at its end.
-/
namespace BladeForm.Language
open Text Php

def header : List Char :=
  ['<', '?', 'p', 'h', 'p', '\n', '\n', 'r', 'e', 't', 'u', 'r', 'n', ' ', '[', '\n']

theorem render_toList (es : List Entry) :
    (render es).toList = header ++ (es.flatMap lineChars ++ [']', ';', '\n']) := by
  change ("<?php\n\nreturn [\n" ++ entryLines es ++ "];\n").toList = _
  simp [header, entryLines_toList]

/-- The key is not taken for an arrow where the line before it ends in a lone quote. -/
def NoArrow (key : List Char) : Prop := ¬ ['=', '>'] <+: key.dropWhile isAsciiBlank

theorem identifier_noArrow {key : String} (valid : Name.isIdentifier key = true) :
    NoArrow key.toList := by
  obtain ⟨c, cs, spelled, words⟩ := identifier_chars valid
  have first := Name.word_not_blank (words c List.mem_cons_self)
  rw [NoArrow, spelled, List.dropWhile_cons_of_neg (by simp [first])]
  rintro ⟨rest, same⟩
  cases (List.cons.inj same).1
  exact absurd (words _ List.mem_cons_self) (by decide)

theorem quotedBody?_escape (text rest : List Char) :
    quotedBody? (Php.escape text ++ '\'' :: rest) = some (Php.escape text, rest) := by
  induction text with
  | nil => exact quotedBody?_quote rest
  | cons c cs ih =>
    cases plain : isPlain c with
    | false =>
      have feed : c ≠ '\n' := by
        rintro rfl
        contradiction
      rw [escape_special plain, List.cons_append, List.cons_append, quotedBody?, if_neg feed, ih]
      rfl
    | true =>
      rw [escape_cons plain, List.cons_append, quotedBody?_char plain, ih]
      rfl

theorem keyAhead?_blank {c : Char} (blank : isAsciiBlank c = true) (cs : List Char) :
    keyAhead? (c :: cs) = keyAhead? cs := by
  simp [keyAhead?, blank]

theorem keyAhead?_other {c : Char} (blank : isAsciiBlank c = false) (quote : c ≠ '\'')
    (cs : List Char) : keyAhead? (c :: cs) = none := by
  cases found : keyAhead? (c :: cs) with
  | none => rfl
  | some r =>
    obtain ⟨body, tail, opens, _⟩ := keyAhead?_iff.1 found
    rw [List.dropWhile_cons_of_neg (by simp [blank])] at opens
    exact absurd (List.cons.inj opens).1 quote

theorem keyAhead?_quiet {text : List Char} {c : Char} (quiet : text.all isPlain = true)
    (blank : isAsciiBlank c = false) (quote : c ≠ '\'') (rest : List Char) :
    keyAhead? (text ++ c :: rest) = none := by
  induction text with
  | nil => exact keyAhead?_other blank quote rest
  | cons d ds ih =>
    simp only [List.all_cons, Bool.and_eq_true] at quiet
    cases leading : isAsciiBlank d with
    | true => rw [List.cons_append, keyAhead?_blank leading, ih quiet.2]
    | false => exact keyAhead?_other leading (plain_not_quote quiet.1) _

theorem label_no_key {rest : List Char} (stop : keyAhead? ('\'' :: rest) = none)
    (label : List Char) : keyAhead? (Php.escape label ++ '\'' :: rest) = none := by
  induction label with
  | nil => exact stop
  | cons c cs ih =>
    cases plain : isPlain c with
    | false =>
      rw [escape_special plain]
      exact keyAhead?_other (by decide) (by decide) _
    | true =>
      rw [escape_cons plain, List.cons_append]
      cases blank : isAsciiBlank c with
      | true => rw [keyAhead?_blank blank, ih]
      | false => exact keyAhead?_other blank (plain_not_quote plain) _

theorem keysFrom_passes {opens : Bool} {c : Char} {cs : List Char}
    (none : opens = true → keyAhead? (c :: cs) = none) :
    keysFrom 0 opens (c :: cs) = keysFrom 0 (c = '\n') cs := by
  rw [keysFrom]
  cases opens with
  | false => rfl
  | true => simp [none rfl]

theorem keysFrom_quiet {text : List Char} {c : Char} (quiet : text.all isPlain = true)
    (blank : isAsciiBlank c = false) (quote : c ≠ '\'') (opens : Bool) (rest : List Char) :
    keysFrom 0 opens (text ++ c :: '\n' :: rest) = keysFrom 0 true rest := by
  induction text generalizing opens with
  | nil =>
    rw [List.nil_append, keysFrom_passes (fun _ => keyAhead?_other blank quote _)]
    have feed : c ≠ '\n' := by
      rintro rfl
      contradiction
    rw [keysFrom_passes (by simp [feed])]
    rfl
  | cons d ds ih =>
    have here := keyAhead?_quiet quiet blank quote ('\n' :: rest)
    simp only [List.all_cons, Bool.and_eq_true] at quiet
    rw [List.cons_append] at here ⊢
    rw [keysFrom_passes (fun _ => here), ih quiet.2]

theorem keysFrom_label {rest : List Char} (stop : keyAhead? ('\'' :: ',' :: '\n' :: rest) = none)
    (label : List Char) (opens : Bool) :
    keysFrom 0 opens (Php.escape label ++ '\'' :: ',' :: '\n' :: rest) = keysFrom 0 true rest := by
  induction label generalizing opens with
  | nil =>
    rw [Php.escape, List.nil_append, keysFrom_passes (fun _ => stop),
      keysFrom_passes (by simp), keysFrom_passes (by simp)]
    rfl
  | cons c cs ih =>
    have here := label_no_key stop (c :: cs)
    cases plain : isPlain c with
    | false =>
      rw [escape_special plain, List.cons_append] at here ⊢
      rw [keysFrom_passes (fun _ => here), List.cons_append, keysFrom_passes (by simp), ih]
    | true =>
      rw [escape_cons plain, List.cons_append] at here ⊢
      rw [keysFrom_passes (fun _ => here), ih]

theorem keysFrom_skip (passed rest : List Char) (last : Char) (opens : Bool) :
    keysFrom (passed.length + 1) opens (passed ++ last :: rest) = keysFrom 0 (last = '\n') rest := by
  induction passed generalizing opens with
  | nil => rfl
  | cons c cs ih => exact ih (c = '\n')

theorem keysFrom_match {c : Char} {passed after key : List Char} {last : Char}
    (found : keyAhead? (c :: (passed ++ last :: after)) = some (key, after)) :
    keysFrom 0 true (c :: (passed ++ last :: after)) = key :: keysFrom 0 (last = '\n') after := by
  have skipped : (passed ++ last :: after).length - after.length = passed.length + 1 := by
    simp only [List.length_append, List.length_cons]
    omega
  rw [keysFrom]
  simp only [↓reduceIte, found, skipped, keysFrom_skip]

theorem keysFrom_line {rest : List Char} (stop : keyAhead? ('\'' :: ',' :: '\n' :: rest) = none)
    (e : Entry) :
    keysFrom 0 true (lineChars e ++ rest) = Php.escape e.1.toList :: keysFrom 0 true rest := by
  have split : lineChars e ++ rest = ' ' :: (([' ', ' ', ' '] ++ '\'' :: (Php.escape e.1.toList
      ++ ['\'', ' ', '='])) ++ '>' :: (' ' :: '\'' :: (Php.escape e.2.toList
      ++ '\'' :: ',' :: '\n' :: rest))) := by
    simp [lineChars]
  have opens : (lineChars e ++ rest).dropWhile isAsciiBlank = '\'' :: (Php.escape e.1.toList
      ++ '\'' :: (' ' :: '=' :: '>' :: ' ' :: '\'' :: (Php.escape e.2.toList
      ++ '\'' :: ',' :: '\n' :: rest))) := by
    rw [split]
    simp [isAsciiBlank]
  have found : keyAhead? (lineChars e ++ rest) = some (Php.escape e.1.toList,
      ' ' :: '\'' :: (Php.escape e.2.toList ++ '\'' :: ',' :: '\n' :: rest)) :=
    keyAhead?_iff.2 ⟨_, _, opens, quotedBody?_escape _ _, by simp [isAsciiBlank]⟩
  rw [split] at found ⊢
  rw [keysFrom_match found, keysFrom_passes (by simp), keysFrom_passes (by simp),
    keysFrom_label stop]

theorem escape_arrow {key rest after : List Char}
    (arrow : (Php.escape key ++ '\'' :: rest).dropWhile isAsciiBlank = '=' :: '>' :: after) :
    ['=', '>'] <+: key.dropWhile isAsciiBlank := by
  induction key with
  | nil =>
    rw [Php.escape, List.nil_append, List.dropWhile_cons_of_neg (by decide)] at arrow
    cases (List.cons.inj arrow).1
  | cons c cs ih =>
    cases plain : isPlain c with
    | false =>
      rw [escape_special plain, List.cons_append, List.dropWhile_cons_of_neg (by decide)] at arrow
      cases (List.cons.inj arrow).1
    | true =>
      rw [escape_cons plain, List.cons_append] at arrow
      cases blank : isAsciiBlank c with
      | true =>
        rw [List.dropWhile_cons_of_pos blank] at arrow ⊢
        exact ih arrow
      | false =>
        rw [List.dropWhile_cons_of_neg (by simp [blank])] at arrow ⊢
        obtain ⟨first, second⟩ := List.cons.inj arrow
        subst c
        cases cs with
        | nil => cases (List.cons.inj second).1
        | cons d ds =>
          cases plainNext : isPlain d with
          | false =>
            rw [escape_special plainNext] at second
            cases (List.cons.inj second).1
          | true =>
            rw [escape_cons plainNext] at second
            obtain ⟨same, _⟩ := List.cons.inj second
            subst d
            exact ⟨ds, rfl⟩

theorem line_end_no_key {es : List Entry} (quiet : ∀ e ∈ es, NoArrow e.1.toList) :
    keyAhead? ('\'' :: ',' :: '\n' :: (es.flatMap lineChars ++ [']', ';', '\n'])) = none := by
  cases es with
  | nil => decide
  | cons e es =>
    cases found : keyAhead? ('\'' :: ',' :: '\n'
        :: ((e :: es).flatMap lineChars ++ [']', ';', '\n'])) with
    | none => rfl
    | some r =>
      obtain ⟨key, rest⟩ := r
      obtain ⟨body, tail, opens, read, arrow⟩ := keyAhead?_iff.1 found
      rw [List.dropWhile_cons_of_neg (by decide)] at opens
      obtain ⟨_, same⟩ := List.cons.inj opens
      have line : body = [',', '\n', ' ', ' ', ' ', ' '] ++ '\'' :: (Php.escape e.1.toList ++ '\''
          :: (' ' :: '=' :: '>' :: ' ' :: '\'' :: (Php.escape e.2.toList ++ '\'' :: ',' :: '\n'
          :: (es.flatMap lineChars ++ [']', ';', '\n'])))) := by
        simp [← same, lineChars]
      rw [line, quotedBody?_plain (by decide)] at read
      cases read
      exact absurd (escape_arrow arrow) (quiet e List.mem_cons_self)

theorem keysFrom_lines {es : List Entry} (quiet : ∀ e ∈ es, NoArrow e.1.toList) :
    keysFrom 0 true (es.flatMap lineChars ++ [']', ';', '\n'])
      = es.map fun e => Php.escape e.1.toList := by
  induction es with
  | nil => exact @keysFrom_quiet [']'] ';' (by decide) (by decide) (by decide) true []
  | cons e es ih =>
    have later : ∀ d ∈ es, NoArrow d.1.toList := fun d member => quiet d (List.mem_cons_of_mem e member)
    rw [List.flatMap_cons, List.append_assoc, keysFrom_line (line_end_no_key later), ih later]
    rfl

/-- The keys of a rendered file are the keys of its entries, in order, whatever the labels. -/
theorem render_keys {es : List Entry} (quiet : ∀ e ∈ es, NoArrow e.1.toList) :
    definedKeys (render es) = es.map (·.1) := by
  have scanned : keysFrom 0 true (render es).toList = es.map fun e => Php.escape e.1.toList := by
    rw [render_toList, show header = header.take 14 ++ ['[', '\n'] from rfl, List.append_assoc]
    exact (keysFrom_quiet (by decide) (by decide) (by decide) true _).trans (keysFrom_lines quiet)
  rw [definedKeys, scanned, List.map_map]
  apply List.map_congr_left
  intro e _
  simp [unescape_escape]

theorem line_close (e : Entry) : ∃ line, lineChars e = line ++ [',', '\n'] :=
  ⟨[' ', ' ', ' ', ' '] ++ '\'' :: (Php.escape e.1.toList ++ ['\'', ' ', '=', '>', ' ', '\'']
    ++ Php.escape e.2.toList ++ ['\'']), by simp [lineChars]⟩

theorem lines_close (es : List Entry) :
    ∃ text c, header ++ es.flatMap lineChars = text ++ [c, '\n'] ∧ (c = '[' ∨ c = ',') := by
  rcases List.eq_nil_or_concat es with rfl | ⟨before, e, rfl⟩
  · exact ⟨header.take 14, '[', rfl, Or.inl rfl⟩
  · obtain ⟨line, ends⟩ := line_close e
    exact ⟨header ++ (before.flatMap lineChars ++ line), ',', by simp [ends], Or.inr rfl⟩

theorem render_closes (es : List Entry) :
    SplitsLast [']', ';'] (render es).toList (header ++ es.flatMap lineChars) ['\n'] := by
  refine ⟨by simp [render_toList], ?_⟩
  intro b r same
  rw [render_toList, ← List.append_assoc] at same
  have total := congrArg List.length same
  simp only [List.length_append, List.length_cons, List.length_nil] at total ⊢
  by_cases longer : b.length ≤ header.length + (es.flatMap lineChars).length
  · exact longer
  · -- a bracket any later would be the last two characters
    have short : r = [] := List.length_eq_zero_iff.1 (by omega)
    subst r
    have := congrArg List.getLast? same
    simp at this

theorem append_render (es new : List Entry) :
    append (render es) (entryLines new) = .ok (render (es ++ new)) := by
  have returns : contains ['r', 'e', 't', 'u', 'r', 'n'] (render es).toList = true := by
    rw [render_toList]
    exact contains_occurrence _ ['<', '?', 'p', 'h', 'p', '\n', '\n'] _
  obtain ⟨text, c, close, bracket⟩ := lines_close es
  have stop : isBlank c = false := by
    rcases bracket with rfl | rfl
    · decide
    · decide
  have none : separatorFor (text ++ [c]) = [] := by
    rcases bracket with rfl | rfl
    · simp [separatorFor]
    · simp [separatorFor]
  have joined : header ++ ((es ++ new).flatMap lineChars ++ [']', ';', '\n'])
      = text ++ [c, '\n'] ++ (new.flatMap lineChars ++ [']', ';', '\n']) := by
    rw [← close]
    simp
  rw [append_eq returns (render_closes es), close, opening, dropEnd_append (by decide) stop, none]
  apply congrArg Except.ok
  rw [← String.toList_inj, render_toList, joined, String.toList_ofList, entryLines_toList]
  simp

end BladeForm.Language
