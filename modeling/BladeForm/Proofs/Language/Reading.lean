import BladeForm.Proofs.Language.Layout
import BladeForm.Proofs.Php.Group

/-!
How the array reader takes the lines of a language file. Where a key may come they are pairs;
within a comment they are nothing, unless a label ends the comment; anywhere else they are no
PHP.
-/
namespace BladeForm.Language
open Text Php

variable {pairs : List (String × String)} {spot : Spot}

theorem run_line (e : Entry) :
    Reader.run ⟨pairs, .ready, .code⟩ (lineChars e) = some ⟨pairs ++ [e], .ready, .code⟩ := by
  have opens : Reader.run ⟨pairs, .ready, .code⟩ (lineChars e)
      = Reader.run ⟨pairs, .ready, .literal [] false⟩ (Php.escape e.1.toList ++ '\''
        :: ' ' :: '=' :: '>' :: ' ' :: '\'' :: (Php.escape e.2.toList ++ ['\'', ',', '\n'])) := rfl
  have value : Reader.run ⟨pairs, .keyed e.1, .code⟩
      (' ' :: '=' :: '>' :: ' ' :: '\'' :: (Php.escape e.2.toList ++ ['\'', ',', '\n']))
      = Reader.run ⟨pairs, .arrowed e.1, .literal [] false⟩
        (Php.escape e.2.toList ++ '\'' :: [',', '\n']) := rfl
  rw [opens, Reader.run_literal]
  simp only [Reader.close, List.nil_append, String.ofList_toList, Option.bind_some]
  rw [value, Reader.run_literal]
  simp only [Reader.close, List.nil_append, String.ofList_toList, Option.bind_some]
  rfl

theorem run_lines (es : List Entry) :
    Reader.run ⟨pairs, .ready, .code⟩ (es.flatMap lineChars)
      = some ⟨pairs ++ es, .ready, .code⟩ := by
  induction es generalizing pairs with
  | nil => simp [Reader.run_nil]
  | cons e es ih =>
    rw [List.flatMap_cons, Reader.run_append, run_line, Option.bind_some, ih, List.append_assoc]
    rfl

theorem render_pairs (es : List Entry) : groupPairs? (render es).toList = some es := by
  have opens : Reader.start.run header = some ⟨[], .ready, .code⟩ := by decide
  have closes : Reader.run ⟨es, .ready, .code⟩ [']', ';', '\n'] = some ⟨es, .done, .code⟩ := rfl
  rw [groupPairs?, render_toList, Reader.finish?_append opens, Reader.finish?_append (run_lines es),
    List.nil_append, Reader.finish?, closes]
  rfl

theorem line_ready {e : Entry} {r : Reader}
    (read : Reader.run ⟨pairs, spot, .code⟩ (lineChars e) = some r) : spot = .ready := by
  cases spot with
  | ready => rfl
  | arrowed k =>
    -- the key would be a value, and no arrow may follow it
    have value : Reader.run ⟨pairs, .arrowed k, .literal [] false⟩ (Php.escape e.1.toList ++ '\''
      :: ' ' :: '=' :: '>' :: ' ' :: '\'' :: (Php.escape e.2.toList ++ ['\'', ',', '\n']))
      = some r := read
    rw [Reader.run_literal] at value
    cases value
  | tag => cases read
  | opened => cases read
  | returned => cases read
  | keyed k => cases read
  | valued => cases read
  | closed => cases read
  | done => cases read

theorem close_word {r : Reader} {text : List Char}
    (closed : Reader.close ⟨pairs, spot, .code⟩ text = some r) {c : Char}
    (word : Name.isWordChar c = true) : r.step c = none := by
  have apart (d : Char) (other : Name.isWordChar d = false) : c ≠ d := Name.word_ne word other
  have space : isSpace c = false := by
    simp [isSpace, apart ' ' (by decide), apart '\t' (by decide), apart '\n' (by decide),
      apart '\r' (by decide)]
  have slash := apart '/' (by decide)
  have hash := apart '#' (by decide)
  cases spot with
  | ready =>
    cases closed
    have arrow := apart '=' (by decide)
    simp [Reader.step, Reader.code, Reader.token, space, slash, hash, arrow]
  | arrowed k =>
    cases closed
    have comma := apart ',' (by decide)
    have bracket := apart ']' (by decide)
    simp [Reader.step, Reader.code, Reader.token, space, slash, hash, comma, bracket]
  | tag => cases closed
  | opened => cases closed
  | returned => cases closed
  | keyed k => cases closed
  | valued => cases closed
  | closed => cases closed
  | done => cases closed

theorem line_stuck {e : Entry} (valid : Name.isIdentifier e.1 = true) (text rest : List Char) :
    Reader.run ⟨pairs, spot, .literal text false⟩ (lineChars e ++ rest) = none := by
  obtain ⟨c, cs, spelled, words⟩ := identifier_chars valid
  have blanks : Php.escape [' ', ' ', ' ', ' '] = [' ', ' ', ' ', ' '] := rfl
  have key : Php.escape e.1.toList = c :: cs := by
    rw [escape_plain (identifier_plain valid), spelled]
  have split : lineChars e ++ rest = Php.escape [' ', ' ', ' ', ' '] ++ '\'' :: c :: (cs
      ++ '\'' :: ' ' :: '=' :: '>' :: ' ' :: '\'' :: (Php.escape e.2.toList
      ++ '\'' :: ',' :: '\n' :: rest)) := by
    simp [lineChars, key, blanks]
  rw [split, Reader.run_literal]
  cases closed : Reader.close ⟨pairs, spot, .code⟩ (text ++ [' ', ' ', ' ', ' ']) with
  | none => rfl
  | some r =>
    -- the first quote of the line ends the text, and no token begins with a letter there
    rw [Option.bind_some, Reader.run_cons, close_word closed (words c List.mem_cons_self)]
    rfl

theorem label_in_comment {label : List Char} (quiet : ¬ ['*', '/'] <:+: label) {star : Bool}
    (first : star = true → label.head? ≠ some '/') :
    ∃ star', Reader.run ⟨pairs, spot, .block star⟩ (Php.escape label)
      = some ⟨pairs, spot, .block star'⟩ := by
  induction label generalizing star with
  | nil => exact ⟨star, rfl⟩
  | cons c cs ih =>
    have later : ¬ ['*', '/'] <:+: cs := fun within => quiet (List.infix_cons within)
    cases plain : isPlain c with
    | false =>
      have calm : false = true → cs.head? ≠ some '/' := by simp
      rw [escape_special plain]
      rcases special_cases plain with rfl | rfl
      · simpa [Reader.run_cons, Reader.step] using ih later calm
      · simpa [Reader.run_cons, Reader.step] using ih later calm
    | true =>
      have stays : (star && c = '/') = false := by
        cases star with
        | false => rfl
        | true => simpa using first rfl
      have next : (decide (c = '*')) = true → cs.head? ≠ some '/' := by
        intro isStar head
        obtain ⟨ds, rfl⟩ := List.head?_eq_some_iff.1 head
        rw [of_decide_eq_true isStar] at quiet
        exact quiet ⟨[], ds, rfl⟩
      rw [escape_cons plain, Reader.run_cons]
      simp only [Reader.step, stays, Bool.false_eq_true, ↓reduceIte, Option.bind_some]
      exact ih later next

theorem line_in_comment {e : Entry} (valid : Name.isIdentifier e.1 = true)
    (quiet : ¬ ['*', '/'] <:+: e.2.toList) :
    Reader.run ⟨pairs, spot, .block false⟩ (lineChars e) = some ⟨pairs, spot, .block false⟩ := by
  have free : '/' ∉ e.1.toList := identifier_free valid (by decide)
  have split : lineChars e = ([' ', ' ', ' ', ' ', '\''] ++ (e.1.toList ++ ['\'', ' ', '=', '>', ' '])
      ++ ['\'']) ++ (Php.escape e.2.toList ++ (['\'', ','] ++ ['\n'])) := by
    simp [lineChars, escape_plain (identifier_plain valid)]
  obtain ⟨star, label⟩ := @label_in_comment pairs spot _ quiet false (by simp)
  rw [split, Reader.run_append, Reader.comment_stays_at (by simp [free]) (by decide),
    Option.bind_some]
  simp only [Char.reduceEq, decide_false]
  rw [Reader.run_append, label, Option.bind_some,
    Reader.comment_stays_at (by simp) (by decide)]
  rfl

theorem lines_in_comment {es : List Entry} (valid : IdentifierKeys es)
    (quiet : ∀ e ∈ es, ¬ ['*', '/'] <:+: e.2.toList) :
    Reader.run ⟨pairs, spot, .block false⟩ (es.flatMap lineChars)
      = some ⟨pairs, spot, .block false⟩ := by
  induction es with
  | nil => rfl
  | cons e es ih =>
    rw [List.flatMap_cons, Reader.run_append, line_in_comment (valid e List.mem_cons_self)
      (quiet e List.mem_cons_self), Option.bind_some]
    exact ih (fun d member => valid d (List.mem_cons_of_mem e member))
      fun d member => quiet d (List.mem_cons_of_mem e member)

/-- A rendered file holds what was written: the array reader finds the pairs in order, and the
    scan the keys, unless a key could be taken for an arrow, which no identifier can. -/
theorem rendered_reads_back (es : List Entry) :
    groupPairs? (render es).toList = some es ∧
    ((∀ e ∈ es, NoArrow e.1.toList) → definedKeys (render es) = es.map (·.1)) ∧
    ∀ key, Name.isIdentifier key = true → NoArrow key.toList :=
  ⟨render_pairs es, render_keys, fun _ => identifier_noArrow⟩

def hostileEntries : List Entry :=
  [("it's\\", "a\n"), ("b\n'c' =>", "\\'"), ("it's\\", "];\n    'x' => 'y',\n"), ("", "")]

theorem hostile_entries_read :
    (∀ e ∈ hostileEntries, NoArrow e.1.toList) ∧ Name.isIdentifier "title" = true ∧
    groupPairs? (render hostileEntries).toList = some hostileEntries ∧
    definedKeys (render hostileEntries) = ["it's\\", "b\n'c' =>", "it's\\", ""] ∧
    NoArrow "title".toList := by
  have quiet : ∀ e ∈ hostileEntries, NoArrow e.1.toList := by
    unfold NoArrow
    decide
  obtain ⟨pairs, keys, identifiers⟩ := rendered_reads_back hostileEntries
  exact ⟨quiet, by decide, pairs, keys quiet, identifiers "title" (by decide)⟩

/-- A label that ends a line lends its closing quote to a key that begins with an arrow. -/
example : definedKeys (render [("a", "x\n"), ("=> b", "y")]) = ["a", ",\n    "] := by
  decide +kernel

end BladeForm.Language
