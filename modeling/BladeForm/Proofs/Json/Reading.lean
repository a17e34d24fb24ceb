import BladeForm.Proofs.Json.Scalar

/-!
The reader of JSON and its grammar. A text is read exactly if it writes a value within the limit
of nesting, and then what is read is that value with its members sorted.
-/
namespace BladeForm.Json

section
variable {bs cs rest more : List Char} {fuel n : Nat} {c : Char}

theorem skipBlanks_other (visible : isBlank c = false) (cs : List Char) :
    skipBlanks (c :: cs) = c :: cs :=
  List.dropWhile_cons_of_neg (show ¬ isBlank c = true by simp [visible])

theorem value_blanks (blank : Blank bs) (fuel n : Nat) (cs : List Char) :
    value fuel n (bs ++ cs) = value fuel n cs := by
  cases fuel with
  | zero => rw [value, value]
  | succ fuel => rw [value, value, skipBlanks_append blank]

theorem value_skipped (fuel n : Nat) (cs : List Char) :
    value fuel n (skipBlanks cs) = value fuel n cs := by
  obtain ⟨bs, blank, split⟩ := skipBlanks_split cs
  rw [← value_blanks blank, ← split]

def IsOpening (c : Char) : Prop := isBlank c = false ∧ c ≠ ']'

theorem blank_cases (blank : isBlank c = true) : c = ' ' ∨ c = '\t' ∨ c = '\n' ∨ c = '\r' := by
  simpa [isBlank, or_assoc] using blank

theorem digit_opens (digit : c.isDigit = true) : IsOpening c := by
  constructor
  · cases blank : isBlank c with
    | false => rfl
    | true => rcases blank_cases blank with rfl | rfl | rfl | rfl <;> contradiction
  · rintro rfl
    contradiction

theorem value_digit (digit : c.isDigit = true) (fuel n : Nat) (cs : List Char) :
    value (fuel + 1) n (c :: cs) = number false (c :: cs) := by
  have other {d : Char} {more : List Char} (letter : d.isDigit = false) : c :: cs ≠ d :: more := by
    rintro same
    rw [← (List.cons.inj same).1, digit] at letter
    contradiction
  rw [value, skipBlanks_other (digit_opens digit).1]
  split
  all_goals first | exact absurd ‹_› (other rfl) | skip
  · contradiction
  · next same =>
    cases same
    rw [if_pos digit]

theorem number_begins {l : Literal} (written : WritesNumber l cs) :
    ∃ c more, cs = c :: more ∧ IsOpening c := by
  obtain @⟨negative, _, _, _, _, _, _, whole, _, _⟩ := written
  cases negative with
  | true => exact ⟨'-', _, rfl, by decide, by decide⟩
  | false =>
    obtain ⟨c, more, rfl, digit⟩ := whole_begins whole
    exact ⟨c, _, rfl, digit_opens digit⟩

theorem value_number {l : Literal} {v : Value} (written : WritesNumber l cs)
    (known : l.value? = some v) (ends : EndsNumber rest) :
    value (fuel + 1) n (cs ++ rest) = .ok (v, rest) := by
  obtain @⟨negative, ws, f, e, cs₁, cs₂, cs₃, whole, point, power⟩ := written
  have read := number_read whole point power known ends
  cases negative with
  | true =>
    simp only [if_true, List.cons_append, List.append_assoc]
    exact read
  | false =>
    obtain ⟨c, more, rfl, digit⟩ := whole_begins whole
    simp only [Bool.false_eq_true, if_false, List.nil_append, List.append_assoc, List.cons_append]
    rw [value_digit digit]
    exact read

theorem number_sorted {l : Literal} {v : Value} (known : l.value? = some v) : v.sorted = v := by
  rw [Literal.value?] at known
  split at known <;> cases known <;> rfl

theorem value_begins {v : Value} (written : Writes n (.value v) cs) :
    ∃ c more, cs = c :: more ∧ IsOpening c := by
  cases written with
  | null | yes | no => exact ⟨_, _, rfl, by decide, by decide⟩
  | number written => exact number_begins written
  | string written =>
    obtain ⟨body, _, rfl⟩ := written
    exact ⟨_, _, rfl, by decide, by decide⟩
  | noItems | array | noMembers | object => exact ⟨_, _, rfl, by decide, by decide⟩

theorem padded_begins {v : Value} (written : Writes n (.padded v) cs) (rest : List Char) :
    ∃ c more, skipBlanks (cs ++ rest) = c :: more ∧ c ≠ ']' := by
  cases written with
  | @padded _ _ _ _ after blank inner _ =>
    obtain ⟨c, more, rfl, visible, other⟩ := value_begins inner
    refine ⟨c, more ++ (after ++ rest), ?_, other⟩
    rw [List.append_assoc, skipBlanks_append blank, List.append_assoc, List.cons_append,
      skipBlanks_other visible]

theorem items_begins {vs : List Value} (written : Writes n (.items vs) cs) (rest : List Char) :
    ∃ c more, skipBlanks (cs ++ rest) = c :: more ∧ c ≠ ']' := by
  cases written with
  | lastItem written => exact padded_begins written rest
  | item written _ =>
    rw [List.append_assoc]
    exact padded_begins written _

theorem items_close (blank : Blank bs) (first : Bool) :
    items (fuel + 1) n first (bs ++ ']' :: rest) = .ok ([], rest) := by
  rw [items, skipBlanks_append blank]
  rfl

def itemsFrom (fuel n : Nat) (cs : List Char) : Except ReadError (List Value × List Char) :=
  value fuel n cs >>= fun r => items fuel n false r.2 >>= fun q => .ok (r.1 :: q.1, q.2)

theorem items_first (begins : skipBlanks cs = c :: more) (other : c ≠ ']') :
    items (fuel + 1) n true cs = itemsFrom fuel n cs := by
  rw [items, begins, itemsFrom, ← value_skipped fuel n cs, begins]
  dsimp only
  rw [if_neg other, if_pos rfl]

theorem items_more (blank : Blank bs) (begins : skipBlanks cs = c :: more) (other : c ≠ ']') :
    items (fuel + 1) n false (bs ++ ',' :: cs) = itemsFrom fuel n cs := by
  rw [items, skipBlanks_append blank, skipBlanks_other (by decide)]
  dsimp only
  rw [if_neg (by decide), if_neg (by decide), if_pos rfl, itemsFrom, ← value_skipped fuel n cs,
    begins]
  split
  · contradiction
  · next same => exact absurd (List.cons.inj same).1 other
  · rfl

theorem members_close (blank : Blank bs) (first : Bool) (soFar : List (String × Value)) :
    members (fuel + 1) n first soFar (bs ++ '\x7d' :: rest) = .ok (soFar, rest) := by
  rw [members, skipBlanks_append blank]
  rfl

def membersFrom (fuel n : Nat) (soFar : List (String × Value)) (cs : List Char) :
    Except ReadError (List (String × Value) × List Char) :=
  string cs >>= fun k => colon k.2 >>= fun q => value fuel n q.2 >>= fun r =>
    members fuel n false (insertMember k.1 r.1 soFar) r.2

theorem members_first (begins : skipBlanks cs = '"' :: more) (soFar : List (String × Value)) :
    members (fuel + 1) n true soFar cs = membersFrom fuel n soFar more := by
  rw [members, begins]
  rfl

theorem members_more (blank : Blank bs) (begins : skipBlanks cs = '"' :: more)
    (soFar : List (String × Value)) :
    members (fuel + 1) n false soFar (bs ++ ',' :: cs) = membersFrom fuel n soFar more := by
  rw [members, skipBlanks_append blank, skipBlanks_other (by decide)]
  split
  · contradiction
  · next same => exact absurd (List.cons.inj same).1 (by decide)
  · next same =>
    cases same
    rw [if_pos (by decide), if_neg (by decide), begins]
    rfl

theorem key_begins {key : String} (written : WritesKey key bs) (cs : List Char) :
    ∃ more, skipBlanks (bs ++ ':' :: cs) = '"' :: more ∧
      ∃ rest, string more = .ok (key, rest) ∧ colon rest = .ok ((), cs) := by
  obtain ⟨before, _, after, blank, ⟨body, chars, rfl⟩, blank', rfl⟩ := written
  refine ⟨body ++ '"' :: (after ++ ':' :: cs), ?_, after ++ ':' :: cs, ?_, ?_⟩
  · simp only [List.append_assoc, List.cons_append, List.nil_append]
    rw [skipBlanks_append blank, skipBlanks_other (by decide)]
  · exact string_ok.2 ⟨_, ⟨body, chars, rfl⟩, by simp⟩
  · exact colon_ok.2 ⟨after, blank', rfl⟩

/-- What the reader makes of a phrase, whatever stands behind it. -/
def Reads (n : Nat) (cs : List Char) : Phrase → Prop
  | .value v => ∀ fuel rest, 2 * cs.length ≤ fuel → EndsNumber rest →
      value fuel n (cs ++ rest) = .ok (v.sorted, rest)
  | .padded v => ∀ fuel rest, 2 * cs.length ≤ fuel → EndsNumber rest →
      ∃ bs, Blank bs ∧ value fuel n (cs ++ rest) = .ok (v.sorted, bs ++ rest)
  | .items vs => ∀ fuel rest, 2 * cs.length + 1 ≤ fuel →
      itemsFrom fuel n (cs ++ ']' :: rest) = .ok (sortedItems vs, rest)
  | .members ms => ∀ fuel soFar rest, 2 * cs.length + 1 ≤ fuel → ∃ more,
      skipBlanks (cs ++ '\x7d' :: rest) = '"' :: more ∧
      membersFrom fuel n soFar more = .ok (sortedMembers soFar ms, rest)

theorem blank_ends (blank : Blank bs) (ends : EndsNumber rest) : EndsNumber (bs ++ rest) := by
  cases bs with
  | nil => exact ends
  | cons b bs =>
    intro c first
    cases first
    rcases blank_cases (blank b List.mem_cons_self) with rfl | rfl | rfl | rfl <;> decide

theorem mark_ends {mark : Char} (marked : mark = ']' ∨ mark = '\x7d' ∨ mark = ',')
    (rest : List Char) : EndsNumber (mark :: rest) := by
  intro c first
  cases first
  rcases marked with rfl | rfl | rfl <;> decide

theorem value_string {s : String} (written : WritesString s cs) :
    value (fuel + 1) n (cs ++ rest) = .ok (.string s, rest) := by
  obtain ⟨body, chars, rfl⟩ := written
  have read : string (body ++ '"' :: rest) = .ok (s, rest) :=
    string_ok.2 ⟨_, ⟨body, chars, rfl⟩, by simp⟩
  rw [List.cons_append, List.append_assoc, value]
  change (string (body ++ '"' :: rest) >>= _) = _
  rw [read]
  rfl

theorem value_array (fuel n : Nat) (cs : List Char) : value (fuel + 1) (n + 1) ('[' :: cs) =
    items fuel n true cs >>= fun r => .ok (.array r.1, r.2) := by
  rw [value]
  rfl

theorem value_object (fuel n : Nat) (cs : List Char) : value (fuel + 1) (n + 1) ('\x7b' :: cs) =
    members fuel n true [] cs >>= fun r => .ok (.object r.1, r.2) := by
  rw [value]
  rfl

theorem reads_word {v : Value} (some : 0 < cs.length) (sorted : v.sorted = v)
    (read : ∀ fuel rest, value (fuel + 1) n (cs ++ rest) = .ok (v, rest)) :
    Reads n cs (.value v) := by
  intro fuel rest enough _
  obtain ⟨fuel, rfl⟩ : ∃ f, fuel = f + 1 := ⟨fuel - 1, by omega⟩
  rw [read, sorted]

theorem reads_null : Reads n "null".toList (.value .null) := by
  refine reads_word (by decide) rfl fun fuel rest => ?_
  rw [value]
  exact keyword_ok.2 ⟨rfl, rfl⟩

theorem reads_yes : Reads n "true".toList (.value (.bool true)) := by
  refine reads_word (by decide) rfl fun fuel rest => ?_
  rw [value]
  exact keyword_ok.2 ⟨rfl, rfl⟩

theorem reads_no : Reads n "false".toList (.value (.bool false)) := by
  refine reads_word (by decide) rfl fun fuel rest => ?_
  rw [value]
  exact keyword_ok.2 ⟨rfl, rfl⟩

theorem reads_number {l : Literal} {v : Value} (written : WritesNumber l cs)
    (known : l.value? = some v) : Reads n cs (.value v) := by
  intro fuel rest enough ends
  obtain ⟨c, more, spelled, _⟩ := number_begins written
  obtain ⟨fuel, rfl⟩ : ∃ f, fuel = f + 1 := ⟨fuel - 1, by grind⟩
  rw [value_number written known ends, number_sorted known]

theorem reads_string {s : String} (written : WritesString s cs) :
    Reads n cs (.value (.string s)) := by
  have some : 0 < cs.length := by
    obtain ⟨body, _, rfl⟩ := written
    exact Nat.zero_lt_succ _
  exact reads_word some rfl fun _ _ => value_string written

theorem reads_noItems (blank : Blank cs) :
    Reads (n + 1) ('[' :: (cs ++ [']'])) (.value (.array [])) := by
  intro fuel rest enough _
  obtain ⟨fuel, rfl⟩ : ∃ f, fuel = f + 2 := ⟨fuel - 2, by grind⟩
  rw [List.cons_append, List.append_assoc, value_array, List.singleton_append, items_close blank]
  rfl

theorem reads_array {vs : List Value} (written : Writes n (.items vs) cs)
    (inner : Reads n cs (.items vs)) :
    Reads (n + 1) ('[' :: (cs ++ [']'])) (.value (.array vs)) := by
  intro fuel rest enough _
  obtain ⟨fuel, rfl⟩ : ∃ f, fuel = f + 2 := ⟨fuel - 2, by grind⟩
  obtain ⟨c, more, begins, other⟩ := items_begins written (']' :: rest)
  rw [List.cons_append, List.append_assoc, value_array, List.singleton_append,
    items_first begins other, inner fuel rest (by grind)]
  rfl

theorem reads_noMembers (blank : Blank cs) :
    Reads (n + 1) ('\x7b' :: (cs ++ ['\x7d'])) (.value (.object [])) := by
  intro fuel rest enough _
  obtain ⟨fuel, rfl⟩ : ∃ f, fuel = f + 2 := ⟨fuel - 2, by grind⟩
  rw [List.cons_append, List.append_assoc, value_object, List.singleton_append,
    members_close blank]
  rfl

theorem reads_object {ms : List (String × Value)} (inner : Reads n cs (.members ms)) :
    Reads (n + 1) ('\x7b' :: (cs ++ ['\x7d'])) (.value (.object ms)) := by
  intro fuel rest enough _
  obtain ⟨fuel, rfl⟩ : ∃ f, fuel = f + 2 := ⟨fuel - 2, by grind⟩
  obtain ⟨more, begins, read⟩ := inner fuel [] rest (by grind)
  rw [List.cons_append, List.append_assoc, value_object, List.singleton_append,
    members_first begins, read]
  rfl

theorem reads_padded {v : Value} {before after : List Char} (blank : Blank before)
    (inner : Reads n cs (.value v)) (blank' : Blank after) :
    Reads n (before ++ (cs ++ after)) (.padded v) := by
  intro fuel rest enough ends
  refine ⟨after, blank', ?_⟩
  rw [List.append_assoc, value_blanks blank, List.append_assoc,
    inner fuel (after ++ rest) (by grind) (blank_ends blank' ends)]

theorem reads_lastItem {v : Value} (inner : Reads n cs (.padded v)) :
    Reads n cs (.items [v]) := by
  intro fuel rest enough
  obtain ⟨fuel, rfl⟩ : ∃ f, fuel = f + 1 := ⟨fuel - 1, by grind⟩
  obtain ⟨bs, blank, read⟩ := inner (fuel + 1) (']' :: rest) (by grind) (mark_ends (by simp) rest)
  rw [itemsFrom, read]
  change (items (fuel + 1) n false (bs ++ ']' :: rest) >>= _) = _
  rw [items_close blank]
  rfl

theorem reads_item {v : Value} {vs : List Value} {ds : List Char}
    (inner : Reads n cs (.padded v)) (written : Writes n (.items vs) ds)
    (later : Reads n ds (.items vs)) : Reads n (cs ++ ',' :: ds) (.items (v :: vs)) := by
  intro fuel rest enough
  obtain ⟨fuel, rfl⟩ : ∃ f, fuel = f + 1 := ⟨fuel - 1, by grind⟩
  obtain ⟨bs, blank, read⟩ := inner (fuel + 1) (',' :: (ds ++ ']' :: rest)) (by grind)
    (mark_ends (by simp) _)
  obtain ⟨c, more, begins, other⟩ := items_begins written (']' :: rest)
  rw [List.append_assoc, List.cons_append, itemsFrom, read]
  change (items (fuel + 1) n false (bs ++ ',' :: (ds ++ ']' :: rest)) >>= _) = _
  rw [items_more blank begins other, later fuel rest (by grind)]
  rfl

theorem membersFrom_read {key : String} {v : Value} {ks : List Char} (named : WritesKey key ks)
    (inner : Reads n cs (.padded v)) (enough : 2 * cs.length ≤ fuel) (ends : EndsNumber rest)
    (soFar : List (String × Value)) : ∃ more bs, Blank bs ∧
      skipBlanks (ks ++ ':' :: (cs ++ rest)) = '"' :: more ∧ membersFrom fuel n soFar more
        = members fuel n false (insertMember key v.sorted soFar) (bs ++ rest) := by
  obtain ⟨more, begins, behind, read, separated⟩ := key_begins named (cs ++ rest)
  obtain ⟨bs, blank, read'⟩ := inner fuel rest enough ends
  refine ⟨more, bs, blank, begins, ?_⟩
  rw [membersFrom, read]
  change (colon behind >>= _) = _
  rw [separated]
  change (value fuel n (cs ++ rest) >>= _) = _
  rw [read']
  rfl

theorem reads_lastMember {key : String} {v : Value} {ks : List Char} (named : WritesKey key ks)
    (inner : Reads n cs (.padded v)) : Reads n (ks ++ ':' :: cs) (.members [(key, v)]) := by
  intro fuel soFar rest enough
  obtain ⟨fuel, rfl⟩ : ∃ f, fuel = f + 1 := ⟨fuel - 1, by grind⟩
  obtain ⟨more, bs, blank, begins, read⟩ := membersFrom_read named inner
    (show 2 * cs.length ≤ fuel + 1 by grind) (mark_ends (Or.inr (Or.inl rfl)) rest) soFar
  refine ⟨more, by rw [List.append_assoc, List.cons_append, begins], ?_⟩
  rw [read, members_close blank]
  rfl

theorem reads_member {key : String} {v : Value} {ms : List (String × Value)}
    {ks ds : List Char} (named : WritesKey key ks) (inner : Reads n cs (.padded v))
    (later : Reads n ds (.members ms)) :
    Reads n (ks ++ ':' :: (cs ++ ',' :: ds)) (.members ((key, v) :: ms)) := by
  intro fuel soFar rest enough
  obtain ⟨fuel, rfl⟩ : ∃ f, fuel = f + 1 := ⟨fuel - 1, by grind⟩
  obtain ⟨more, bs, blank, begins, read⟩ := membersFrom_read named inner
    (show 2 * cs.length ≤ fuel + 1 by grind)
    (mark_ends (Or.inr (Or.inr rfl)) (ds ++ '\x7d' :: rest)) soFar
  obtain ⟨more', begins', read'⟩ := later fuel (insertMember key v.sorted soFar) rest (by grind)
  refine ⟨more, by simpa only [List.append_assoc, List.cons_append] using begins, ?_⟩
  rw [read, members_more blank begins', read']
  rfl

/-- The reader reads whatever is written, and no more. -/
theorem writes_read {p : Phrase} (written : Writes n p cs) : Reads n cs p := by
  induction written with
  | null => exact reads_null
  | yes => exact reads_yes
  | no => exact reads_no
  | number written known => exact reads_number written known
  | string written => exact reads_string written
  | noItems blank => exact reads_noItems blank
  | array written ih => exact reads_array written ih
  | noMembers blank => exact reads_noMembers blank
  | object _ ih => exact reads_object ih
  | padded blank _ blank' ih => exact reads_padded blank ih blank'
  | lastItem _ ih => exact reads_lastItem ih
  | item _ written ih ih' => exact reads_item ih written ih'
  | lastMember named _ ih => exact reads_lastMember named ih
  | member named _ _ ih ih' => exact reads_member named ih ih'

theorem items_ok {first : Bool} {vs : List Value}
    (read : items (fuel + 1) n first cs = .ok (vs, rest)) :
    (vs = [] ∧ ∃ bs, Blank bs ∧ cs = bs ++ ']' :: rest) ∨
      (first = true ∧ itemsFrom fuel n cs = .ok (vs, rest)) ∨
      (first = false ∧ ∃ bs cs', Blank bs ∧ cs = bs ++ ',' :: cs' ∧
        itemsFrom fuel n cs' = .ok (vs, rest)) := by
  obtain ⟨bs, blank, split⟩ := skipBlanks_split cs
  have unfolded := read
  rw [items] at unfolded
  split at unfolded
  · cases unfolded
  · next c more begins =>
    rw [begins] at split
    split_ifs at unfolded with closed lead comma
    · cases unfolded
      exact Or.inl ⟨rfl, bs, blank, closed ▸ split⟩
    · subst lead
      rw [items_first begins closed] at read
      exact Or.inr (Or.inl ⟨rfl, read⟩)
    · subst comma
      refine Or.inr (Or.inr ⟨by simpa using lead, bs, more, blank, split, ?_⟩)
      split at unfolded
      · cases unfolded
      · cases unfolded
      · rw [itemsFrom, ← value_skipped]
        exact unfolded

theorem members_ok {first : Bool} {soFar ms : List (String × Value)}
    (read : members (fuel + 1) n first soFar cs = .ok (ms, rest)) :
    (ms = soFar ∧ ∃ bs, Blank bs ∧ cs = bs ++ '\x7d' :: rest) ∨
      (first = true ∧ ∃ more, skipBlanks cs = '"' :: more ∧
        membersFrom fuel n soFar more = .ok (ms, rest)) ∨
      (first = false ∧ ∃ bs cs' more, Blank bs ∧ cs = bs ++ ',' :: cs' ∧
        skipBlanks cs' = '"' :: more ∧ membersFrom fuel n soFar more = .ok (ms, rest)) := by
  obtain ⟨bs, blank, split⟩ := skipBlanks_split cs
  rw [members] at read
  split at read
  · cases read
  · next more begins =>
    cases read
    exact Or.inl ⟨rfl, bs, blank, begins ▸ split⟩
  · next c more _ begins =>
    rw [begins] at split
    cases first with
    | true =>
      simp only [Bool.true_or, if_true] at read
      split at read
      · cases read
      · next same =>
        cases same
        exact Or.inr (Or.inl ⟨rfl, _, begins, read⟩)
      · cases read
    | false =>
      simp only [Bool.false_or, decide_eq_true_eq, Bool.false_eq_true, if_false] at read
      split_ifs at read with comma
      subst comma
      split at read
      · cases read
      · next key => exact Or.inr (Or.inr ⟨rfl, bs, _, _, blank, split, key, read⟩)
      · cases read

/-- What is read with some fuel is written in the text, up to what was left. -/
structure ReadsWritten (fuel : Nat) : Prop where
  value : ∀ {n cs v rest}, value fuel n cs = .ok (v, rest) → ∃ w bs text, Blank bs ∧
    Writes n (.value w) text ∧ w.sorted = v ∧ cs = bs ++ (text ++ rest)
  items : ∀ {n cs vs rest}, itemsFrom fuel n cs = .ok (vs, rest) → ∃ ws text,
    Writes n (.items ws) text ∧ sortedItems ws = vs ∧ cs = text ++ ']' :: rest
  members : ∀ {n soFar cs ms rest}, membersFrom fuel n soFar cs = .ok (ms, rest) → ∃ ws text,
    Writes n (.members ws) ('"' :: text) ∧ sortedMembers soFar ws = ms ∧ cs = text ++ '\x7d' :: rest

theorem members_blanks {ms : List (String × Value)} (written : Writes n (.members ms) cs)
    (blank : Blank bs) : Writes n (.members ms) (bs ++ cs) := by
  have named {key : String} {ks : List Char} (written : WritesKey key ks) :
      WritesKey key (bs ++ ks) := by
    obtain ⟨before, body, after, blank', string, blank'', rfl⟩ := written
    exact ⟨bs ++ before, body, after, List.forall_mem_append.2 ⟨blank, blank'⟩, string, blank'',
      by rw [List.append_assoc]⟩
  cases written with
  | lastMember key inner =>
    rw [← List.append_assoc]
    exact .lastMember (named key) inner
  | member key inner later =>
    rw [← List.append_assoc]
    exact .member (named key) inner later

theorem array_written (earlier : ∀ f < fuel, ReadsWritten f) {vs : List Value}
    (read : items fuel n true cs = .ok (vs, rest)) : ∃ ws text,
      Writes (n + 1) (.value (.array ws)) ('[' :: text) ∧ sortedItems ws = vs ∧
        cs = text ++ rest := by
  cases fuel with
  | zero => cases read
  | succ fuel =>
    rcases items_ok read with ⟨rfl, bs, blank, rfl⟩ | ⟨_, read⟩ | ⟨wrong, _⟩
    · exact ⟨[], _, .noItems blank, rfl, by simp⟩
    · obtain ⟨ws, text, written, same, rfl⟩ := (earlier fuel fuel.lt_succ_self).items read
      exact ⟨ws, _, .array written, same, by simp⟩
    · cases wrong

theorem object_written (earlier : ∀ f < fuel, ReadsWritten f) {ms : List (String × Value)}
    (read : members fuel n true [] cs = .ok (ms, rest)) : ∃ ws text,
      Writes (n + 1) (.value (.object ws)) ('\x7b' :: text) ∧ sortedMembers [] ws = ms ∧
        cs = text ++ rest := by
  cases fuel with
  | zero => cases read
  | succ fuel =>
    rcases members_ok read with ⟨rfl, bs, blank, rfl⟩ | ⟨_, more, begins, read⟩ | ⟨wrong, _⟩
    · exact ⟨[], _, .noMembers blank, rfl, by simp⟩
    · obtain ⟨bs, blank, split⟩ := skipBlanks_split cs
      obtain ⟨ws, text, written, same, rfl⟩ := (earlier fuel fuel.lt_succ_self).members read
      rw [begins] at split
      exact ⟨ws, _, .object (members_blanks written blank), same, by simpa using split⟩
    · cases wrong

theorem number_written {negative : Bool} {v : Value} (read : number negative cs = .ok (v, rest)) :
    ∃ text, Writes n (.value v) text ∧ v.sorted = v ∧
      (if negative then ['-'] else []) ++ cs = text ++ rest := by
  obtain ⟨l, text, written, known, split⟩ := number_writes read
  exact ⟨text, .number written known, number_sorted known, split⟩

theorem value_written (earlier : ∀ f < fuel, ReadsWritten f) {v : Value}
    (read : value fuel n cs = .ok (v, rest)) : ∃ w bs text, Blank bs ∧
      Writes n (.value w) text ∧ w.sorted = v ∧ cs = bs ++ (text ++ rest) := by
  cases fuel with
  | zero => cases read
  | succ fuel =>
    have earlier : ∀ f < fuel, ReadsWritten f := fun f less => earlier f (Nat.lt_succ_of_lt less)
    obtain ⟨bs, blank, split⟩ := skipBlanks_split cs
    rw [split]
    suffices ∃ w text, Writes n (.value w) text ∧ w.sorted = v ∧ skipBlanks cs = text ++ rest by
      obtain ⟨w, text, written, same, behind⟩ := this
      exact ⟨w, bs, text, blank, written, same, by rw [behind]⟩
    rw [value] at read
    split at read
    · cases read
    · next begins =>
      obtain ⟨rfl, rfl⟩ := keyword_ok.1 read
      exact ⟨_, _, .null, rfl, begins⟩
    · next begins =>
      obtain ⟨rfl, rfl⟩ := keyword_ok.1 read
      exact ⟨_, _, .yes, rfl, begins⟩
    · next begins =>
      obtain ⟨rfl, rfl⟩ := keyword_ok.1 read
      exact ⟨_, _, .no, rfl, begins⟩
    · next more begins =>
      obtain ⟨⟨s, rest'⟩, inner, kept⟩ := bind_ok_iff.1 read
      cases kept
      obtain ⟨text, written, behind⟩ := string_ok.1 inner
      exact ⟨_, text, .string written, rfl, begins.trans behind⟩
    · next more begins =>
      obtain ⟨text, written, same, behind⟩ := number_written read
      exact ⟨v, text, written, same, begins.trans behind⟩
    · next more begins =>
      cases n with
      | zero => cases read
      | succ n =>
        obtain ⟨⟨vs, rest'⟩, inner, kept⟩ := bind_ok_iff.1 read
        cases kept
        obtain ⟨ws, text, written, rfl, rfl⟩ := array_written earlier inner
        exact ⟨_, _, written, rfl, begins⟩
    · next more begins =>
      cases n with
      | zero => cases read
      | succ n =>
        obtain ⟨⟨ms, rest'⟩, inner, kept⟩ := bind_ok_iff.1 read
        cases kept
        obtain ⟨ws, text, written, rfl, rfl⟩ := object_written earlier inner
        exact ⟨_, _, written, rfl, begins⟩
    · next c more _ _ _ _ _ _ _ begins =>
      split_ifs at read
      obtain ⟨text, written, same, behind⟩ := number_written read
      exact ⟨v, text, written, same, begins.trans behind⟩

theorem items_written (earlier : ∀ f < fuel, ReadsWritten f) {vs : List Value}
    (read : itemsFrom fuel n cs = .ok (vs, rest)) : ∃ ws text,
      Writes n (.items ws) text ∧ sortedItems ws = vs ∧ cs = text ++ ']' :: rest := by
  obtain ⟨⟨v, behind⟩, first, kept⟩ := bind_ok_iff.1 read
  obtain ⟨⟨vs, rest'⟩, later, kept⟩ := bind_ok_iff.1 kept
  cases kept
  obtain ⟨w, bs, text, blank, written, rfl, rfl⟩ := value_written earlier first
  cases fuel with
  | zero => cases later
  | succ fuel =>
    rcases items_ok later with ⟨rfl, bs', blank', rfl⟩ | ⟨wrong, _⟩ |
      ⟨_, bs', cs', blank', rfl, goes⟩
    · exact ⟨[w], _, .lastItem (.padded blank written blank'), rfl, by simp⟩
    · cases wrong
    · obtain ⟨ws, text', written', rfl, rfl⟩ := (earlier fuel fuel.lt_succ_self).items goes
      exact ⟨w :: ws, _, .item (.padded blank written blank') written', rfl, by simp⟩

theorem members_written (earlier : ∀ f < fuel, ReadsWritten f) {soFar ms : List (String × Value)}
    (read : membersFrom fuel n soFar cs = .ok (ms, rest)) : ∃ ws text,
      Writes n (.members ws) ('"' :: text) ∧ sortedMembers soFar ws = ms ∧
        cs = text ++ '\x7d' :: rest := by
  obtain ⟨⟨key, more⟩, named, kept⟩ := bind_ok_iff.1 read
  obtain ⟨⟨_, after⟩, separated, kept⟩ := bind_ok_iff.1 kept
  obtain ⟨⟨v, behind⟩, inner, later⟩ := bind_ok_iff.1 kept
  obtain ⟨_, ⟨body, chars, rfl⟩, same⟩ := string_ok.1 named
  obtain ⟨as, blank, rfl⟩ := colon_ok.1 separated
  obtain rfl : cs = body ++ '"' :: (as ++ ':' :: after) := by simpa using same
  have key : WritesKey key ('"' :: (body ++ '"' :: as)) :=
    ⟨[], _, as, by simp [Blank], ⟨body, chars, rfl⟩, blank, by simp⟩
  obtain ⟨w, bs, text, blank, written, rfl, rfl⟩ := value_written earlier inner
  cases fuel with
  | zero => cases later
  | succ fuel =>
    rcases members_ok later with ⟨rfl, bs', blank', rfl⟩ | ⟨wrong, _⟩ |
      ⟨_, bs', cs', more, blank', rfl, begins, goes⟩
    · exact ⟨_, _, .lastMember key (.padded blank written blank'), rfl, by simp⟩
    · cases wrong
    · obtain ⟨ws, text', written', rfl, rfl⟩ := (earlier fuel fuel.lt_succ_self).members goes
      obtain ⟨cs, blank'', split⟩ := skipBlanks_split cs'
      rw [begins] at split
      have written' := members_blanks written' blank''
      exact ⟨_, _, .member key (.padded blank written blank') written', rfl, by simp [split]⟩

theorem readsWritten (fuel : Nat) : ReadsWritten fuel := by
  induction fuel using Nat.strong_induction_on with
  | h fuel earlier =>
    exact ⟨value_written earlier, items_written earlier, members_written earlier⟩

/-- A whole text is read exactly if it writes a value within the limit of nesting. -/
theorem parse_iff {text : String} {v : Value} : parse text = .ok v ↔
    ∃ w, Writes maxDepth (.padded w) text.toList ∧ w.sorted = v := by
  rw [parse, bind_ok_iff]
  constructor
  · rintro ⟨⟨v', rest⟩, read, kept⟩
    dsimp only at kept
    split_ifs at kept with ended
    cases kept
    obtain ⟨w, bs, body, blank, written, same, split⟩ := (readsWritten _).value read
    obtain ⟨after, blank', split'⟩ := skipBlanks_split rest
    rw [List.isEmpty_iff.1 ended, List.append_nil] at split'
    rw [split]
    exact ⟨w, .padded blank written (split' ▸ blank'), same⟩
  · rintro ⟨w, written, rfl⟩
    obtain ⟨bs, blank, read⟩ := writes_read written (2 * text.toList.length + 2) []
      (Nat.le_add_right _ _) (by simp [EndsNumber])
    rw [List.append_nil, List.append_nil] at read
    exact ⟨_, read, if_pos (List.isEmpty_iff.2 (skipBlanks_blank blank))⟩

end

end BladeForm.Json
