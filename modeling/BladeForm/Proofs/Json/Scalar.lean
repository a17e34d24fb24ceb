import BladeForm.Proofs.Json.Writing

/-!
Reading numbers and strings. The reader of a number or of a string takes exactly what the grammar
writes, up to where it cannot go on, and gives the digits and characters that are written.
-/
namespace BladeForm.Json

section
variable {bs cs rest : List Char}

theorem skipBlanks_append (blank : Blank bs) (cs : List Char) :
    skipBlanks (bs ++ cs) = skipBlanks cs :=
  List.dropWhile_append_of_pos blank

theorem skipBlanks_split (cs : List Char) : ∃ bs, Blank bs ∧ cs = bs ++ skipBlanks cs :=
  ⟨cs.takeWhile isBlank, List.all_eq_true.1 List.all_takeWhile, by
    rw [skipBlanks]
    exact List.takeWhile_append_dropWhile.symm⟩

theorem skipBlanks_blank (blank : Blank bs) : skipBlanks bs = [] := by
  rw [← List.append_nil bs, skipBlanks_append blank]
  rfl

theorem takeDigits_read {ds : List Nat} (digits : WritesDigits 10 ds cs)
    (stop : ∀ c ∈ rest.head?, Text.digit? 10 c = none) : takeDigits (cs ++ rest) = (ds, rest) := by
  induction digits with
  | nil =>
    cases rest with
    | nil => rfl
    | cons c rest => rw [List.nil_append, takeDigits, stop c rfl]
  | cons first _ ih =>
    rw [List.cons_append, takeDigits, first]
    dsimp only
    rw [ih]

theorem takeDigits_writes (cs : List Char) :
    ∃ text, WritesDigits 10 (takeDigits cs).1 text ∧ cs = text ++ (takeDigits cs).2 := by
  induction cs with
  | nil => exact ⟨[], .nil, rfl⟩
  | cons c cs ih =>
    obtain ⟨text, digits, split⟩ := ih
    rw [takeDigits]
    cases found : Text.digit? 10 c with
    | none => exact ⟨[], .nil, rfl⟩
    | some d => exact ⟨c :: text, .cons found digits, congrArg (c :: ·) split⟩

theorem someDigits_ok {ds : List Nat} :
    someDigits cs = .ok (ds, rest) ↔ takeDigits cs = (ds, rest) ∧ ds ≠ [] := by
  rw [someDigits]
  split
  · next none => simpa [none] using fun same _ => same
  · next none => simpa [none] using fun same _ => same
  · next ended other =>
    constructor
    · intro same
      have same := Except.ok.inj same
      refine ⟨same, ?_⟩
      rintro rfl
      cases rest with
      | nil => exact ended same
      | cons c rest => exact other c rest same
    · rintro ⟨same, _⟩
      rw [same]

theorem someDigits_writes {ds : List Nat} (taken : someDigits cs = .ok (ds, rest)) :
    ∃ text, WritesDigits 10 ds text ∧ ds ≠ [] ∧ cs = text ++ rest := by
  obtain ⟨same, some⟩ := someDigits_ok.1 taken
  obtain ⟨text, digits, split⟩ := takeDigits_writes cs
  rw [same] at digits split
  exact ⟨text, digits, some, split⟩

theorem someDigits_read {ds : List Nat} (digits : WritesDigits 10 ds cs) (some : ds ≠ [])
    (stop : ∀ c ∈ rest.head?, Text.digit? 10 c = none) :
    someDigits (cs ++ rest) = .ok (ds, rest) :=
  someDigits_ok.2 ⟨takeDigits_read digits stop, some⟩

theorem wholePart_ok {ds : List Nat} : wholePart cs = .ok (ds, rest) ↔
    someDigits cs = .ok (ds, rest) ∧ ∀ d more, ds ≠ 0 :: d :: more := by
  rw [wholePart, bind_ok_iff]
  constructor
  · rintro ⟨⟨ds', rest'⟩, taken, kept⟩
    split at kept
    · cases kept
    · next other =>
      cases kept
      exact ⟨taken, fun d more same => other d more rest (by rw [same])⟩
  · rintro ⟨taken, other⟩
    refine ⟨_, taken, ?_⟩
    split
    · next d more _ same => exact absurd (Prod.mk.inj same).1 (other d more)
    · rfl

theorem fractionPart_read {f : Option (List Nat)} (fraction : WritesFraction f cs)
    (stop : ∀ c ∈ rest.head?, Text.digit? 10 c = none ∧ c ≠ '.') :
    fractionPart (cs ++ rest) = .ok (f, rest) := by
  cases fraction with
  | absent =>
    rw [List.nil_append, fractionPart]
    intro more same
    exact (stop '.' (by rw [same]; rfl)).2 rfl
  | digits digits some =>
    rw [List.cons_append, fractionPart, someDigits_read digits some fun c first => (stop c first).1]
    rfl

theorem fractionPart_writes {f : Option (List Nat)} (taken : fractionPart cs = .ok (f, rest)) :
    ∃ text, WritesFraction f text ∧ cs = text ++ rest := by
  unfold fractionPart at taken
  split at taken
  · next more =>
    obtain ⟨⟨ds, rest'⟩, taken, kept⟩ := bind_ok_iff.1 taken
    cases kept
    obtain ⟨text, digits, some, rfl⟩ := someDigits_writes taken
    exact ⟨'.' :: text, .digits digits some, rfl⟩
  · cases taken
    exact ⟨[], .absent, rfl⟩

theorem exponentDigits_read {ds : List Nat} (negative : Bool) (digits : WritesDigits 10 ds cs)
    (some : ds ≠ []) (stop : ∀ c ∈ rest.head?, Text.digit? 10 c = none) :
    exponentDigits negative (cs ++ rest) = .ok (Option.some
      (if negative then -(Text.ofDigits 10 ds : Int) else Text.ofDigits 10 ds), rest) := by
  rw [exponentDigits, someDigits_read digits some stop]
  rfl

theorem exponentDigits_writes {negative : Bool} {e : Option Int}
    (taken : exponentDigits negative cs = .ok (e, rest)) : ∃ ds text, WritesDigits 10 ds text ∧
      ds ≠ [] ∧ cs = text ++ rest ∧
      e = some (if negative then -(Text.ofDigits 10 ds : Int) else Text.ofDigits 10 ds) := by
  obtain ⟨⟨ds, rest'⟩, taken, kept⟩ := bind_ok_iff.1 taken
  cases kept
  obtain ⟨text, digits, some, split⟩ := someDigits_writes taken
  exact ⟨ds, text, digits, some, split, rfl⟩

theorem exponentPart_read {e : Option Int} (exponent : WritesExponent e cs)
    (stop : ∀ c ∈ rest.head?, Text.digit? 10 c = none ∧ c ≠ 'e' ∧ c ≠ 'E') :
    exponentPart (cs ++ rest) = .ok (e, rest) := by
  cases exponent with
  | absent =>
    cases rest with
    | nil => rfl
    | cons c rest =>
      obtain ⟨_, small, large⟩ := stop c rfl
      unfold exponentPart
      simp [small, large]
  | @digits mark negative sign cs ds marked signed digits some =>
    have stop : ∀ c ∈ rest.head?, Text.digit? 10 c = none := fun c first => (stop c first).1
    have marked : (decide (mark = 'e') || decide (mark = 'E')) = true := by simpa using marked
    have read := fun negative => exponentDigits_read negative digits some stop
    unfold exponentPart
    dsimp only [List.cons_append]
    rw [if_pos marked]
    cases signed with
    | none =>
      -- digits begin with no sign
      have unsigned : ∀ c more, cs ++ rest = c :: more → Text.digit? 10 c ≠ Option.none := by
        rintro c more same
        cases digits with
        | nil => exact absurd rfl some
        | cons first _ =>
          rw [← (List.cons.inj same).1, first]
          exact Option.some_ne_none _
      split
      · next more same => exact absurd (by decide) (unsigned '+' more same)
      · next more same => exact absurd (by decide) (unsigned '-' more same)
      · exact read false
    | plus => exact read false
    | minus => exact read true

theorem exponentPart_writes {e : Option Int} (taken : exponentPart cs = .ok (e, rest)) :
    ∃ text, WritesExponent e text ∧ cs = text ++ rest := by
  unfold exponentPart at taken
  split at taken
  · next mark cs =>
    split_ifs at taken with marked
    · have marked : mark = 'e' ∨ mark = 'E' := by simpa using marked
      split at taken
      · next more =>
        obtain ⟨ds, text, digits, some, rfl, rfl⟩ := exponentDigits_writes taken
        exact ⟨_, .digits marked .plus digits some, rfl⟩
      · next more =>
        obtain ⟨ds, text, digits, some, rfl, rfl⟩ := exponentDigits_writes taken
        exact ⟨_, .digits marked .minus digits some, rfl⟩
      · obtain ⟨ds, text, digits, some, rfl, rfl⟩ := exponentDigits_writes taken
        exact ⟨_, .digits marked .none digits some, rfl⟩
    · cases taken
      exact ⟨[], .absent, rfl⟩
  · cases taken
    exact ⟨[], .absent, rfl⟩

theorem value?_ok {l : Literal} {v : Value} {more : List Char} :
    (match l.integer?, l.float? with
      | some n, _ => Except.ok (Value.integer n, more)
      | none, some x => .ok (.real x, more)
      | none, none => .error ReadError.malformed) = .ok (v, rest) ↔
      l.value? = some v ∧ more = rest := by
  rw [Literal.value?]
  cases l.integer? with
  | some n => simp
  | none =>
    cases l.float? with
    | some x => simp
    | none => simp

theorem number_ok {negative : Bool} {v : Value} : number negative cs = .ok (v, rest) ↔
    ∃ ws cs₁ f cs₂ e, wholePart cs = .ok (ws, cs₁) ∧ fractionPart cs₁ = .ok (f, cs₂) ∧
      exponentPart cs₂ = .ok (e, rest) ∧
      (Literal.mk negative ws (f.getD []) (e.getD 0) (f.isNone && e.isNone)).value? = some v := by
  simp only [number, bind_ok_iff, Prod.exists]
  constructor
  · rintro ⟨ws, cs₁, whole, f, cs₂, fraction, e, cs₃, exponent, kept⟩
    obtain ⟨value, rfl⟩ := value?_ok.1 kept
    exact ⟨ws, cs₁, f, cs₂, e, whole, fraction, exponent, value⟩
  · rintro ⟨ws, cs₁, f, cs₂, e, whole, fraction, exponent, value⟩
    exact ⟨ws, cs₁, whole, f, cs₂, fraction, e, rest, exponent, value?_ok.2 ⟨value, rfl⟩⟩

/-- A text that continues no number. -/
def EndsNumber (cs : List Char) : Prop :=
  ∀ c ∈ cs.head?, Text.digit? 10 c = none ∧ c ≠ '.' ∧ c ≠ 'e' ∧ c ≠ 'E'

theorem exponent_stops {e : Option Int} (exponent : WritesExponent e cs)
    (ends : EndsNumber rest) :
    ∀ c ∈ (cs ++ rest).head?, Text.digit? 10 c = none ∧ c ≠ '.' := by
  cases exponent with
  | absent => exact fun c first => ⟨(ends c first).1, (ends c first).2.1⟩
  | digits marked =>
    intro c first
    cases first
    rcases marked with rfl | rfl <;> decide

theorem fraction_stops {f : Option (List Nat)} (fraction : WritesFraction f cs)
    (stop : ∀ c ∈ rest.head?, Text.digit? 10 c = none) :
    ∀ c ∈ (cs ++ rest).head?, Text.digit? 10 c = none := by
  cases fraction with
  | absent => exact stop
  | digits =>
    intro c first
    cases first
    decide

theorem number_read {negative : Bool} {ws : List Nat} {f : Option (List Nat)} {e : Option Int}
    {whole fraction exponent : List Char} {v : Value} (written : WritesWhole ws whole)
    (point : WritesFraction f fraction) (power : WritesExponent e exponent)
    (value : (Literal.mk negative ws (f.getD []) (e.getD 0) (f.isNone && e.isNone)).value? = some v)
    (ends : EndsNumber rest) :
    number negative (whole ++ (fraction ++ (exponent ++ rest))) = .ok (v, rest) := by
  obtain ⟨digits, some, single⟩ := written
  have stops := exponent_stops power ends
  refine number_ok.2 ⟨ws, _, f, _, e, wholePart_ok.2 ⟨someDigits_read digits some ?_, single⟩,
    fractionPart_read point stops, exponentPart_read power ?_, value⟩
  · exact fraction_stops point fun c first => (stops c first).1
  · exact fun c first => ⟨(ends c first).1, (ends c first).2.2⟩

theorem number_writes {negative : Bool} {v : Value} (read : number negative cs = .ok (v, rest)) :
    ∃ l text, WritesNumber l text ∧ l.value? = some v ∧
      (if negative then ['-'] else []) ++ cs = text ++ rest := by
  obtain ⟨ws, cs₁, f, cs₂, e, whole, fraction, exponent, value⟩ := number_ok.1 read
  obtain ⟨taken, single⟩ := wholePart_ok.1 whole
  obtain ⟨whole, digits, some, rfl⟩ := someDigits_writes taken
  obtain ⟨fraction, point, rfl⟩ := fractionPart_writes fraction
  obtain ⟨exponent, power, rfl⟩ := exponentPart_writes exponent
  exact ⟨_, _, .parts ⟨digits, some, single⟩ point power, value, by simp only [List.append_assoc]⟩

theorem digit_isDigit {c : Char} {d : Nat} (digit : Text.digit? 10 c = some d) :
    c.isDigit = true := by
  obtain ⟨found, small⟩ := Option.filter_eq_some_iff.1 digit
  have small : d < 10 := of_decide_eq_true small
  rw [Text.letterDigit?] at found
  split_ifs at found with decimal
  · exact decimal
  · cases found
    exact absurd small (by omega)
  · cases found
    exact absurd small (by omega)

theorem whole_begins {ws : List Nat} (written : WritesWhole ws cs) :
    ∃ c more, cs = c :: more ∧ c.isDigit = true := by
  obtain ⟨digits, some, _⟩ := written
  cases digits with
  | nil => exact absurd rfl some
  | @cons d c ds more first _ => exact ⟨c, more, rfl, digit_isDigit first⟩

theorem mapM_digits {base : Nat} {ds : List Nat} :
    cs.mapM (Text.digit? base) = some ds ↔ WritesDigits base ds cs := by
  induction cs generalizing ds with
  | nil => cases ds <;> simp [WritesDigits]
  | cons c cs ih =>
    cases ds with
    | nil => simp [WritesDigits, List.mapM_cons, Option.bind_eq_some_iff]
    | cons d ds =>
      simp only [WritesDigits] at ih
      simp [List.mapM_cons, ih, WritesDigits, List.forall₂_cons, Option.bind_eq_some_iff]

theorem codeUnit_ok {n : Nat} :
    codeUnit cs = .ok (n, rest) ↔ ∃ text, WritesUnit n text ∧ cs = text ++ rest := by
  rw [codeUnit]
  constructor
  · intro taken
    split at taken
    · next a b c d found =>
      cases taken
      exact ⟨cs.take 4, ⟨a, b, c, d, mapM_digits.1 found, rfl⟩, (List.take_append_drop 4 cs).symm⟩
    · cases taken
  · rintro ⟨text, ⟨a, b, c, d, digits, rfl⟩, rfl⟩
    have four : text.length = 4 := digits.length_eq.symm
    rw [List.take_left' four, List.drop_left' four, mapM_digits.2 digits]

theorem lowUnit_ok {n : Nat} :
    lowUnit cs = .ok (n, rest) ↔
      ∃ text, WritesUnit n text ∧ cs = '\\' :: 'u' :: (text ++ rest) := by
  unfold lowUnit
  split
  · simp
  · simp
  · next more =>
    rw [codeUnit_ok]
    simp
  · next other => 
    constructor
    · simp
    · rintro ⟨text, _, rfl⟩
      exact absurd rfl (other _)

theorem unicodeEscape_eq (cs : List Char) : unicodeEscape cs = codeUnit cs >>= fun r =>
    if isLowUnit r.1 then .error .malformed
    else if isHighUnit r.1 then lowUnit r.2 >>= fun q =>
      if isLowUnit q.1 then .ok (Char.ofNat (ofPair r.1 q.1), q.2) else .error .malformed
    else .ok (Char.ofNat r.1, r.2) := rfl

theorem unicodeEscape_ok {c : Char} : unicodeEscape cs = .ok (c, rest) ↔
    ∃ text, WritesEscape c text ∧ cs = text ++ rest := by
  rw [unicodeEscape_eq, bind_ok_iff]
  constructor
  · rintro ⟨⟨high, more⟩, taken, kept⟩
    obtain ⟨text, unit, rfl⟩ := codeUnit_ok.1 taken
    split_ifs at kept with isLow isHigh
    · obtain ⟨⟨low, more'⟩, taken', kept'⟩ := bind_ok_iff.1 kept
      obtain ⟨text', unit', rfl⟩ := lowUnit_ok.1 taken'
      split_ifs at kept' with isLow'
      obtain ⟨rfl, rfl⟩ := Prod.mk.inj (Except.ok.inj kept')
      exact ⟨_, .pair unit isHigh unit' isLow', by simp⟩
    · cases kept
      exact ⟨text, .unit unit (by simpa using isHigh) (by simpa using isLow), rfl⟩
  · rintro ⟨text, written, rfl⟩
    cases written with
    | unit unit high low =>
      refine ⟨_, codeUnit_ok.2 ⟨text, unit, rfl⟩, ?_⟩
      rw [if_neg (by simp [low]), if_neg (by simp [high])]
    | @pair high low cs ds unit isHigh unit' isLow =>
      -- no code unit is both halves of a pair
      have other : isLowUnit high = false := by
        simp only [isHighUnit, isLowUnit, Bool.and_eq_true, decide_eq_true_eq,
          Bool.and_eq_false_iff, decide_eq_false_iff_not] at isHigh ⊢
        omega
      refine ⟨(high, '\\' :: 'u' :: (ds ++ rest)), codeUnit_ok.2 ⟨cs, unit, by simp⟩, ?_⟩
      rw [if_neg (by simp [other]), if_pos isHigh, bind_ok_iff]
      exact ⟨(low, rest), lowUnit_ok.2 ⟨ds, unit', rfl⟩, by simp only [isLow, if_true]⟩

theorem shortEscape_other {c k : Char} (short : shortEscape? k = some c) : k ≠ 'u' := by
  rintro rfl
  cases short

theorem stringTail_cons (fuel : Nat) (c : Char) (cs : List Char) : stringTail (fuel + 1) (c :: cs) =
    if c = '"' then .ok ([], cs)
    else if c.toNat < 0x20 then .error .malformed
    else if c = '\\' then
      match cs with
      | [] => .error .truncated
      | 'u' :: cs => unicodeEscape cs >>= fun e =>
        stringTail fuel e.2 >>= fun r => .ok (e.1 :: r.1, r.2)
      | k :: cs =>
        match shortEscape? k with
        | none => .error .malformed
        | some e => stringTail fuel cs >>= fun r => .ok (e :: r.1, r.2)
    else stringTail fuel cs >>= fun r => .ok (c :: r.1, r.2) :=
  (stringTail.eq_def (fuel + 1) (c :: cs)).trans rfl

theorem stringTail_char {c : Char} (written : WritesChar c cs) (fuel : Nat) (rest : List Char) :
    stringTail (fuel + 1) (cs ++ rest)
      = stringTail fuel rest >>= fun r => .ok (c :: r.1, r.2) := by
  cases written with
  | plain quote slash visible =>
    rw [List.singleton_append, stringTail_cons, if_neg quote, if_neg (Nat.not_lt.2 visible),
      if_neg slash]
  | @short k short =>
    rw [List.cons_append, List.singleton_append, stringTail_cons, if_neg (by decide),
      if_neg (by decide), if_pos rfl]
    split
    · contradiction
    · next same =>
      cases same
      exact absurd rfl (shortEscape_other short)
    · next same =>
      cases same
      rw [short]
  | @escape cs escape =>
    rw [List.cons_append, stringTail_cons, if_neg (by decide), if_neg (by decide), if_pos rfl]
    change (unicodeEscape (cs ++ rest) >>= _) = _
    rw [unicodeEscape_ok.2 ⟨cs, escape, rfl⟩]
    rfl

theorem stringTail_read {s body : List Char} (written : WritesChars s body) (rest : List Char)
    {fuel : Nat} (enough : s.length < fuel) :
    stringTail fuel (body ++ '"' :: rest) = .ok (s, rest) := by
  induction written generalizing fuel with
  | nil =>
    cases fuel with
    | zero => contradiction
    | succ fuel => rw [List.nil_append, stringTail_cons, if_pos rfl]
  | cons first _ ih =>
    cases fuel with
    | zero => contradiction
    | succ fuel =>
      rw [List.append_assoc, stringTail_char first, ih (Nat.lt_of_succ_lt_succ enough)]
      rfl

theorem stringTail_writes {fuel : Nat} {s : List Char}
    (read : stringTail fuel cs = .ok (s, rest)) :
    ∃ body, WritesChars s body ∧ cs = body ++ '"' :: rest := by
  induction fuel generalizing cs s with
  | zero => cases cs <;> cases read
  | succ fuel ih =>
    have goes {c : Char} {text more : List Char} (first : WritesChar c text)
        (read : (stringTail fuel more >>= fun r => .ok (c :: r.1, r.2)) = .ok (s, rest)) :
        ∃ body, WritesChars s body ∧ text ++ more = body ++ '"' :: rest := by
      obtain ⟨⟨s, rest⟩, later, kept⟩ := bind_ok_iff.1 read
      obtain ⟨rfl, rfl⟩ := Prod.mk.inj (Except.ok.inj kept)
      obtain ⟨body, written, rfl⟩ := ih later
      exact ⟨text ++ body, .cons first written, by rw [List.append_assoc]⟩
    cases cs with
    | nil => cases read
    | cons c cs =>
      rw [stringTail_cons] at read
      split_ifs at read with quote visible slash
      · cases read
        exact ⟨[], .nil, by rw [quote]; rfl⟩
      · subst slash
        split at read
        · cases read
        · obtain ⟨⟨e, more⟩, escaped, later⟩ := bind_ok_iff.1 read
          obtain ⟨text, escape, rfl⟩ := unicodeEscape_ok.1 escaped
          exact goes (.escape escape) later
        · next k more other =>
          split at read
          · cases read
          · next e short => exact goes (.short short) read
      · exact goes (.plain quote slash (Nat.not_lt.1 visible)) read

/-- A character takes at least one, so the reader of strings has fuel for all of them. -/
theorem char_length {c : Char} (written : WritesChar c cs) : 0 < cs.length := by
  cases written <;> simp

theorem chars_length {s : List Char} (written : WritesChars s cs) : s.length ≤ cs.length := by
  induction written with
  | nil => exact Nat.le_refl 0
  | cons first _ ih =>
    have one := char_length first
    rw [List.length_cons, List.length_append]
    omega

theorem string_ok {s : String} :
    string cs = .ok (s, rest) ↔ ∃ text, WritesString s text ∧ '"' :: cs = text ++ rest := by
  rw [string, bind_ok_iff]
  constructor
  · rintro ⟨⟨content, more⟩, read, kept⟩
    obtain ⟨rfl, rfl⟩ := Prod.mk.inj (Except.ok.inj kept)
    obtain ⟨body, written, rfl⟩ := stringTail_writes read
    exact ⟨_, ⟨body, by rwa [String.toList_ofList], rfl⟩, by simp⟩
  · rintro ⟨_, ⟨body, written, rfl⟩, same⟩
    obtain rfl : cs = body ++ '"' :: rest := by simpa using same
    have enough : s.toList.length < (body ++ '"' :: rest).length + 1 := by
      have := chars_length written
      rw [List.length_append]
      omega
    refine ⟨_, stringTail_read written rest enough, ?_⟩
    dsimp only
    rw [String.ofList_toList]

theorem keyword_ok {v w : Value} {name : List Char} :
    keyword v name cs = .ok (w, rest) ↔ w = v ∧ cs = name ++ rest := by
  induction name generalizing cs with
  | nil => simp [keyword, eq_comm]
  | cons n name ih =>
    cases cs with
    | nil => simp [keyword]
    | cons c cs =>
      rw [keyword]
      split
      · next same => simp [ih, same]
      · next other => simp [Ne.symm other]

theorem colon_ok : colon cs = .ok ((), rest) ↔ ∃ bs, Blank bs ∧ cs = bs ++ ':' :: rest := by
  rw [colon]
  constructor
  · intro read
    obtain ⟨bs, blank, split⟩ := skipBlanks_split cs
    split at read
    · cases read
    · next same =>
      cases read
      exact ⟨bs, blank, by rw [← same, ← split]⟩
    · cases read
  · rintro ⟨bs, blank, rfl⟩
    rw [skipBlanks_append blank]
    rfl

end

end BladeForm.Json
