import BladeForm.Proofs.Php.Quote
import Mathlib.Data.List.Basic

/-!
Reading a returned array of quoted pairs the way PHP does, a character at a time. Blanks and
comments may stand between all tokens, and a comma after the last pair. An array keeps the
last value of a key that is there twice.
-/
namespace BladeForm.Php

inductive Keyword where
  | openTag
  | returns
  | arrow
deriving DecidableEq, Repr

def Keyword.letters : Keyword → List Char
  | .openTag => ['<', '?', 'p', 'h', 'p']
  | .returns => ['r', 'e', 't', 'u', 'r', 'n']
  | .arrow => ['=', '>']

/-- What the reader has come to: where it is among the tokens. -/
inductive Spot where
  | tag
  | opened
  | returned
  | ready
  | keyed (key : String)
  | arrowed (key : String)
  | valued
  | closed
  | done
deriving DecidableEq, Repr

/-- Where the reader is within a token, a comment or quoted text. -/
inductive Mode where
  | code
  | word (k : Keyword) (read : Nat)
  | slash
  | hash
  | line (question : Bool)
  | block (star : Bool)
  | literal (text : List Char) (escape : Bool)
deriving DecidableEq, Repr

structure Reader where
  pairs : List (String × String)
  spot : Spot
  mode : Mode
deriving DecidableEq, Repr

def isSpace (c : Char) : Bool := c = ' ' || c = '\t' || c = '\n' || c = '\r'

namespace Reader

def token (r : Reader) (c : Char) : Option Reader :=
  match r.spot, c with
  | .opened, 'r' => some ⟨r.pairs, .returned, .word .returns 1⟩
  | .returned, '[' => some ⟨r.pairs, .ready, .code⟩
  | .ready, '\'' => some ⟨r.pairs, .ready, .literal [] false⟩
  | .keyed k, '=' => some ⟨r.pairs, .arrowed k, .word .arrow 1⟩
  | .arrowed k, '\'' => some ⟨r.pairs, .arrowed k, .literal [] false⟩
  | .valued, ',' => some ⟨r.pairs, .ready, .code⟩
  | .ready, ']' | .valued, ']' => some ⟨r.pairs, .closed, .code⟩
  | .closed, ';' => some ⟨r.pairs, .done, .code⟩
  | _, _ => none

def code (r : Reader) (c : Char) : Option Reader :=
  if isSpace c then some (if r.spot = .tag then ⟨r.pairs, .opened, .code⟩ else r)
  else if r.spot = .tag then none
  else if c = '/' then some ⟨r.pairs, r.spot, .slash⟩
  else if c = '#' then some ⟨r.pairs, r.spot, .hash⟩
  else r.token c

def word (r : Reader) (k : Keyword) (n : Nat) (c : Char) : Option Reader :=
  if k.letters[n]? = some c then
    some ⟨r.pairs, r.spot, if n + 1 = k.letters.length then .code else .word k (n + 1)⟩
  else none

def comment (r : Reader) (question : Bool) (c : Char) : Option Reader :=
  if c = '\n' || c = '\r' then some ⟨r.pairs, r.spot, .code⟩
  else if question && c = '>' then none
  else some ⟨r.pairs, r.spot, .line (c = '?')⟩

def close (r : Reader) (text : List Char) : Option Reader :=
  match r.spot with
  | .ready => some ⟨r.pairs, .keyed (String.ofList text), .code⟩
  | .arrowed k => some ⟨r.pairs ++ [(k, String.ofList text)], .valued, .code⟩
  | _ => none

def quoted (r : Reader) (text : List Char) (escape : Bool) (c : Char) : Option Reader :=
  if escape then
    some ⟨r.pairs, r.spot, .literal (text ++ if isPlain c then ['\\', c] else [c]) false⟩
  else if c = '\\' then some ⟨r.pairs, r.spot, .literal text true⟩
  else if c = '\'' then r.close text
  else some ⟨r.pairs, r.spot, .literal (text ++ [c]) false⟩

def step (r : Reader) (c : Char) : Option Reader :=
  match r.mode with
  | .code => r.code c
  | .word k n => r.word k n c
  | .slash =>
    if c = '/' then some ⟨r.pairs, r.spot, .line false⟩
    else if c = '*' then some ⟨r.pairs, r.spot, .block false⟩
    else none
  -- an attribute is no comment
  | .hash => if c = '[' then none else r.comment false c
  | .line question => r.comment question c
  | .block star =>
    some ⟨r.pairs, r.spot, if star && c = '/' then .code else .block (c = '*')⟩
  | .literal text escape => r.quoted text escape c

def run (r : Reader) (cs : List Char) : Option Reader := cs.foldlM step r

def start : Reader := ⟨[], .tag, .word .openTag 0⟩

def atEnd (r : Reader) : Bool :=
  r.spot = .done &&
    match r.mode with
    | .code | .hash | .line _ => true
    | _ => false

def finish? (r : Reader) (cs : List Char) : Option (List (String × String)) :=
  (r.run cs).bind fun last => if last.atEnd then some last.pairs else none

end Reader

/-- The pairs of a group file in file order, if the text is one. -/
def groupPairs? (content : List Char) : Option (List (String × String)) :=
  Reader.start.finish? content

def valueOf? (pairs : List (String × String)) (key : String) : Option String :=
  pairs.reverse.lookup key

theorem valueOf?_append (first second : List (String × String)) (key : String) :
    valueOf? (first ++ second) key = (valueOf? second key).or (valueOf? first key) := by
  rw [valueOf?, List.reverse_append, List.lookup_append]
  rfl

theorem valueOf?_none_iff {pairs : List (String × String)} {key : String} :
    valueOf? pairs key = none ↔ key ∉ pairs.map (·.1) := by
  rw [valueOf?, List.lookup_eq_none_iff]
  simp only [List.mem_reverse, List.mem_map, not_exists, not_and, bne_iff_ne, ne_eq]
  exact ⟨fun none p member same => none p member same.symm, fun none p member same =>
    none p member same.symm⟩

namespace Reader

variable {pairs : List (String × String)} {spot : Spot}

theorem run_nil (r : Reader) : r.run [] = some r := rfl

theorem run_cons (r : Reader) (c : Char) (cs : List Char) :
    r.run (c :: cs) = (r.step c).bind fun next => next.run cs := rfl

theorem run_append (r : Reader) (xs ys : List Char) :
    r.run (xs ++ ys) = (r.run xs).bind fun next => next.run ys := by
  rw [run, List.foldlM_append]
  rfl

theorem run_single (r : Reader) (c : Char) : r.run [c] = r.step c := by
  rw [run_cons]
  exact Option.bind_fun_some _

theorem finish?_append {r next : Reader} {xs : List Char} (read : r.run xs = some next)
    (ys : List Char) : r.finish? (xs ++ ys) = next.finish? ys := by
  rw [finish?, run_append, read]
  rfl

theorem finish?_some {r : Reader} {xs ys : List Char}
    (read : r.finish? (xs ++ ys) = some pairs) : ∃ next, r.run xs = some next := by
  rw [finish?, run_append] at read
  cases first : r.run xs with
  | none =>
    rw [first] at read
    cases read
  | some next => exact ⟨next, rfl⟩

def behind (earlier : List (String × String)) (r : Reader) : Reader :=
  { r with pairs := earlier ++ r.pairs }

theorem token_behind (earlier : List (String × String)) (r : Reader) (c : Char) :
    (r.behind earlier).token c = (r.token c).map (behind earlier) := by
  simp only [token, behind]
  split <;> rfl

theorem code_behind (earlier : List (String × String)) (r : Reader) (c : Char) :
    (r.behind earlier).code c = (r.code c).map (behind earlier) := by
  have same : (r.behind earlier).spot = r.spot := rfl
  simp only [code, token_behind, same]
  split_ifs <;> rfl

theorem close_behind (earlier : List (String × String)) (r : Reader) (text : List Char) :
    (r.behind earlier).close text = (r.close text).map (behind earlier) := by
  simp only [close, behind]
  split
  · rfl
  · simp [behind]
  · rfl

theorem step_behind (earlier : List (String × String)) (r : Reader) (c : Char) :
    (r.behind earlier).step c = (r.step c).map (behind earlier) := by
  obtain ⟨pairs, spot, mode⟩ := r
  cases mode with
  | code => exact code_behind earlier _ c
  | word k n =>
    simp only [step, word, behind]
    split_ifs <;> rfl
  | slash =>
    simp only [step, behind]
    split_ifs <;> rfl
  | hash =>
    simp only [step, comment, behind]
    split_ifs <;> rfl
  | line question =>
    simp only [step, comment, behind]
    split_ifs <;> rfl
  | block star => rfl
  | literal text escape =>
    have closes := close_behind earlier ⟨pairs, spot, .literal text escape⟩ text
    simp only [behind] at closes
    simp only [step, quoted, behind, closes]
    split_ifs <;> rfl

theorem run_behind (earlier : List (String × String)) (r : Reader) (cs : List Char) :
    (r.behind earlier).run cs = (r.run cs).map (behind earlier) := by
  induction cs generalizing r with
  | nil => rfl
  | cons c cs ih =>
    rw [run_cons, run_cons, step_behind]
    cases r.step c with
    | none => rfl
    | some next => exact ih next

theorem finish?_behind (earlier : List (String × String)) (r : Reader) (cs : List Char) :
    (r.behind earlier).finish? cs = (r.finish? cs).map (earlier ++ ·) := by
  rw [finish?, finish?, run_behind]
  cases r.run cs with
  | none => rfl
  | some last =>
    have same : (last.behind earlier).atEnd = last.atEnd := rfl
    simp only [Option.map_some, Option.bind_some, same]
    split_ifs <;> rfl

theorem run_literal (text cs rest : List Char) :
    run ⟨pairs, spot, .literal text false⟩ (escape cs ++ '\'' :: rest)
      = (close ⟨pairs, spot, .code⟩ (text ++ cs)).bind fun next => next.run rest := by
  induction cs generalizing text with
  | nil =>
    rw [List.append_nil]
    rfl
  | cons c cs ih =>
    have joined : text ++ c :: cs = (text ++ [c]) ++ cs := by simp
    cases plain : isPlain c with
    | true =>
      have quote := plain_not_quote plain
      have backslash : c ≠ '\\' := by
        rintro rfl
        contradiction
      rw [escape_cons plain, List.cons_append, run_cons, joined, ← ih]
      simp [step, quoted, quote, backslash]
    | false =>
      rw [escape_special plain, List.cons_append, List.cons_append, run_cons, joined, ← ih]
      simp [step, quoted, run_cons, plain]

theorem comment_stays {cs : List Char} (free : '/' ∉ cs) (star : Bool) :
    ∃ star', run ⟨pairs, spot, .block star⟩ cs = some ⟨pairs, spot, .block star'⟩ := by
  induction cs generalizing star with
  | nil => exact ⟨star, rfl⟩
  | cons c cs ih =>
    have other : c ≠ '/' := by
      rintro rfl
      exact free List.mem_cons_self
    rw [run_cons]
    simp only [step, other, decide_false, Bool.and_false, Bool.false_eq_true, ↓reduceIte,
      Option.bind_some]
    exact ih (fun member => free (List.mem_cons_of_mem c member)) _

theorem keyword_letters (k : Keyword) : ',' ∉ k.letters ∧ '\n' ∉ k.letters := by
  cases k <;> decide

/-- After a line feed the reader is between tokens, in a comment or in quoted text. -/
theorem step_feed {r next : Reader} (read : r.step '\n' = some next) :
    next.mode = .code ∨
      (∃ star, r.mode = .block star ∧ next = ⟨r.pairs, r.spot, .block false⟩) ∨
      ∃ text, next.mode = .literal text false := by
  obtain ⟨pairs, spot, mode⟩ := r
  cases mode with
  | code =>
    left
    simp only [step, code, show isSpace '\n' = true from rfl, ↓reduceIte, Option.some.injEq] at read
    subst next
    split <;> rfl
  | word k n =>
    simp only [step, word] at read
    split at read
    · next letter => exact absurd (List.mem_of_getElem? letter) (keyword_letters k).2
    · cases read
  | slash => cases read
  | hash =>
    cases read
    exact Or.inl rfl
  | line question =>
    cases read
    exact Or.inl rfl
  | block star =>
    right
    left
    refine ⟨star, rfl, ?_⟩
    simpa [step, eq_comm] using read
  | literal text escape =>
    right
    right
    cases escape with
    | true =>
      cases read
      exact ⟨_, rfl⟩
    | false =>
      cases read
      exact ⟨_, rfl⟩

theorem step_comma {r next : Reader} (read : r.step ',' = some next) {star : Bool}
    (within : next.mode = .block star) : ∃ star', r = ⟨next.pairs, next.spot, .block star'⟩ := by
  obtain ⟨pairs, spot, mode⟩ := r
  cases mode with
  | code =>
    cases spot <;> cases read
    cases within
  | word k n =>
    simp only [step, word] at read
    split at read
    · next letter => exact absurd (List.mem_of_getElem? letter) (keyword_letters k).1
    · cases read
  | slash => cases read
  | hash =>
    cases read
    cases within
  | line question =>
    simp [step, comment] at read
    subst next
    cases within
  | block inner =>
    simp only [step, Char.reduceEq, decide_false, Bool.and_false, Bool.false_eq_true, ↓reduceIte,
      Option.some.injEq] at read
    subst next
    exact ⟨inner, rfl⟩
  | literal text escape =>
    cases escape with
    | true =>
      cases read
      cases within
    | false =>
      cases read
      cases within

theorem comment_stays_at {cs : List Char} (free : '/' ∉ cs) {c : Char} (other : c ≠ '/')
    (star : Bool) : run ⟨pairs, spot, .block star⟩ (cs ++ [c])
      = some ⟨pairs, spot, .block (c = '*')⟩ := by
  obtain ⟨star', stays⟩ := @comment_stays pairs spot cs free star
  rw [run_append, stays, Option.bind_some, run_cons]
  simp [step, other, run_nil]

end Reader

end BladeForm.Php
