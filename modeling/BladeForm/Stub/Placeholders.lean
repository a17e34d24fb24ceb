import BladeForm.Name.Rules
import BladeForm.Text.Blank
import BladeForm.Text.Search

/-!
Placeholders of a stub: tokens and the texts that replace them, each token once. A token
keeps the place of its first registration and the value of its last. Substitution searches
the template from left to right; values are copied and never searched themselves.
-/
namespace BladeForm

structure Placeholders where
  entries : List (String × String)
deriving DecidableEq, Repr

namespace Placeholders

def empty : Placeholders := ⟨[]⟩

/-- `model_name` is `[% model_name %]`. -/
def token (name : String) : String := s!"[% {name} %]"

def setEntry (key value : String) : List (String × String) → List (String × String)
  | [] => [(key, value)]
  | (k, v) :: rest => if k = key then (k, value) :: rest else (k, v) :: setEntry key value rest

def set (ps : Placeholders) (key value : String) : Placeholders :=
  ⟨setEntry key value ps.entries⟩

def named (ps : Placeholders) (name value : String) : Placeholders := ps.set (token name) value

def get? (ps : Placeholders) (key : String) : Option String := ps.entries.lookup key

def size (ps : Placeholders) : Nat := ps.entries.length

def setAll (ps : Placeholders) (entries : List (String × String)) : Placeholders :=
  entries.foldl (fun ps e => ps.set e.1 e.2) ps

def ofList (entries : List (String × String)) : Placeholders := empty.setAll entries

def extend (ps other : Placeholders) : Placeholders := ps.setAll other.entries

structure Match where
  before : List Char
  token : List Char
  value : List Char
  after : List Char
deriving DecidableEq, Repr

/-- The occurrence that starts earlier; of two that start together the longer one. -/
def Match.precedes (m n : Match) : Bool :=
  m.before.length < n.before.length
    || m.before.length = n.before.length && n.token.length < m.token.length

def matchOf? (text : List Char) (entry : String × String) : Option Match :=
  if entry.1 = "" then none
  else (Text.splitFirst? entry.1.toList text).map fun (before, after) =>
    ⟨before, entry.1.toList, entry.2.toList, after⟩

def best : List Match → Option Match
  | [] => none
  | m :: ms =>
    match best ms with
    | none => some m
    | some n => if n.precedes m then some n else some m

def earliest? (ps : Placeholders) (text : List Char) : Option Match :=
  best (ps.entries.filterMap (matchOf? text))

theorem best_mem {ms : List Match} {m : Match} (h : best ms = some m) : m ∈ ms := by
  induction ms with
  | nil => simp [best] at h
  | cons a ms ih =>
    simp only [best] at h
    split at h
    · simp_all
    · split at h <;> simp_all

theorem matchOf?_eq {text : List Char} {e : String × String} {m : Match}
    (h : matchOf? text e = some m) : m.token ≠ [] ∧ text = m.before ++ m.token ++ m.after := by
  simp only [matchOf?] at h
  split at h
  · simp at h
  · next ne =>
    obtain ⟨⟨before, after⟩, found, rfl⟩ := Option.map_eq_some_iff.1 h
    exact ⟨by simpa using ne, Text.splitFirst?_eq found⟩

theorem earliest?_shorter {ps : Placeholders} {text : List Char} {m : Match}
    (h : ps.earliest? text = some m) : m.after.length < text.length := by
  obtain ⟨e, _, he⟩ := List.mem_filterMap.1 (best_mem h)
  obtain ⟨ne, split⟩ := matchOf?_eq he
  have := List.length_pos_iff.2 ne
  rw [split]
  simp only [List.length_append]
  omega

def substituteChars (ps : Placeholders) (text : List Char) : List Char :=
  match _h : ps.earliest? text with
  | none => text
  | some m => m.before ++ m.value ++ ps.substituteChars m.after
termination_by text.length
decreasing_by exact earliest?_shorter _h

def substitute (ps : Placeholders) (template : String) : String :=
  String.ofList (ps.substituteChars template.toList)

/-- The name of the token that the text begins with, and the text after the token. Blanks
    inside the brackets do not matter. -/
def tokenAhead? (text : List Char) : Option (List Char × List Char) := do
  let body ← Text.after? ['[', '%'] text
  let (name, rest) := (body.dropWhile Text.isAsciiBlank).span Name.isWordChar
  if name.isEmpty then none
  else
    let rest ← Text.after? ['%', ']'] (rest.dropWhile Text.isAsciiBlank)
    some (name, rest)

/-- Names and spellings of all tokens; `skip` counts characters of the last one found. -/
def tokensFrom : (skip : Nat) → List Char → List (List Char × List Char)
  | _, [] => []
  | skip + 1, _ :: cs => tokensFrom skip cs
  | 0, c :: cs =>
    match tokenAhead? (c :: cs) with
    | some (name, rest) =>
      (name, (c :: cs).take (cs.length + 1 - rest.length))
        :: tokensFrom (cs.length - rest.length) cs
    | none => tokensFrom 0 cs

def keepFirst : (seen : List String) → List String → List String
  | _, [] => []
  | seen, n :: ns => if seen.contains n then keepFirst seen ns else n :: keepFirst (n :: seen) ns

def unknownTokens (ps : Placeholders) (template : String) : List String :=
  keepFirst [] (((tokensFrom 0 template.toList).filter fun t =>
    (ps.get? (String.ofList t.2)).isNone).map fun t => String.ofList t.1)

end Placeholders

end BladeForm
