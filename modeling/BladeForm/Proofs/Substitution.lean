import BladeForm.Proofs.Search
import BladeForm.Stub.Placeholders
import Mathlib.Data.List.Basic

/-!
Substitution as a plain scan. The template is cut once, from left to right, before any value
is looked at: at each place the longest token that stands there, or one character. The pieces
are then written out, a token as its value.
-/
namespace BladeForm.Placeholders

def tokens (ps : Placeholders) : List (List Char) := ps.entries.map (·.1.toList)

def longest : List (List Char) → Option (List Char)
  | [] => none
  | t :: ts =>
    match longest ts with
    | none => some t
    | some u => if t.length < u.length then some u else some t

/-- The longest token that the text begins with. An empty token stands nowhere. -/
def tokenHere? (tokens : List (List Char)) (text : List Char) : Option (List Char) :=
  longest (tokens.filter fun t => !t.isEmpty && t.isPrefixOf text)

inductive Piece where
  | copied (c : Char)
  | token (spelling : List Char)
deriving DecidableEq, Repr

/-- `skip` counts characters of the last token that are still to be passed over. -/
def cut (tokens : List (List Char)) : (skip : Nat) → List Char → List Piece
  | _, [] => []
  | skip + 1, _ :: cs => cut tokens skip cs
  | 0, c :: cs =>
    match tokenHere? tokens (c :: cs) with
    | some t => .token t :: cut tokens (t.length - 1) cs
    | none => .copied c :: cut tokens 0 cs

def Piece.spelling : Piece → List Char
  | .copied c => [c]
  | .token t => t

def value (ps : Placeholders) (token : List Char) : List Char :=
  ((ps.get? (String.ofList token)).getD "").toList

def write (ps : Placeholders) : Piece → List Char
  | .copied c => [c]
  | .token t => ps.value t

def scan (ps : Placeholders) (text : List Char) : List Char :=
  (cut ps.tokens 0 text).flatMap ps.write

theorem longest_none_iff {ts : List (List Char)} : longest ts = none ↔ ts = [] := by
  cases ts with
  | nil => simp [longest]
  | cons a as =>
    simp only [longest]
    split
    · simp
    · split <;> simp

theorem longest_maximal {ts : List (List Char)} {t : List Char} (found : longest ts = some t) :
    t ∈ ts ∧ ∀ u ∈ ts, u.length ≤ t.length := by
  induction ts generalizing t with
  | nil => simp [longest] at found
  | cons a as ih =>
    simp only [longest] at found
    split at found
    · next none =>
      cases found
      simp [longest_none_iff.1 none]
    · next u some =>
      obtain ⟨member, bound⟩ := ih some
      split at found
      · next shorter =>
        cases found
        refine ⟨List.mem_cons_of_mem a member, ?_⟩
        intro v hv
        rcases List.mem_cons.1 hv with same | later
        · subst v; omega
        · exact bound v later
      · next long =>
        cases found
        refine ⟨List.mem_cons_self, ?_⟩
        intro v hv
        rcases List.mem_cons.1 hv with same | later
        · subst v; omega
        · have := bound v later
          omega

theorem mem_candidates {tokens : List (List Char)} {text t : List Char} :
    t ∈ tokens.filter (fun t => !t.isEmpty && t.isPrefixOf text)
      ↔ t ∈ tokens ∧ t ≠ [] ∧ t <+: text := by
  simp [List.mem_filter]

theorem tokenHere?_none_iff {tokens : List (List Char)} {text : List Char} :
    tokenHere? tokens text = none ↔ ∀ t ∈ tokens, t ≠ [] → ¬ t <+: text := by
  rw [tokenHere?, longest_none_iff, List.eq_nil_iff_forall_not_mem]
  simp only [mem_candidates]
  constructor
  · intro absent t member nonempty ahead
    exact absent t ⟨member, nonempty, ahead⟩
  · rintro absent t ⟨member, nonempty, ahead⟩
    exact absent t member nonempty ahead

theorem tokenHere?_iff {tokens : List (List Char)} {text t : List Char} :
    tokenHere? tokens text = some t ↔ t ∈ tokens ∧ t ≠ [] ∧ t <+: text ∧
      ∀ u ∈ tokens, u ≠ [] → u <+: text → u.length ≤ t.length := by
  constructor
  · intro found
    obtain ⟨member, bound⟩ := longest_maximal found
    obtain ⟨registered, nonempty, ahead⟩ := mem_candidates.1 member
    exact ⟨registered, nonempty, ahead, fun u hu ne pre => bound u (mem_candidates.2 ⟨hu, ne, pre⟩)⟩
  · rintro ⟨registered, nonempty, ahead, bound⟩
    cases found : tokenHere? tokens text with
    | none => exact absurd ahead (tokenHere?_none_iff.1 found t registered nonempty)
    | some u =>
      obtain ⟨member, longest⟩ := longest_maximal found
      obtain ⟨registeredU, nonemptyU, aheadU⟩ := mem_candidates.1 member
      have le := bound u registeredU nonemptyU aheadU
      have ge := longest t (mem_candidates.2 ⟨registered, nonempty, ahead⟩)
      have same : u = t := (List.prefix_of_prefix_length_le aheadU ahead le).eq_of_length (by omega)
      rw [same]

theorem tokenHere?_congr {tokens others : List (List Char)} (text : List Char)
    (same : ∀ t, t ≠ [] → (t ∈ tokens ↔ t ∈ others)) :
    tokenHere? tokens text = tokenHere? others text := by
  apply Option.ext
  intro t
  simp only [tokenHere?_iff]
  grind

theorem cut_congr {tokens others : List (List Char)} (skip : Nat) (text : List Char)
    (same : ∀ t, t ≠ [] → (t ∈ tokens ↔ t ∈ others)) :
    cut tokens skip text = cut others skip text := by
  induction text generalizing skip with
  | nil => simp [cut]
  | cons c cs ih =>
    cases skip with
    | zero => simp only [cut, tokenHere?_congr (c :: cs) same, ih]
    | succ n => simp only [cut, ih]

theorem cut_skip (tokens : List (List Char)) (passed rest : List Char) :
    cut tokens passed.length (passed ++ rest) = cut tokens 0 rest := by
  induction passed with
  | nil => rfl
  | cons c cs ih => simpa [cut] using ih

theorem cut_token {tokens : List (List Char)} {t rest : List Char}
    (here : tokenHere? tokens (t ++ rest) = some t) :
    cut tokens 0 (t ++ rest) = .token t :: cut tokens 0 rest := by
  have nonempty := (tokenHere?_iff.1 here).2.1
  cases t with
  | nil => contradiction
  | cons c cs =>
    rw [List.cons_append] at here ⊢
    simp only [cut, here, List.length_cons, Nat.add_sub_cancel, cut_skip]

theorem cut_copied {tokens : List (List Char)} {c : Char} {cs : List Char}
    (absent : tokenHere? tokens (c :: cs) = none) :
    cut tokens 0 (c :: cs) = .copied c :: cut tokens 0 cs := by
  simp only [cut, absent]

def Match.push (c : Char) (m : Match) : Match := { m with before := c :: m.before }

theorem precedes_iff {m n : Match} :
    m.precedes n = true ↔ m.before.length < n.before.length ∨
      m.before.length = n.before.length ∧ n.token.length < m.token.length := by
  simp [Match.precedes]

theorem push_precedes (c : Char) (m n : Match) :
    (m.push c).precedes (n.push c) = m.precedes n := by
  rw [Bool.eq_iff_iff, precedes_iff, precedes_iff]
  simp [Match.push]

theorem best_push (c : Char) (ms : List Match) :
    best (ms.map (Match.push c)) = (best ms).map (Match.push c) := by
  induction ms with
  | nil => rfl
  | cons m ms ih =>
    simp only [List.map_cons, best, ih]
    cases best ms with
    | none => rfl
    | some n =>
      simp only [Option.map_some, push_precedes]
      split <;> rfl

theorem matchOf?_cons {c : Char} {cs : List Char} {e : String × String}
    (absent : e.1.toList ≠ [] → ¬ e.1.toList <+: c :: cs) :
    matchOf? (c :: cs) e = (matchOf? cs e).map (Match.push c) := by
  by_cases empty : e.1 = ""
  · simp [matchOf?, empty]
  · have later : ¬ e.1.toList <+: c :: cs := absent (by simpa using empty)
    simp only [matchOf?, empty, ↓reduceIte, Text.splitFirst?_cons later, Option.map_map]
    rfl

theorem earliest?_cons {ps : Placeholders} {c : Char} {cs : List Char}
    (absent : tokenHere? ps.tokens (c :: cs) = none) :
    ps.earliest? (c :: cs) = (ps.earliest? cs).map (Match.push c) := by
  have nowhere := tokenHere?_none_iff.1 absent
  have shift : ps.entries.filterMap (matchOf? (c :: cs))
      = (ps.entries.filterMap (matchOf? cs)).map (Match.push c) := by
    rw [List.map_filterMap]
    refine List.filterMap_congr fun e member => ?_
    exact matchOf?_cons (nowhere e.1.toList (List.mem_map_of_mem member))
  rw [earliest?, shift, best_push, earliest?]

theorem substituteChars_cons {ps : Placeholders} {c : Char} {cs : List Char}
    (absent : tokenHere? ps.tokens (c :: cs) = none) :
    ps.substituteChars (c :: cs) = c :: ps.substituteChars cs := by
  rw [substituteChars, earliest?_cons absent]
  conv => rhs; rw [substituteChars]
  cases ps.earliest? cs with
  | none => rfl
  | some m => simp [Match.push]

theorem matchOf?_here {token rest : List Char} {e : String × String} (nonempty : token ≠ [])
    (same : e.1 = String.ofList token) :
    matchOf? (token ++ rest) e = some ⟨[], token, e.2.toList, rest⟩ := by
  have key : e.1.toList = token := by simp [same]
  have given : e.1 ≠ "" := by
    intro empty
    rw [empty] at key
    exact nonempty (by simpa using key.symm)
  simp [matchOf?, given, key, Text.splitFirst?_prefix]

theorem matchOf?_token {text : List Char} {e : String × String} {m : Match}
    (found : matchOf? text e = some m) : m.token = e.1.toList := by
  simp only [matchOf?] at found
  split at found
  · contradiction
  · obtain ⟨_, _, rfl⟩ := Option.map_eq_some_iff.1 found
    rfl

theorem longest_precedes {ps : Placeholders} {token rest : List Char} {e : String × String}
    {m : Match} (here : tokenHere? ps.tokens (token ++ rest) = some token) (member : e ∈ ps.entries)
    (other : e.1 ≠ String.ofList token) (found : matchOf? (token ++ rest) e = some m)
    (value : List Char) :
    (Match.mk [] token value rest).precedes m = true ∧
      m.precedes ⟨[], token, value, rest⟩ = false := by
  obtain ⟨_, _, ahead, bound⟩ := tokenHere?_iff.1 here
  have spelled := matchOf?_token found
  obtain ⟨nonempty, split⟩ := matchOf?_eq found
  rw [← Bool.not_eq_true, precedes_iff, precedes_iff]
  by_cases start : m.before = []
  · have standing : m.token <+: token ++ rest := ⟨m.after, by simp [split, start]⟩
    have registered : m.token ∈ ps.tokens := spelled ▸ List.mem_map_of_mem member
    have le := bound m.token registered nonempty standing
    have ne : m.token.length ≠ token.length := by
      intro eq
      have same := (List.prefix_of_prefix_length_le standing ahead le).eq_of_length eq
      exact other (by rw [← same, spelled, String.ofList_toList])
    simp only [start, List.length_nil, true_and]
    omega
  · have later : 0 < m.before.length := List.length_pos_iff.2 start
    simp only [List.length_nil]
    omega

/-- Among the occurrences of some of the entries, the one of the longest token at the very
    start is the best if it is there, and otherwise better than the best. Of several entries
    with that token the first one counts, as it does for a look-up. -/
theorem best_longest {ps : Placeholders} {token rest : List Char}
    (here : tokenHere? ps.tokens (token ++ rest) = some token) {es : List (String × String)}
    (among : es ⊆ ps.entries) :
    match es.lookup (String.ofList token) with
    | some v => best (es.filterMap (matchOf? (token ++ rest))) = some ⟨[], token, v.toList, rest⟩
    | none => ∀ m, best (es.filterMap (matchOf? (token ++ rest))) = some m →
      ∀ value, (Match.mk [] token value rest).precedes m = true ∧
        m.precedes ⟨[], token, value, rest⟩ = false := by
  induction es with
  | nil =>
    intro m found
    contradiction
  | cons e es ih =>
    have below := ih (fun x hx => among (List.mem_cons_of_mem e hx))
    have member : e ∈ ps.entries := among List.mem_cons_self
    have nonempty := (tokenHere?_iff.1 here).2.1
    obtain ⟨key, v⟩ := e
    by_cases same : key = String.ofList token
    · have look : ((key, v) :: es).lookup (String.ofList token) = some v := by
        simp [same]
      rw [look, List.filterMap_cons_some (matchOf?_here nonempty same)]
      simp only [best]
      split
      · rfl
      · next n found =>
        -- the best of the later entries does not precede an equal one before it
        have behind : n.precedes ⟨[], token, v.toList, rest⟩ = false := by
          split at below
          · rw [found] at below
            cases below
            simp [Match.precedes]
          · exact (below n found v.toList).2
        simp [behind]
    · have differ : (String.ofList token == key) = false := by simpa using Ne.symm same
      have look : ((key, v) :: es).lookup (String.ofList token)
          = es.lookup (String.ofList token) := by
        simp [List.lookup_cons, differ]
      rw [look]
      cases found : matchOf? (token ++ rest) (key, v) with
      | none => rwa [List.filterMap_cons_none found]
      | some m =>
        have worse := longest_precedes here member same found
        rw [List.filterMap_cons_some found]
        simp only [best]
        split at below
        · next w _ => simp [below, (worse w.toList).1]
        · intro n best value
          split at best
          · cases best
            exact worse value
          · next later =>
            split at best
            · cases best
              exact below n later value
            · cases best
              exact worse value

theorem mem_tokens_iff {ps : Placeholders} {token : List Char} :
    token ∈ ps.tokens ↔ (ps.get? (String.ofList token)).isSome := by
  rw [get?, List.lookup_isSome_iff, tokens, List.mem_map]
  constructor
  · rintro ⟨e, member, rfl⟩
    exact ⟨e, member, by simp⟩
  · rintro ⟨e, member, same⟩
    exact ⟨e, member, by simp [← eq_of_beq same]⟩

theorem earliest?_token {ps : Placeholders} {token rest : List Char}
    (here : tokenHere? ps.tokens (token ++ rest) = some token) :
    ps.earliest? (token ++ rest) = some ⟨[], token, ps.value token, rest⟩ := by
  have registered := (tokenHere?_iff.1 here).1
  have chosen := best_longest here (List.Subset.refl ps.entries)
  obtain ⟨v, found⟩ := Option.isSome_iff_exists.1 (mem_tokens_iff.1 registered)
  have look : ps.entries.lookup (String.ofList token) = some v := found
  rw [look] at chosen
  simpa [earliest?, value, found] using chosen

theorem substituteChars_token {ps : Placeholders} {token rest : List Char}
    (here : tokenHere? ps.tokens (token ++ rest) = some token) :
    ps.substituteChars (token ++ rest) = ps.value token ++ ps.substituteChars rest := by
  rw [substituteChars, earliest?_token here]
  rfl

theorem substituteChars_nil (ps : Placeholders) : ps.substituteChars [] = [] := by
  rw [substituteChars]
  split
  · rfl
  · next m found =>
    have := earliest?_shorter found
    simp at this

theorem scan_induction {motive : List Char → Prop} (tokens : List (List Char)) (nil : motive [])
    (copied : ∀ c cs, tokenHere? tokens (c :: cs) = none → motive cs → motive (c :: cs))
    (token : ∀ t rest, tokenHere? tokens (t ++ rest) = some t → motive rest → motive (t ++ rest))
    (text : List Char) : motive text := by
  -- on the length of what is left: a token passes over several characters at once
  induction h : text.length using Nat.strongRecOn generalizing text with
  | ind n ih =>
    cases text with
    | nil => exact nil
    | cons c cs =>
      cases here : tokenHere? tokens (c :: cs) with
      | none => exact copied c cs here (ih cs.length (by simp [← h]) cs rfl)
      | some t =>
        obtain ⟨_, nonempty, ⟨rest, same⟩, _⟩ := tokenHere?_iff.1 here
        have shorter : rest.length < n := by
          have := List.length_pos_iff.2 nonempty
          rw [← h, ← same, List.length_append]
          omega
        rw [← same] at here ⊢
        exact token t rest here (ih rest.length shorter rest rfl)

/-- The search for the earliest occurrence and the plain scan agree. -/
theorem substituteChars_eq_scan (ps : Placeholders) (text : List Char) :
    ps.substituteChars text = ps.scan text := by
  induction text using scan_induction ps.tokens with
  | nil => simp [substituteChars_nil, scan, cut]
  | copied c cs absent ih =>
    rw [substituteChars_cons absent, ih, scan, scan, cut_copied absent]
    rfl
  | token t rest here ih =>
    rw [substituteChars_token here, ih, scan, scan, cut_token here]
    rfl

theorem cut_spells (tokens : List (List Char)) (text : List Char) :
    (cut tokens 0 text).flatMap Piece.spelling = text := by
  induction text using scan_induction tokens with
  | nil => rfl
  | copied c cs absent ih =>
    rw [cut_copied absent, List.flatMap_cons, ih]
    rfl
  | token t rest here ih =>
    rw [cut_token here, List.flatMap_cons, ih]
    rfl

theorem cut_tokens_nonempty (tokens : List (List Char)) (text : List Char) :
    ∀ t, .token t ∈ cut tokens 0 text → t ≠ [] := by
  induction text using scan_induction tokens with
  | nil => simp [cut]
  | copied c cs absent ih =>
    intro t member
    rw [cut_copied absent] at member
    exact ih t (by simpa using member)
  | token u rest here ih =>
    intro t member
    rw [cut_token here] at member
    rcases List.mem_cons.1 member with first | later
    · cases first
      exact (tokenHere?_iff.1 here).2.1
    · exact ih t later

theorem cut_same_tokens {ps other : Placeholders} (text : List Char)
    (same : ∀ token, token ≠ "" → (other.get? token).isSome = (ps.get? token).isSome) :
    cut other.tokens 0 text = cut ps.tokens 0 text := by
  apply cut_congr
  intro t nonempty
  rw [mem_tokens_iff, mem_tokens_iff, same (String.ofList t) (by simpa using nonempty)]

/-- Substitution is the plain scan of the template. The template falls into pieces that no value
    has a part in, and each value is written where its token stood; so empty tokens and the
    order of registration make no difference. -/
theorem substitution_scans_template (ps : Placeholders) (template : String) :
    ps.substitute template = String.ofList (ps.scan template.toList) ∧
    (∃ pieces : List Piece, pieces.flatMap Piece.spelling = template.toList ∧
      ∀ other : Placeholders,
        (∀ token, token ≠ "" → (other.get? token).isSome = (ps.get? token).isSome) →
        other.substitute template = String.ofList (pieces.flatMap other.write)) ∧
    ∀ other : Placeholders, (∀ token, token ≠ "" → other.get? token = ps.get? token) →
      other.substitute template = ps.substitute template := by
  refine ⟨?_, ⟨cut ps.tokens 0 template.toList, cut_spells _ _, ?_⟩, ?_⟩
  · rw [substitute, substituteChars_eq_scan]
  · intro other same
    rw [substitute, substituteChars_eq_scan, scan, cut_same_tokens _ same]
  · intro other same
    have sameTokens : ∀ token, token ≠ "" → (other.get? token).isSome = (ps.get? token).isSome :=
      fun token nonempty => by rw [same token nonempty]
    have written : ∀ piece ∈ cut ps.tokens 0 template.toList, other.write piece = ps.write piece := by
      intro piece member
      cases piece with
      | copied c => rfl
      | token t =>
        have nonempty := cut_tokens_nonempty _ _ t member
        simp only [write, value, same (String.ofList t) (by simpa using nonempty)]
    rw [substitute, substitute, substituteChars_eq_scan, substituteChars_eq_scan, scan, scan,
      cut_same_tokens _ sameTokens, List.flatMap_congr written]

/-- The value and the text behind it spell the token again, which is no occurrence. -/
example : substitute ⟨[("", "x"), ("ab", "a")]⟩ "abb" = "ab" := by
  rw [substitute, substituteChars_eq_scan]
  decide

end BladeForm.Placeholders
