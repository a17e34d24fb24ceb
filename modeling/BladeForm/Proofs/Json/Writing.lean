import BladeForm.Json.Reader
import BladeForm.Proofs.Basic
import Mathlib.Data.List.Forall2
import Mathlib.Data.String.Basic

/-!
How texts write JSON values. A written value lists the members of an object as they stand in the
text, a key that is repeated included; `sorted` is the value that such a text stands for. The
grammar counts how many levels of arrays and objects a text opens, and it knows no order of keys.
-/
namespace BladeForm.Json

def isBlank (c : Char) : Bool := c = ' ' || c = '\t' || c = '\n' || c = '\r'

def Blank (cs : List Char) : Prop := ∀ c ∈ cs, isBlank c = true

def WritesDigits (base : Nat) : List Nat → List Char → Prop :=
  List.Forall₂ fun d c => Text.digit? base c = some d

def WritesWhole (ds : List Nat) (cs : List Char) : Prop :=
  WritesDigits 10 ds cs ∧ ds ≠ [] ∧ ∀ d more, ds ≠ 0 :: d :: more

inductive WritesFraction : Option (List Nat) → List Char → Prop where
  | absent : WritesFraction none []
  | digits {ds : List Nat} {cs : List Char} : WritesDigits 10 ds cs → ds ≠ [] →
      WritesFraction (some ds) ('.' :: cs)

inductive WritesSign : (negative : Bool) → List Char → Prop where
  | none : WritesSign false []
  | plus : WritesSign false ['+']
  | minus : WritesSign true ['-']

inductive WritesExponent : Option Int → List Char → Prop where
  | absent : WritesExponent none []
  | digits {mark : Char} {negative : Bool} {sign cs : List Char} {ds : List Nat} :
      mark = 'e' ∨ mark = 'E' → WritesSign negative sign → WritesDigits 10 ds cs → ds ≠ [] →
      WritesExponent
        (some (if negative then -(Text.ofDigits 10 ds : Int) else Text.ofDigits 10 ds))
        (mark :: (sign ++ cs))

/-- A number is an integer exactly if it has neither a fraction nor an exponent. -/
inductive WritesNumber : Literal → List Char → Prop where
  | parts {negative : Bool} {ws : List Nat} {f : Option (List Nat)} {e : Option Int}
      {whole fraction exponent : List Char} : WritesWhole ws whole → WritesFraction f fraction →
      WritesExponent e exponent →
      WritesNumber ⟨negative, ws, f.getD [], e.getD 0, f.isNone && e.isNone⟩
        ((if negative then ['-'] else []) ++ (whole ++ (fraction ++ exponent)))

def Literal.value? (l : Literal) : Option Value :=
  match l.integer?, l.float? with
  | some n, _ => some (.integer n)
  | none, some x => some (.real x)
  | none, none => none

def WritesUnit (n : Nat) (cs : List Char) : Prop :=
  ∃ a b c d, WritesDigits 16 [a, b, c, d] cs ∧ n = Text.ofDigits 16 [a, b, c, d]

def isHighUnit (n : Nat) : Bool := 0xd800 ≤ n && n ≤ 0xdbff

def isLowUnit (n : Nat) : Bool := 0xdc00 ≤ n && n ≤ 0xdfff

def ofPair (high low : Nat) : Nat := 0x10000 + (high - 0xd800) * 0x400 + (low - 0xdc00)

inductive WritesEscape : Char → List Char → Prop where
  | unit {n : Nat} {cs : List Char} : WritesUnit n cs → isHighUnit n = false →
      isLowUnit n = false → WritesEscape (Char.ofNat n) cs
  | pair {high low : Nat} {cs ds : List Char} : WritesUnit high cs → isHighUnit high = true →
      WritesUnit low ds → isLowUnit low = true →
      WritesEscape (Char.ofNat (ofPair high low)) (cs ++ '\\' :: 'u' :: ds)

inductive WritesChar : Char → List Char → Prop where
  | plain {c : Char} : c ≠ '"' → c ≠ '\\' → 0x20 ≤ c.toNat → WritesChar c [c]
  | short {c k : Char} : shortEscape? k = some c → WritesChar c ['\\', k]
  | escape {c : Char} {cs : List Char} : WritesEscape c cs → WritesChar c ('\\' :: 'u' :: cs)

inductive WritesChars : List Char → List Char → Prop where
  | nil : WritesChars [] []
  | cons {c : Char} {s cs ds : List Char} : WritesChar c cs → WritesChars s ds →
      WritesChars (c :: s) (cs ++ ds)

def WritesString (s : String) (cs : List Char) : Prop :=
  ∃ body, WritesChars s.toList body ∧ cs = '"' :: (body ++ ['"'])

def WritesKey (key : String) (cs : List Char) : Prop :=
  ∃ before body after, Blank before ∧ WritesString key body ∧ Blank after ∧
    cs = before ++ (body ++ after)

/-- A value, alone or with the blanks around it, and what stands between brackets or braces. -/
inductive Phrase where
  | value (v : Value)
  | padded (v : Value)
  | items (vs : List Value)
  | members (ms : List (String × Value))

/-- A text writes a phrase and opens at most `depth` levels in it. -/
inductive Writes : (depth : Nat) → Phrase → List Char → Prop where
  | null {n : Nat} : Writes n (.value .null) "null".toList
  | yes {n : Nat} : Writes n (.value (.bool true)) "true".toList
  | no {n : Nat} : Writes n (.value (.bool false)) "false".toList
  | number {n : Nat} {l : Literal} {v : Value} {cs : List Char} : WritesNumber l cs →
      l.value? = some v → Writes n (.value v) cs
  | string {n : Nat} {s : String} {cs : List Char} : WritesString s cs →
      Writes n (.value (.string s)) cs
  | noItems {n : Nat} {cs : List Char} : Blank cs →
      Writes (n + 1) (.value (.array [])) ('[' :: (cs ++ [']']))
  | array {n : Nat} {vs : List Value} {cs : List Char} : Writes n (.items vs) cs →
      Writes (n + 1) (.value (.array vs)) ('[' :: (cs ++ [']']))
  | noMembers {n : Nat} {cs : List Char} : Blank cs →
      Writes (n + 1) (.value (.object [])) ('\x7b' :: (cs ++ ['\x7d']))
  | object {n : Nat} {ms : List (String × Value)} {cs : List Char} : Writes n (.members ms) cs →
      Writes (n + 1) (.value (.object ms)) ('\x7b' :: (cs ++ ['\x7d']))
  | padded {n : Nat} {v : Value} {before cs after : List Char} : Blank before →
      Writes n (.value v) cs → Blank after → Writes n (.padded v) (before ++ (cs ++ after))
  | lastItem {n : Nat} {v : Value} {cs : List Char} : Writes n (.padded v) cs →
      Writes n (.items [v]) cs
  | item {n : Nat} {v : Value} {vs : List Value} {cs ds : List Char} : Writes n (.padded v) cs →
      Writes n (.items vs) ds → Writes n (.items (v :: vs)) (cs ++ ',' :: ds)
  | lastMember {n : Nat} {key : String} {v : Value} {ks cs : List Char} : WritesKey key ks →
      Writes n (.padded v) cs → Writes n (.members [(key, v)]) (ks ++ ':' :: cs)
  | member {n : Nat} {key : String} {v : Value} {ms : List (String × Value)}
      {ks cs ds : List Char} : WritesKey key ks → Writes n (.padded v) cs →
      Writes n (.members ms) ds →
      Writes n (.members ((key, v) :: ms)) (ks ++ ':' :: (cs ++ ',' :: ds))

def isPlainChar (c : Char) : Bool := c ≠ '"' && c ≠ '\\' && 0x20 ≤ c.toNat

theorem chars_plain {cs : List Char} (plain : cs.all isPlainChar = true) : WritesChars cs cs := by
  induction cs with
  | nil => exact .nil
  | cons c cs ih =>
    rw [List.all_cons, Bool.and_eq_true] at plain
    simp only [isPlainChar, Bool.and_eq_true, decide_eq_true_eq] at plain
    exact .cons (.plain plain.1.1.1 plain.1.1.2 plain.1.2) (ih plain.2)

theorem string_plain {s : String} (plain : s.toList.all isPlainChar = true) :
    WritesString s ('"' :: (s.toList ++ ['"'])) :=
  ⟨s.toList, chars_plain plain, rfl⟩

theorem key_plain {s : String} (plain : s.toList.all isPlainChar = true) :
    WritesKey s ('"' :: (s.toList ++ ['"'])) :=
  ⟨[], _, [], by simp [Blank], string_plain plain, by simp [Blank], by simp⟩

theorem Writes.bare {n : Nat} {v : Value} {cs : List Char} (written : Writes n (.value v) cs) :
    Writes n (.padded v) cs := by
  have blank : Blank [] := by simp [Blank]
  have padded := Writes.padded blank written blank
  rwa [List.nil_append, List.append_nil] at padded

theorem text_plain {n : Nat} {s : String} (plain : s.toList.all isPlainChar = true) :
    Writes n (.padded (.string s)) ('"' :: (s.toList ++ ['"'])) :=
  (Writes.string (string_plain plain)).bare

mutual

/-- The value that a written one stands for: members ascend, and of one key the last counts. -/
def Value.sorted : Value → Value
  | .null => .null
  | .bool b => .bool b
  | .integer n => .integer n
  | .real x => .real x
  | .string s => .string s
  | .array vs => .array (sortedItems vs)
  | .object ms => .object (sortedMembers [] ms)

def sortedItems : List Value → List Value
  | [] => []
  | v :: vs => v.sorted :: sortedItems vs

def sortedMembers (soFar : List (String × Value)) : List (String × Value) → List (String × Value)
  | [] => soFar
  | (key, v) :: ms => sortedMembers (insertMember key v.sorted soFar) ms

end

theorem sortedItems_map (vs : List Value) : sortedItems vs = vs.map Value.sorted := by
  induction vs with
  | nil => rfl
  | cons v vs ih => rw [sortedItems, ih, List.map_cons]

def lastMember? (key : String) (ms : List (String × Value)) : Option Value :=
  ms.reverse.lookup key

def Ascending {α : Type} (ms : List (String × α)) : Prop := ms.Pairwise fun m n => m.1 < n.1

theorem lookup_insertMember (key other : String) (v : Value) (ms : List (String × Value)) :
    (insertMember key v ms).lookup other = if other = key then some v else ms.lookup other := by
  induction ms with
  | nil => exact lookup_cons_if key other v []
  | cons m ms ih =>
    obtain ⟨k, w⟩ := m
    rw [insertMember]
    by_cases same : key = k
    · subst k
      rw [if_pos rfl, lookup_cons_if, lookup_cons_if]
      split <;> rfl
    · rw [if_neg same]
      by_cases before : key < k
      · rw [if_pos before, lookup_cons_if]
      · rw [if_neg before, lookup_cons_if, lookup_cons_if, ih]
        by_cases here : other = k
        · subst other
          rw [if_pos rfl, if_neg (Ne.symm same), if_pos rfl]
        · rw [if_neg here, if_neg here]

theorem mem_insertMember {key : String} {v : Value} {m : String × Value}
    {ms : List (String × Value)} (member : m ∈ insertMember key v ms) :
    m = (key, v) ∨ m ∈ ms := by
  induction ms with
  | nil => exact Or.inl (List.mem_singleton.1 member)
  | cons n ms ih =>
    obtain ⟨k, w⟩ := n
    rw [insertMember] at member
    split_ifs at member
    · exact (List.mem_cons.1 member).imp_right (List.mem_cons_of_mem _)
    · exact List.mem_cons.1 member
    · rcases List.mem_cons.1 member with rfl | later
      · exact Or.inr List.mem_cons_self
      · exact (ih later).imp_right (List.mem_cons_of_mem _)

theorem ascending_insertMember {ms : List (String × Value)} (ascending : Ascending ms)
    (key : String) (v : Value) : Ascending (insertMember key v ms) := by
  induction ms with
  | nil => exact List.pairwise_singleton _ _
  | cons m ms ih =>
    obtain ⟨k, w⟩ := m
    obtain ⟨first, rest⟩ := List.pairwise_cons.1 ascending
    rw [insertMember]
    split_ifs with same before
    · exact List.pairwise_cons.2 ⟨fun n member => same ▸ first n member, rest⟩
    · refine List.pairwise_cons.2 ⟨fun n member => ?_, ascending⟩
      rcases List.mem_cons.1 member with rfl | later
      · exact before
      · exact lt_trans before (first n later)
    · refine List.pairwise_cons.2 ⟨fun n member => ?_, ih rest⟩
      rcases mem_insertMember member with rfl | later
      · exact lt_of_le_of_ne (not_lt.1 before) (Ne.symm same)
      · exact first n later

theorem perm_insertMember {key : String} {ms : List (String × Value)}
    (new : key ∉ ms.map (·.1)) (v : Value) : (insertMember key v ms).Perm ((key, v) :: ms) := by
  induction ms with
  | nil => exact List.Perm.refl _
  | cons m ms ih =>
    obtain ⟨k, w⟩ := m
    rw [List.map_cons, List.mem_cons, not_or] at new
    rw [insertMember, if_neg new.1]
    split_ifs with before
    · exact List.Perm.refl _
    · exact ((ih new.2).cons _).trans (List.Perm.swap _ _ _)

theorem ascending_sortedMembers {soFar : List (String × Value)} (ascending : Ascending soFar)
    (ms : List (String × Value)) : Ascending (sortedMembers soFar ms) := by
  induction ms generalizing soFar with
  | nil => rwa [sortedMembers]
  | cons m ms ih =>
    rw [sortedMembers]
    exact ih (ascending_insertMember ascending m.1 m.2.sorted)

theorem lastMember?_cons (key : String) (m : String × Value) (ms : List (String × Value)) :
    lastMember? key (m :: ms) = (lastMember? key ms).or (if key = m.1 then some m.2 else none) := by
  rw [lastMember?, lastMember?, List.reverse_cons, List.lookup_append, lookup_cons_if]
  rfl

theorem lookup_sortedMembers (key : String) (soFar ms : List (String × Value)) :
    (sortedMembers soFar ms).lookup key
      = ((lastMember? key ms).map Value.sorted).or (soFar.lookup key) := by
  induction ms generalizing soFar with
  | nil => rw [sortedMembers]; rfl
  | cons m ms ih =>
    rw [sortedMembers, ih, lookup_insertMember, lastMember?_cons]
    cases lastMember? key ms with
    | some v => rfl
    | none => split_ifs <;> rfl

theorem perm_sortedMembers {soFar ms : List (String × Value)}
    (distinct : (soFar.map (·.1) ++ ms.map (·.1)).Nodup) :
    (sortedMembers soFar ms).Perm (soFar ++ ms.map fun m => (m.1, m.2.sorted)) := by
  induction ms generalizing soFar with
  | nil => simp [sortedMembers]
  | cons m ms ih =>
    obtain ⟨key, v⟩ := m
    have new : key ∉ soFar.map (·.1) := by
      intro member
      exact (List.nodup_append.1 distinct).2.2 key member key List.mem_cons_self rfl
    have inserted := perm_insertMember new v.sorted
    have keys : ((insertMember key v.sorted soFar).map (·.1) ++ ms.map (·.1)).Perm
        (soFar.map (·.1) ++ ((key, v) :: ms).map (·.1)) :=
      ((inserted.map (·.1)).append_right _).trans List.perm_middle.symm
    rw [sortedMembers]
    exact (ih (keys.nodup_iff.2 distinct)).trans
      ((inserted.append_right _).trans List.perm_middle.symm)

end BladeForm.Json
