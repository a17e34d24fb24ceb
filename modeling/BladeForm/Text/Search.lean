/-!
Finding one text inside another. A match is a split of the text around it, so what was found
and what is left are the same datum.
-/
namespace BladeForm.Text

def after? : (needle text : List Char) → Option (List Char)
  | [], text => some text
  | _ :: _, [] => none
  | n :: ns, c :: cs => if n = c then after? ns cs else none

def splitFirst? (needle : List Char) : List Char → Option (List Char × List Char)
  | [] => (after? needle []).map ([], ·)
  | c :: cs =>
    match after? needle (c :: cs) with
    | some rest => some ([], rest)
    | none => (splitFirst? needle cs).map fun r => (c :: r.1, r.2)

def splitLast? (needle : List Char) : List Char → Option (List Char × List Char)
  | [] => (after? needle []).map ([], ·)
  | c :: cs =>
    match splitLast? needle cs with
    | some r => some (c :: r.1, r.2)
    | none => (after? needle (c :: cs)).map ([], ·)

theorem after?_eq {needle text rest : List Char} (h : after? needle text = some rest) :
    text = needle ++ rest := by
  induction needle generalizing text with
  | nil => simpa [after?] using h
  | cons n ns ih =>
    cases text with
    | nil => simp [after?] at h
    | cons c cs =>
      simp only [after?] at h
      split at h
      · next same => simp [same, ih h]
      · simp at h

theorem splitFirst?_eq {needle text before rest : List Char}
    (h : splitFirst? needle text = some (before, rest)) : text = before ++ needle ++ rest := by
  induction text generalizing before with
  | nil =>
    obtain ⟨_, found, same⟩ := Option.map_eq_some_iff.1 h
    cases same
    exact after?_eq found
  | cons c cs ih =>
    simp only [splitFirst?] at h
    split at h
    · next found =>
      cases h
      exact after?_eq found
    · obtain ⟨⟨b, r⟩, found, same⟩ := Option.map_eq_some_iff.1 h
      cases same
      simp [ih found]

def contains (needle text : List Char) : Bool := (splitFirst? needle text).isSome

end BladeForm.Text
