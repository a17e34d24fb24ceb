import Mathlib.Data.List.Forall2

/-!
Facts that all proofs share. A lookup in a list of pairs meets the first pair of its key, and a
chain of steps that can fail succeeds as all of its steps do and fails as the first that fails.
-/
namespace BladeForm

theorem lookup_cons_if {α : Type} (name key : String) (a : α) (es : List (String × α)) :
    List.lookup key ((name, a) :: es) = if key = name then some a else es.lookup key := by
  by_cases same : key = name
  · simp [same]
  · have differ : (key == name) = false := by simpa using same
    simp [List.lookup_cons, differ, same]

theorem lookup_none_iff {α : Type} {key : String} {es : List (String × α)} :
    es.lookup key = none ↔ key ∉ es.map Prod.fst := by
  simp only [List.lookup_eq_none_iff, bne_iff_ne, List.mem_map, not_exists, not_and]
  exact forall₂_congr fun e _ => ⟨Ne.symm, Ne.symm⟩

theorem lookup_of_mem {α : Type} {es : List (String × α)} {e : String × α}
    (once : (es.map Prod.fst).Nodup) (member : e ∈ es) : es.lookup e.1 = some e.2 := by
  induction es with
  | nil => cases member
  | cons d es ih =>
    rw [List.map_cons, List.nodup_cons] at once
    rw [lookup_cons_if]
    rcases List.mem_cons.1 member with rfl | later
    · rw [if_pos rfl]
    · have differs : e.1 ≠ d.1 := by
        intro same
        exact once.1 (same ▸ List.mem_map_of_mem later)
      rw [if_neg differs, ih once.2 later]

section
variable {ε α β : Type} {x : Except ε α} {f : α → Except ε β}

theorem bind_ok_iff {b : β} : (x >>= f) = .ok b ↔ ∃ a, x = .ok a ∧ f a = .ok b := by
  cases x with
  | error e => exact ⟨fun same => (by cases same), fun ⟨_, same, _⟩ => (by cases same)⟩
  | ok a => exact ⟨fun same => ⟨a, rfl, same⟩, fun ⟨_, same, rest⟩ => (by cases same; exact rest)⟩

theorem bind_error_iff {e : ε} :
    (x >>= f) = .error e ↔ x = .error e ∨ ∃ a, x = .ok a ∧ f a = .error e := by
  cases x with
  | error d =>
    constructor
    · intro failed
      cases failed
      exact Or.inl rfl
    · rintro (same | ⟨_, same, _⟩)
      · cases same
        rfl
      · cases same
  | ok a =>
    constructor
    · intro failed
      exact Or.inr ⟨a, rfl, failed⟩
    · rintro (same | ⟨_, same, failed⟩)
      · cases same
      · cases same
        exact failed

theorem mapError_ok_iff {δ : Type} {g : ε → δ} {a : α} : x.mapError g = .ok a ↔ x = .ok a := by
  cases x with
  | error e => exact ⟨fun same => (by cases same), fun same => (by cases same)⟩
  | ok b => exact ⟨fun same => (by cases same; rfl), fun same => (by cases same; rfl)⟩

theorem mapM_ok_iff {as : List α} {bs : List β} :
    as.mapM f = .ok bs ↔ List.Forall₂ (fun a b => f a = .ok b) as bs := by
  induction as generalizing bs with
  | nil => simp [pure, Except.pure, eq_comm]
  | cons a as ih =>
    rw [List.mapM_cons, bind_ok_iff]
    simp only [bind_ok_iff, ih, List.forall₂_cons_left_iff]
    constructor
    · rintro ⟨b, first, bs, rest, same⟩
      exact ⟨b, bs, first, rest, (Except.ok.inj same).symm⟩
    · rintro ⟨b, bs, first, rest, rfl⟩
      exact ⟨b, first, bs, rest, rfl⟩

theorem ok_of_toBool (ok : x.toBool = true) : ∃ a, x = .ok a := by
  cases x with
  | error e => cases ok
  | ok a => exact ⟨a, rfl⟩

theorem ok_of_toOption {a : α} (ok : x.toOption = some a) : x = .ok a := by
  cases x with
  | error e => cases ok
  | ok b => rw [Option.some.inj ok]

end

end BladeForm
