import Mathlib.Logic.Function.Basic

/-!
What loops do to the variables around them. A `foreach` binds its item anew in every round, and
the item stays bound to the last element when the loop is over: there is no scope of its own.
-/
namespace BladeForm.Php

abbrev Bindings (δ : Type) := String → δ

variable {δ : Type}

def bindAll (env : Bindings δ) (bs : List (String × δ)) : Bindings δ :=
  bs.foldl (fun e b => Function.update e b.1 b.2) env

/-- A loop over what `each` finds in a value, in an engine that binds `own` variables besides. -/
structure Loops (δ : Type) where
  each : δ → List δ
  own : List (String × δ)

namespace Loops

def rounds (l : Loops δ) (env : Bindings δ) (header : String × String) : List (Bindings δ) :=
  (l.each (env header.1)).map fun v => bindAll (Function.update env header.2 v) l.own

def behind (l : Loops δ) (env : Bindings δ) (header : String × String) : Bindings δ :=
  ((l.rounds env header).getLast?).getD (bindAll env l.own)

/-- All bindings that a text with these loops meets: before, in and behind them. -/
def states (l : Loops δ) (env : Bindings δ) : List (String × String) → List (Bindings δ)
  | [] => [env]
  | header :: rest => env :: (l.rounds env header ++ l.states (l.behind env header) rest)

variable {l : Loops δ} {env state : Bindings δ} {x : String}

theorem bindAll_other {bs : List (String × δ)} (other : ∀ b ∈ bs, b.1 ≠ x) (env : Bindings δ) :
    bindAll env bs x = env x := by
  induction bs generalizing env with
  | nil => rfl
  | cons b bs ih =>
    obtain ⟨here, rest⟩ := List.forall_mem_cons.1 other
    rw [bindAll, List.foldl_cons, ← bindAll, ih rest, Function.update_of_ne (Ne.symm here)]

theorem rounds_other {header : String × String} (own : ∀ b ∈ l.own, b.1 ≠ x)
    (other : header.2 ≠ x) (round : state ∈ l.rounds env header) : state x = env x := by
  obtain ⟨v, _, rfl⟩ := List.mem_map.1 round
  rw [bindAll_other own, Function.update_of_ne (Ne.symm other)]

theorem behind_other {header : String × String} (own : ∀ b ∈ l.own, b.1 ≠ x)
    (other : header.2 ≠ x) : l.behind env header x = env x := by
  rw [behind]
  cases last : (l.rounds env header).getLast? with
  | none => exact bindAll_other own env
  | some state => exact rounds_other own other (List.mem_of_getLast? last)

theorem states_other {headers : List (String × String)} (own : ∀ b ∈ l.own, b.1 ≠ x)
    (others : ∀ header ∈ headers, header.2 ≠ x) (met : state ∈ l.states env headers) :
    state x = env x := by
  induction headers generalizing env with
  | nil => rw [List.mem_singleton.1 met]
  | cons header headers ih =>
    obtain ⟨other, others⟩ := List.forall_mem_cons.1 others
    rcases List.mem_cons.1 met with rfl | later
    · rfl
    · rcases List.mem_append.1 later with inside | after
      · exact rounds_other own other inside
      · rw [ih others after, behind_other own other]

theorem rounds_met (l : Loops δ) (env : Bindings δ) {headers : List (String × String)}
    {header : String × String} (member : header ∈ headers) :
    ∃ env', ∀ state ∈ l.rounds env' header, state ∈ l.states env headers := by
  induction headers generalizing env with
  | nil => cases member
  | cons first headers ih =>
    rcases List.mem_cons.1 member with rfl | later
    · exact ⟨env, fun state round => List.mem_cons_of_mem _ (List.mem_append_left _ round)⟩
    · obtain ⟨env', met⟩ := ih (l.behind env first) later
      exact ⟨env', fun state round =>
        List.mem_cons_of_mem _ (List.mem_append_right _ (met state round))⟩

end Loops

/-- Whatever the variables hold and whatever the engine binds besides them, they hold it still
    wherever a text with these loops reads them. -/
def KeepsBindings (names : List String) (headers : List (String × String)) : Prop :=
  ∀ (δ : Type) (l : Loops δ) (env : Bindings δ), (∀ b ∈ l.own, b.1 ∉ names) →
    ∀ state ∈ l.states env headers, ∀ x ∈ names, state x = env x

/-- Variables are safe from loops exactly if none of them is the item of one. -/
theorem keepsBindings_iff {names : List String} {headers : List (String × String)} :
    KeepsBindings names headers ↔ ∀ header ∈ headers, header.2 ∉ names := by
  constructor
  · intro keeps header member named
    -- every value is looped over once, with the next number
    let count : Loops Nat := ⟨fun n => [n + 1], []⟩
    obtain ⟨env', met⟩ := count.rounds_met (fun _ => 0) member
    have round := met (Function.update env' header.2 (env' header.1 + 1)) (List.mem_singleton.2 rfl)
    have kept := keeps Nat count (fun _ => 0) (by simp [count]) _ round header.2 named
    rw [Function.update_self] at kept
    cases kept
  · intro free δ l env own state met x named
    refine Loops.states_other (fun b member same => own b member (same ▸ named)) ?_ met
    exact fun header member same => free header member (same ▸ named)

end BladeForm.Php
