import BladeForm.Proofs.Basic
import BladeForm.Stub.Placeholders
import Mathlib.Data.Finset.Card
import Mathlib.Data.List.Basic

/-!
Placeholders as what remains of a history. Calls that register can take over placeholders that
other calls built apart; written out one behind the other, all of them make one history. A token
keeps the place of its first mention there and has the value of its last.
-/
namespace BladeForm.Placeholders

def keys (ps : Placeholders) : List String := ps.entries.map Prod.fst

section
variable (ps : Placeholders) (key value other : String)

theorem get?_set :
    (ps.set key value).get? other = if other = key then some value else ps.get? other := by
  rw [set, get?, get?]
  dsimp only
  induction ps.entries with
  | nil => exact lookup_cons_if key other value []
  | cons e es ih =>
    obtain ⟨k, old⟩ := e
    rw [setEntry]
    split
    · next found =>
      subst k
      rw [lookup_cons_if, lookup_cons_if]
      split <;> rfl
    · next differs =>
      rw [lookup_cons_if, lookup_cons_if, ih]
      split
      · next same =>
        subst other
        simp [differs]
      · rfl

theorem keys_set :
    (ps.set key value).keys = if key ∈ ps.keys then ps.keys else ps.keys ++ [key] := by
  rw [set, keys, keys]
  dsimp only
  induction ps.entries with
  | nil => rfl
  | cons e es ih =>
    obtain ⟨k, old⟩ := e
    rw [setEntry]
    split
    · next found => simp [found]
    · next differs =>
      simp only [List.map_cons, ih, List.mem_cons, Ne.symm differs, false_or]
      split <;> rfl

theorem mem_keys_set : other ∈ (ps.set key value).keys ↔ other ∈ ps.keys ∨ other = key := by
  rw [keys_set]
  split
  · next found =>
    refine ⟨Or.inl, ?_⟩
    rintro (before | rfl)
    · exact before
    · exact found
  · simp

theorem set_again (later : String) : (ps.set key value).set key later = ps.set key later := by
  rw [set, set, set]
  congr 1
  dsimp only
  induction ps.entries with
  | nil => simp [setEntry]
  | cons e es ih =>
    obtain ⟨k, old⟩ := e
    by_cases same : k = key
    · simp [setEntry, same]
    · simp [setEntry, same, ih]

end

section
variable {ps : Placeholders} {key : String}

theorem set_behind (placed : key ∈ ps.keys) {k : String} (differs : k ≠ key) (v value : String) :
    (ps.set k v).set key value = (ps.set key value).set k v := by
  obtain ⟨es⟩ := ps
  simp only [set, mk.injEq]
  simp only [keys] at placed
  induction es with
  | nil => cases placed
  | cons e es ih =>
    obtain ⟨j, old⟩ := e
    rw [List.map_cons, List.mem_cons] at placed
    by_cases here : j = key
    · subst j
      simp [setEntry, Ne.symm differs]
    · have later := ih (placed.resolve_left (Ne.symm here))
      by_cases there : j = k
      · subst j
        simp [setEntry, here]
      · simp [setEntry, here, there, later]

theorem setAll_behind {es : List (String × String)} (placed : key ∈ ps.keys)
    (free : key ∉ es.map Prod.fst) (value : String) :
    (ps.setAll es).set key value = (ps.set key value).setAll es := by
  induction es generalizing ps with
  | nil => rfl
  | cons e es ih =>
    rw [List.map_cons, List.mem_cons, not_or] at free
    have still := (mem_keys_set ps e.1 e.2 key).2 (Or.inl placed)
    change ((ps.set e.1 e.2).setAll es).set key value = ((ps.set key value).set e.1 e.2).setAll es
    rw [ih still free.2, set_behind placed (Ne.symm free.1)]

end

theorem setAll_setEntry (ps : Placeholders) {es : List (String × String)}
    (once : (es.map Prod.fst).Nodup) (key value : String) :
    ps.setAll (setEntry key value es) = (ps.setAll es).set key value := by
  induction es generalizing ps with
  | nil => rfl
  | cons e es ih =>
    obtain ⟨k, old⟩ := e
    rw [List.map_cons, List.nodup_cons] at once
    rw [setEntry]
    split
    · next same =>
      subst k
      change (ps.set key value).setAll es = ((ps.set key old).setAll es).set key value
      have placed := (mem_keys_set ps key old key).2 (Or.inr rfl)
      rw [setAll_behind placed once.1, set_again]
    · exact ih (ps.set k old) once.2

/-- What is left of a history: each token once, by its first mention, with its last value. -/
structure Outcome (history : List (String × String)) (ps : Placeholders) : Prop where
  once : ps.keys.Nodup
  mentioned : ∀ key, key ∈ ps.keys ↔ key ∈ history.map Prod.fst
  ordered : ps.keys.Pairwise fun j k =>
    (history.map Prod.fst).idxOf j < (history.map Prod.fst).idxOf k
  last : ∀ key, ps.get? key = history.reverse.lookup key

theorem outcome_empty : Outcome [] empty :=
  ⟨List.nodup_nil, fun _ => Iff.rfl, List.Pairwise.nil, fun _ => rfl⟩

section
variable {history : List (String × String)} {ps : Placeholders}

theorem outcome_set (outcome : Outcome history ps) (e : String × String) :
    Outcome (history ++ [e]) (ps.set e.1 e.2) := by
  obtain ⟨key, value⟩ := e
  have early : ∀ k ∈ ps.keys, (history.map Prod.fst ++ [key]).idxOf k
      = (history.map Prod.fst).idxOf k := fun k member =>
    List.idxOf_append_of_mem ((outcome.mentioned k).1 member)
  have before : ps.keys.Pairwise fun j k => (history.map Prod.fst ++ [key]).idxOf j
      < (history.map Prod.fst ++ [key]).idxOf k := by
    refine outcome.ordered.imp_of_mem fun {j k} first second lower => ?_
    rwa [early j first, early k second]
  refine ⟨?_, ?_, ?_, ?_⟩
  · rw [keys_set]
    split
    · exact outcome.once
    · next new =>
      refine List.nodup_append.2 ⟨outcome.once, List.nodup_singleton _, ?_⟩
      rintro k member _ last rfl
      rw [List.mem_singleton.1 last] at member
      exact new member
  · intro k
    rw [mem_keys_set, outcome.mentioned]
    simp
  · rw [keys_set, List.map_append, List.map_singleton]
    split
    · exact before
    · next new =>
      refine List.pairwise_append.2 ⟨before, List.pairwise_singleton _ _, ?_⟩
      intro j member k last
      rw [List.mem_singleton.1 last, early j member, List.idxOf_append_of_notMem fun old =>
        new ((outcome.mentioned key).2 old)]
      exact Nat.lt_add_right _ (List.idxOf_lt_length_of_mem ((outcome.mentioned j).1 member))
  · intro k
    rw [get?_set, outcome.last, List.reverse_append, List.reverse_singleton,
      List.singleton_append, lookup_cons_if]

theorem outcome_setAll (outcome : Outcome history ps) (es : List (String × String)) :
    Outcome (history ++ es) (ps.setAll es) := by
  induction es generalizing history ps with
  | nil => rwa [List.append_nil]
  | cons e es ih =>
    rw [List.append_cons]
    exact ih (outcome_set outcome e)

theorem outcome_entry (outcome : Outcome history ps) {e : String × String}
    (member : e ∈ ps.entries) : history.reverse.lookup e.1 = some e.2 := by
  rw [← outcome.last]
  exact lookup_of_mem outcome.once member

theorem outcome_none_iff (outcome : Outcome history ps) (key : String) :
    ps.get? key = none ↔ key ∉ history.map Prod.fst := by
  rw [← outcome.mentioned]
  exact lookup_none_iff

theorem outcome_size (outcome : Outcome history ps) :
    ps.size = (history.map Prod.fst).toFinset.card := by
  have same : ps.keys.toFinset = (history.map Prod.fst).toFinset := by
    ext key
    rw [List.mem_toFinset, List.mem_toFinset, outcome.mentioned]
  rw [← same, List.toFinset_card_of_nodup outcome.once, keys, List.length_map, size]

end

theorem outcome_ofList (es : List (String × String)) : Outcome es (ofList es) := by
  simpa [ofList] using outcome_setAll outcome_empty es

theorem extend_ofList (ps : Placeholders) (es : List (String × String)) :
    ps.extend (ofList es) = ps.setAll es := by
  induction es using List.reverseRecOn with
  | nil => rfl
  | append_singleton es e ih =>
    have last : ∀ qs : Placeholders, qs.setAll (es ++ [e]) = (qs.setAll es).set e.1 e.2 :=
      fun qs => List.foldl_concat ..
    rw [ofList, last, last, ← ih]
    exact setAll_setEntry ps (outcome_ofList es).once e.1 e.2

/-- A call that registers: the token of a name, a literal token, or all that other calls built. -/
inductive Step where
  | named (name value : String)
  | set (key value : String)
  | extend (steps : List Step)

mutual

def Step.apply (ps : Placeholders) : Step → Placeholders
  | .named name value => ps.named name value
  | .set key value => ps.set key value
  | .extend steps => ps.extend (run empty steps)

def run (ps : Placeholders) : List Step → Placeholders
  | [] => ps
  | s :: steps => run (s.apply ps) steps

end

def build (steps : List Step) : Placeholders := run empty steps

mutual

def Step.history : Step → List (String × String)
  | .named name value => [(token name, value)]
  | .set key value => [(key, value)]
  | .extend steps => history steps

def history : List Step → List (String × String)
  | [] => []
  | s :: steps => s.history ++ history steps

end

mutual

theorem Step.apply_history (ps : Placeholders) (s : Step) : s.apply ps = ps.setAll s.history := by
  cases s with
  | named name value => rfl
  | set key value => rfl
  | extend steps =>
    rw [Step.apply, Step.history, run_history empty steps]
    exact extend_ofList ps (history steps)

theorem run_history (ps : Placeholders) (steps : List Step) :
    run ps steps = ps.setAll (history steps) := by
  cases steps with
  | nil => rfl
  | cons s steps =>
    rw [run, history, run_history, Step.apply_history]
    exact (List.foldl_append ..).symm

end

theorem history_append (first second : List Step) :
    history (first ++ second) = history first ++ history second := by
  induction first with
  | nil => rfl
  | cons s first ih => rw [List.cons_append, history, history, ih, List.append_assoc]

/-- Whatever calls in whatever nesting: what is built is the outcome of their history. -/
theorem build_outcome (steps : List Step) : Outcome (history steps) (build steps) := by
  rw [build, run_history]
  exact outcome_ofList (history steps)

theorem extend_build (first second : List Step) :
    (build first).extend (build second) = build (first ++ second) := by
  simp only [build, run_history, history_append]
  exact (extend_ofList _ _).trans (List.foldl_append ..).symm

/-- Tokens are listed once each, by their first registration and with their last value; that is
    also what looking one up finds, and their number is the number of tokens ever registered.
    To take over other placeholders is to set their pairs in their order, which is to make the
    calls that built them. -/
theorem registration_settles (steps : List Step) :
    Outcome (history steps) (build steps) ∧
      (∀ e ∈ (build steps).entries, (history steps).reverse.lookup e.1 = some e.2) ∧
      (∀ key, (build steps).get? key = none ↔ key ∉ (history steps).map Prod.fst) ∧
      (build steps).size = ((history steps).map Prod.fst).toFinset.card ∧
      ∀ others : List Step,
        (build steps).extend (build others)
          = (build others).entries.foldl (fun ps e => ps.set e.1 e.2) (build steps) ∧
        (build steps).extend (build others) = build (steps ++ others) := by
  have outcome := build_outcome steps
  exact ⟨outcome, fun e => outcome_entry outcome, outcome_none_iff outcome, outcome_size outcome,
    fun others => ⟨rfl, extend_build steps others⟩⟩

example : (build [.set "a" "1", .set "b" "2", .extend [.set "b" "3", .set "c" "4", .set "a" "5"],
    .named "c" "6"]).entries = [("a", "5"), ("b", "3"), ("c", "4"), ("[% c %]", "6")] := by decide

end BladeForm.Placeholders
