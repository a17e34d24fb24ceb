import BladeForm.Proofs.Basic
import BladeForm.Toml.Reader

/-!
No table of a document has a key twice. A key is added only where its table has none of its name
yet, and everything else that a document does to a table leaves the names of its keys alone.
-/
namespace BladeForm.Toml

inductive Value.Keyed : Value → Prop where
  | string (s : String) : Keyed (.string s)
  | scalar : Keyed .scalar
  | dateTime : Keyed .dateTime
  | array {vs : List Value} : (∀ v ∈ vs, Keyed v) → Keyed (.array vs)
  | table {origin : Origin} {es : Table} :
      (es.map Prod.fst).Nodup → (∀ e ∈ es, Keyed e.2) → Keyed (.table origin es)
  | tables {ts : List Table} :
      (∀ es ∈ ts, (es.map Prod.fst).Nodup) → (∀ es ∈ ts, ∀ e ∈ es, Keyed e.2) → Keyed (.tables ts)

structure Keyed (es : Table) : Prop where
  once : (es.map Prod.fst).Nodup
  below : ∀ e ∈ es, e.2.Keyed

theorem keyed_table_iff {origin : Origin} {es : Table} :
    (Value.table origin es).Keyed ↔ Keyed es := by
  constructor
  · intro keyed
    cases keyed with
    | table once below => exact ⟨once, below⟩
  · intro keyed
    exact .table keyed.once keyed.below

theorem keyed_tables_iff {ts : List Table} : (Value.tables ts).Keyed ↔ ∀ es ∈ ts, Keyed es := by
  constructor
  · intro keyed es member
    cases keyed with
    | tables once below => exact ⟨once es member, below es member⟩
  · intro keyed
    exact .tables (fun es member => (keyed es member).once) fun es member => (keyed es member).below

theorem keyed_nil : Keyed [] := ⟨List.nodup_nil, nofun⟩

theorem keyed_lookup {es : Table} {key : String} {v : Value} (keyed : Keyed es)
    (found : es.lookup key = some v) : v.Keyed := by
  obtain ⟨before, after, rfl, _⟩ := List.lookup_eq_some_iff.1 found
  exact keyed.below (key, v) (by simp)

theorem keyed_add {es : Table} {key : String} {v : Value} (keyed : Keyed es)
    (absent : es.lookup key = none) (new : v.Keyed) : Keyed (es ++ [(key, v)]) where
  once := by
    rw [List.map_append, List.nodup_append]
    refine ⟨keyed.once, by simp, ?_⟩
    rintro name there _ added rfl
    obtain rfl : name = key := by simpa using added
    exact lookup_none_iff.1 absent there
  below e member := by
    rcases List.mem_append.1 member with old | added
    · exact keyed.below e old
    · rw [List.mem_singleton.1 added]
      exact new

theorem replace_keys (key : String) (v : Value) (es : Table) :
    (replace key v es).map Prod.fst = es.map Prod.fst := by
  induction es with
  | nil => rfl
  | cons e es ih =>
    by_cases here : e.1 = key
    · simp [replace, here]
    · simp [replace, here, ih]

theorem mem_replace {key : String} {v : Value} {es : Table} {e : String × Value}
    (member : e ∈ replace key v es) : e = (key, v) ∨ e ∈ es := by
  induction es with
  | nil => cases member
  | cons d es ih =>
    rw [replace] at member
    split at member
    · next here =>
      rcases List.mem_cons.1 member with rfl | later
      · exact Or.inl (by rw [here])
      · exact Or.inr (List.mem_cons_of_mem _ later)
    · rcases List.mem_cons.1 member with rfl | later
      · exact Or.inr List.mem_cons_self
      · exact (ih later).imp_right (List.mem_cons_of_mem _)

theorem keyed_replace {es : Table} {key : String} {v : Value} (keyed : Keyed es) (new : v.Keyed) :
    Keyed (replace key v es) where
  once := (replace_keys key v es).symm ▸ keyed.once
  below e member := by
    rcases mem_replace member with rfl | old
    · exact new
    · exact keyed.below e old

def KeepsKeyed (change : Origin → Table → Option Table) : Prop :=
  ∀ here es es', change here es = some es' → Keyed es → Keyed es'

theorem keyed_descend {change : Origin → Table → Option Table} (keeps : KeepsKeyed change)
    (dotted : Bool) (path : List String) :
    KeepsKeyed fun here => descend dotted change here path := by
  induction path with
  | nil => exact keeps
  | cons k path ih =>
    intro here es es' changed keyed
    simp only [descend] at changed
    split at changed
    · next absent =>
      obtain ⟨sub, made, same⟩ := Option.bind_eq_some_iff.1 changed
      rw [← Option.some.inj same]
      exact keyed_add keyed absent (keyed_table_iff.2 (ih _ _ _ made keyed_nil))
    · next origin sub found =>
      split at changed
      · cases changed
      · obtain ⟨new, made, same⟩ := Option.bind_eq_some_iff.1 changed
        rw [← Option.some.inj same]
        have old : Keyed sub := keyed_table_iff.1 (keyed_lookup keyed found)
        exact keyed_replace keyed (keyed_table_iff.2 (ih _ _ _ made old))
    · next ts found =>
      have old : ∀ t ∈ ts, Keyed t := keyed_tables_iff.1 (keyed_lookup keyed found)
      split at changed
      · cases changed
      · next last end? =>
        obtain ⟨new, made, same⟩ := Option.bind_eq_some_iff.1 changed
        rw [← Option.some.inj same]
        refine keyed_replace keyed (keyed_tables_iff.2 ?_)
        intro t member
        rcases List.mem_append.1 member with before | added
        · exact old t (List.dropLast_subset ts before)
        · rw [List.mem_singleton.1 added]
          exact ih _ _ _ made (old last (List.mem_of_getLast? end?))
    · cases changed

theorem keyed_addEntry {v : Value} (new : v.Keyed) (plain : Bool) (key : String) :
    KeepsKeyed (addEntry plain key v) := by
  intro here es es' changed keyed
  rw [addEntry] at changed
  split at changed
  · cases changed
  · split at changed
    · cases changed
    · next absent =>
      rw [← Option.some.inj changed]
      exact keyed_add keyed (Option.not_isSome_iff_eq_none.1 absent) new

theorem keyed_addPair {path : List String} {key : String} {v : Value} {es es' : Table}
    (added : addPair path key v es = some es') (new : v.Keyed) (keyed : Keyed es) : Keyed es' :=
  keyed_descend (keyed_addEntry new path.isEmpty key) true path _ _ _ added keyed

theorem keyed_openTable (key : String) : KeepsKeyed (openTable key) := by
  intro here es es' changed keyed
  rw [openTable] at changed
  split at changed
  · next absent =>
    rw [← Option.some.inj changed]
    exact keyed_add keyed absent (keyed_table_iff.2 keyed_nil)
  · next sub found =>
    rw [← Option.some.inj changed]
    have old : Keyed sub := keyed_table_iff.1 (keyed_lookup keyed found)
    exact keyed_replace keyed (keyed_table_iff.2 old)
  · cases changed

theorem keyed_openItem (key : String) : KeepsKeyed (openItem key) := by
  intro here es es' changed keyed
  rw [openItem] at changed
  split at changed
  · next absent =>
    rw [← Option.some.inj changed]
    refine keyed_add keyed absent (keyed_tables_iff.2 ?_)
    simpa using keyed_nil
  · next ts found =>
    rw [← Option.some.inj changed]
    have old : ∀ t ∈ ts, Keyed t := keyed_tables_iff.1 (keyed_lookup keyed found)
    refine keyed_replace keyed (keyed_tables_iff.2 ?_)
    intro t member
    rcases List.mem_append.1 member with before | added
    · exact old t before
    · rw [List.mem_singleton.1 added]
      exact keyed_nil
  · cases changed

/-- With some fuel, no reader of nested values gives back doubled keys. -/
structure ReadsKeyed (fuel : Nat) : Prop where
  value : ∀ {depth cs v rest}, value? fuel depth cs = some (v, rest) → v.Keyed
  items : ∀ {depth cs vs rest}, items? fuel depth cs = some (vs, rest) → ∀ v ∈ vs, v.Keyed
  pairs : ∀ {depth es cs es' rest}, pairs? fuel depth es cs = some (es', rest) →
    Keyed es → Keyed es'

theorem numeric?_keyed {cs rest : List Char} {v : Value} (read : numeric? cs = some (v, rest)) :
    v.Keyed := by
  rw [numeric?] at read
  split at read
  · cases read
    exact .dateTime
  · split at read
    all_goals cases read
    all_goals exact .scalar

section
variable {fuel depth : Nat} {cs rest : List Char} (ih : ReadsKeyed fuel)
include ih

theorem value?_keyed {v : Value} (read : value? (fuel + 1) depth cs = some (v, rest)) :
    v.Keyed := by
  unfold value? at read
  -- by the first character; only the two brackets go further down
  split at read
  · cases read
  · obtain ⟨r, -, same⟩ := Option.map_eq_some_iff.1 read
    cases same
    exact .string _
  · obtain ⟨r, -, same⟩ := Option.map_eq_some_iff.1 read
    cases same
    exact .string _
  · split at read
    · cases read
    · obtain ⟨r, inner, same⟩ := Option.map_eq_some_iff.1 read
      cases same
      exact .array (ih.items inner)
  · split at read
    · cases read
    · split at read
      · cases read
        exact keyed_table_iff.2 keyed_nil
      · obtain ⟨r, inner, same⟩ := Option.bind_eq_some_iff.1 read
        cases same
        exact keyed_table_iff.2 (ih.pairs inner keyed_nil)
  · obtain ⟨r, -, same⟩ := Option.map_eq_some_iff.1 read
    cases same
    exact .scalar
  · obtain ⟨r, -, same⟩ := Option.map_eq_some_iff.1 read
    cases same
    exact .scalar
  · exact numeric?_keyed read

theorem items?_keyed {vs : List Value} (read : items? (fuel + 1) depth cs = some (vs, rest)) :
    ∀ v ∈ vs, v.Keyed := by
  rw [items?] at read
  split at read
  · cases read
    exact nofun
  · obtain ⟨⟨v, after⟩, first, read⟩ := Option.bind_eq_some_iff.1 read
    dsimp only at read
    split at read
    · obtain ⟨⟨later, _⟩, others, same⟩ := Option.bind_eq_some_iff.1 read
      cases same
      exact List.forall_mem_cons.2 ⟨ih.value first, ih.items others⟩
    · cases read
      exact List.forall_mem_singleton.2 (ih.value first)
    · cases read

theorem pairs?_keyed {es es' : Table} (read : pairs? (fuel + 1) depth es cs = some (es', rest))
    (keyed : Keyed es) : Keyed es' := by
  rw [pairs?] at read
  obtain ⟨⟨ks, _⟩, -, read⟩ := Option.bind_eq_some_iff.1 read
  obtain ⟨⟨path, k⟩, -, read⟩ := Option.bind_eq_some_iff.1 read
  obtain ⟨_, -, read⟩ := Option.bind_eq_some_iff.1 read
  obtain ⟨⟨v, _⟩, first, read⟩ := Option.bind_eq_some_iff.1 read
  obtain ⟨more, added, read⟩ := Option.bind_eq_some_iff.1 read
  have grown : Keyed more := keyed_addPair added (ih.value first) keyed
  split at read
  · exact ih.pairs read grown
  · cases read
    exact grown
  · cases read

end

theorem readsKeyed (fuel : Nat) : ReadsKeyed fuel := by
  induction fuel with
  | zero => exact ⟨nofun, nofun, nofun⟩
  | succ fuel ih => exact ⟨value?_keyed ih, items?_keyed ih, pairs?_keyed ih⟩

theorem addPair?_keyed {d d' : Document} {ks : List String} {v : Value}
    (added : d.addPair? ks v = some d') (new : v.Keyed) (keyed : Keyed d.root) :
    Keyed d'.root := by
  obtain ⟨⟨path, k⟩, -, added⟩ := Option.bind_eq_some_iff.1 added
  obtain ⟨root, made, same⟩ := Option.bind_eq_some_iff.1 added
  cases same
  have keeps : KeepsKeyed fun _ es => addPair path k v es :=
    fun _ _ _ added keyed => keyed_addPair added new keyed
  exact keyed_descend keeps false d.current _ _ _ made keyed

theorem openWith?_keyed {d d' : Document} {act : String → Origin → Table → Option Table}
    {ks : List String} (opened : d.openWith? act ks = some d') (keeps : ∀ k, KeepsKeyed (act k))
    (keyed : Keyed d.root) : Keyed d'.root := by
  obtain ⟨⟨path, k⟩, -, opened⟩ := Option.bind_eq_some_iff.1 opened
  obtain ⟨root, made, same⟩ := Option.bind_eq_some_iff.1 opened
  cases same
  exact keyed_descend (keeps k) false path _ _ _ made keyed

theorem expression?_keyed {d d' : Document} {cs rest : List Char}
    (read : expression? d cs = some (d', rest)) (keyed : Keyed d.root) : Keyed d'.root := by
  simp only [expression?, Option.bind_eq_bind] at read
  split at read
  · obtain ⟨key, -, read⟩ := Option.bind_eq_some_iff.1 read
    obtain ⟨_, -, read⟩ := Option.bind_eq_some_iff.1 read
    obtain ⟨_, -, read⟩ := Option.bind_eq_some_iff.1 read
    obtain ⟨next, opened, read⟩ := Option.bind_eq_some_iff.1 read
    obtain ⟨_, -, same⟩ := Option.bind_eq_some_iff.1 read
    cases same
    exact openWith?_keyed opened keyed_openItem keyed
  · obtain ⟨key, -, read⟩ := Option.bind_eq_some_iff.1 read
    obtain ⟨_, -, read⟩ := Option.bind_eq_some_iff.1 read
    obtain ⟨next, opened, read⟩ := Option.bind_eq_some_iff.1 read
    obtain ⟨_, -, same⟩ := Option.bind_eq_some_iff.1 read
    cases same
    exact openWith?_keyed opened keyed_openTable keyed
  · obtain ⟨key, -, read⟩ := Option.bind_eq_some_iff.1 read
    obtain ⟨_, -, read⟩ := Option.bind_eq_some_iff.1 read
    obtain ⟨⟨v, _⟩, first, read⟩ := Option.bind_eq_some_iff.1 read
    obtain ⟨next, added, read⟩ := Option.bind_eq_some_iff.1 read
    obtain ⟨_, -, same⟩ := Option.bind_eq_some_iff.1 read
    cases same
    exact addPair?_keyed added ((readsKeyed _).value first) keyed

theorem expressions?_keyed {fuel : Nat} {d d' : Document} {cs : List Char}
    (read : expressions? fuel d cs = some d') (keyed : Keyed d.root) : Keyed d'.root := by
  induction fuel generalizing d cs with
  | zero => cases read
  | succ fuel ih =>
    rw [expressions?] at read
    split at read
    · rwa [← Option.some.inj read]
    · split at read
      · exact ih read keyed
      · obtain ⟨⟨next, _⟩, first, read⟩ := Option.bind_eq_some_iff.1 read
        exact ih read (expression?_keyed first keyed)

theorem parse?_keyed {text : String} {es : Table} (parsed : parse? text = some es) : Keyed es := by
  obtain ⟨d, read, rfl⟩ := Option.map_eq_some_iff.1 parsed
  exact expressions?_keyed read keyed_nil

end BladeForm.Toml
