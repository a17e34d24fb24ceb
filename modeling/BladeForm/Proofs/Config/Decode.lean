import BladeForm.Config.Decode
import BladeForm.Proofs.Toml.Keys

/-!
What the table of a document makes of the defaults. A member replaces the one setting that its key
names, and a member of any other key replaces none. The keys of a table are distinct, so the members
of a whole table replace exactly what it gives, in whatever order they stand.
-/
namespace BladeForm

namespace Toml

def entries : Value → Table
  | .table _ es => es
  | _ => []

def below (es : Table) (key : String) : Table := (es.lookup key).elim [] entries

section
variable {α : Type} (read : Value → Option α)

def valueOr (es : Table) (key : String) (default : α) : α :=
  ((es.lookup key).bind read).getD default

theorem valueOr_here (key : String) (v : Value) (default : α) :
    valueOr read [(key, v)] key default = (read v).getD default := by
  rw [valueOr, lookup_cons_if, if_pos rfl, Option.bind_some]

theorem valueOr_other {key k : String} (other : key ≠ k) (v : Value) (default : α) :
    valueOr read [(k, v)] key default = default := by
  rw [valueOr, lookup_cons_if, if_neg other]
  rfl

theorem valueOr_cons {k : String} {es : Table} (new : k ∉ es.map Prod.fst) (v : Value)
    (key : String) (default : α) :
    valueOr read es key (valueOr read [(k, v)] key default)
      = valueOr read ((k, v) :: es) key default := by
  by_cases here : key = k
  · subst here
    rw [valueOr_here, valueOr, valueOr, lookup_none_iff.2 new, lookup_cons_if, if_pos rfl]
    rfl
  · rw [valueOr_other read here, valueOr, valueOr, lookup_cons_if, if_neg here]

end

def asTable {α : Type} (f : Table → α) : Value → Option α
  | .table _ es => some (f es)
  | _ => none

theorem valueOr_below {α : Type} (f : Table → α) (es : Table) (key : String) :
    valueOr (asTable f) es key (f []) = f (below es key) := by
  rw [valueOr, below]
  cases es.lookup key with
  | none => rfl
  | some v => cases v <;> rfl

end Toml

open Toml

def Paths.overriddenBy (d : Paths) (es : Table) : Paths where
  resourceFiles := ⟨valueOr Config.asString es "resource_files" d.resourceFiles.text⟩
  views := ⟨valueOr Config.asString es "views" d.views.text⟩
  stubs := ⟨valueOr Config.asString es "stubs" d.stubs.text⟩
  languages := ⟨valueOr Config.asString es "languages" d.languages.text⟩

def Defaults.overriddenBy (d : Defaults) (es : Table) : Defaults where
  layoutName := valueOr Config.asString es "layout_name" d.layoutName
  templateName := valueOr Config.asString es "template_name" d.templateName
  locale := valueOr Config.asString es "locale" d.locale

def Style.overriddenBy (d : Style) (es : Table) : Style where
  groupClass := valueOr Config.asString es "group_class" d.groupClass
  labelClass := valueOr Config.asString es "label_class" d.labelClass
  inputWrapperClass := valueOr Config.asString es "input_wrapper_class" d.inputWrapperClass
  inputClass := valueOr Config.asString es "input_class" d.inputClass

namespace Config

def families (es : Table) : List (String × Style) :=
  es.map fun e => (e.1, ({} : Style).overriddenBy (entries e.2))

theorem families_lookup (es : Table) (name : String) :
    ((families es).lookup name).getD {} = ({} : Style).overriddenBy (below es name) := by
  rw [families, below]
  induction es with
  | nil => rfl
  | cons e es ih =>
    rw [List.map_cons, lookup_cons_if, lookup_cons_if]
    split
    · rfl
    · exact ih

def overriddenBy (d : Config) (es : Table) : Config where
  paths := valueOr (asTable ({} : Paths).overriddenBy) es "paths" d.paths
  defaults := valueOr (asTable ({} : Defaults).overriddenBy) es "defaults" d.defaults
  templates := valueOr (asTable families) es "templates" d.templates

theorem overridden_paths (es : Table) :
    (overriddenBy {} es).paths = ({} : Paths).overriddenBy (below es "paths") :=
  valueOr_below ({} : Paths).overriddenBy es "paths"

theorem overridden_defaults (es : Table) :
    (overriddenBy {} es).defaults = ({} : Defaults).overriddenBy (below es "defaults") :=
  valueOr_below ({} : Defaults).overriddenBy es "defaults"

theorem overridden_templates (es : Table) :
    (overriddenBy {} es).templates = families (below es "templates") :=
  valueOr_below families es "templates"

section
variable {σ : Type} {member : σ → String → Value → Option σ} {fits : String → Value → Prop}
  {merge : σ → Table → σ}

/-- Members that fit are always taken, each replaces what a table of its own would, and one after
    the other they replace what they would in one table. -/
structure Overrides (member : σ → String → Value → Option σ) (fits : String → Value → Prop)
    (merge : σ → Table → σ) : Prop where
  none : ∀ d, merge d [] = d
  one : ∀ d k v, fits k v → member d k v = some (merge d [(k, v)])
  more : ∀ d k v es, k ∉ es.map Prod.fst → merge (merge d [(k, v)]) es = merge d ((k, v) :: es)

theorem members_override (overrides : Overrides member fits merge) {es : Table}
    (once : (es.map Prod.fst).Nodup) (fit : ∀ e ∈ es, fits e.1 e.2) (d : σ) :
    es.foldlM (fun d e => member d e.1 e.2) d = some (merge d es) := by
  induction es generalizing d with
  | nil => exact congrArg some (overrides.none d).symm
  | cons e es ih =>
    obtain ⟨first, others⟩ := List.forall_mem_cons.1 fit
    rw [List.map_cons, List.nodup_cons] at once
    rw [List.foldlM_cons, overrides.one d e.1 e.2 first, Option.bind_eq_bind, Option.bind_some,
      ih once.2 others, overrides.more d e.1 e.2 es once.1]

def GivesText (keys : List String) (key : String) (v : Value) : Prop :=
  key ∈ keys → ∃ s, v = .string s

def IsGroup (keys : List String) (v : Value) : Prop :=
  ∃ origin es, v = .table origin es ∧ ∀ e ∈ es, GivesText keys e.1 e.2

instance (v : Value) : Decidable (∃ s, v = .string s) :=
  match v with
  | .string s => isTrue ⟨s, rfl⟩
  | .scalar | .dateTime | .array _ | .table _ _ | .tables _ => isFalse (by simp)

instance (keys : List String) (key : String) (v : Value) : Decidable (GivesText keys key v) :=
  inferInstanceAs (Decidable (_ → _))

instance (keys : List String) (v : Value) : Decidable (IsGroup keys v) :=
  match v with
  | .table _ es =>
    decidable_of_iff (∀ e ∈ es, GivesText keys e.1 e.2) (by simp [IsGroup])
  | .string _ | .scalar | .dateTime | .array _ | .tables _ => isFalse (by simp [IsGroup])

theorem asGroup_given {keys : List String} (overrides : Overrides member (GivesText keys) merge)
    {v : Value} (group : IsGroup keys v) (keyed : v.Keyed) (d : σ) :
    asGroup keys member d v = some (merge d (entries v)) := by
  obtain ⟨origin, es, rfl, texts⟩ := group
  exact members_override overrides (keyed_table_iff.1 keyed).once texts d

end

def pathKeys : List String := ["resource_files", "views", "stubs", "languages"]

def defaultKeys : List String := ["layout_name", "template_name", "locale"]

def styleKeys : List String := ["group_class", "label_class", "input_wrapper_class", "input_class"]

theorem paths_overrides : Overrides pathsMember (GivesText pathKeys) Paths.overriddenBy where
  none _ := rfl
  one d k v fits := by
    unfold pathsMember
    split
    case h_5 not1 not2 not3 not4 =>
      simp [Paths.overriddenBy, valueOr_other, Ne.symm not1, Ne.symm not2, Ne.symm not3,
        Ne.symm not4]
    all_goals
      obtain ⟨s, rfl⟩ := fits (by decide)
      simp [Paths.overriddenBy, valueOr_here, valueOr_other, asString]
  more d k v es new := by simp only [Paths.overriddenBy, valueOr_cons asString new]

theorem defaults_overrides :
    Overrides defaultsMember (GivesText defaultKeys) Defaults.overriddenBy where
  none _ := rfl
  one d k v fits := by
    unfold defaultsMember
    split
    case h_4 not1 not2 not3 =>
      simp [Defaults.overriddenBy, valueOr_other, Ne.symm not1, Ne.symm not2, Ne.symm not3]
    all_goals
      obtain ⟨s, rfl⟩ := fits (by decide)
      simp [Defaults.overriddenBy, valueOr_here, valueOr_other, asString]
  more d k v es new := by simp only [Defaults.overriddenBy, valueOr_cons asString new]

theorem style_overrides : Overrides styleMember (GivesText styleKeys) Style.overriddenBy where
  none _ := rfl
  one d k v fits := by
    unfold styleMember
    split
    case h_5 not1 not2 not3 not4 =>
      simp [Style.overriddenBy, valueOr_other, Ne.symm not1, Ne.symm not2, Ne.symm not3,
        Ne.symm not4]
    all_goals
      obtain ⟨s, rfl⟩ := fits (by decide)
      simp [Style.overriddenBy, valueOr_here, valueOr_other, asString]
  more d k v es new := by simp only [Style.overriddenBy, valueOr_cons asString new]

/-- A member of a document that keeps to the schema. Keys that the schema does not have may come
    with anything. -/
structure Fits (key : String) (v : Value) : Prop where
  paths : key = "paths" → IsGroup pathKeys v
  defaults : key = "defaults" → IsGroup defaultKeys v
  templates : key = "templates" →
    ∃ origin es, v = .table origin es ∧ ∀ e ∈ es, IsGroup styleKeys e.2

instance (v : Value) :
    Decidable (∃ origin es, v = .table origin es ∧ ∀ e ∈ es, IsGroup styleKeys e.2) :=
  match v with
  | .table _ es => decidable_of_iff (∀ e ∈ es, IsGroup styleKeys e.2) (by simp)
  | .string _ | .scalar | .dateTime | .array _ | .tables _ => isFalse (by simp)

instance (key : String) (v : Value) : Decidable (Fits key v) :=
  decidable_of_iff ((key = "paths" → IsGroup pathKeys v) ∧
    (key = "defaults" → IsGroup defaultKeys v) ∧ (key = "templates" →
      ∃ origin es, v = .table origin es ∧ ∀ e ∈ es, IsGroup styleKeys e.2))
    ⟨fun ⟨paths, defaults, templates⟩ => ⟨paths, defaults, templates⟩,
      fun fits => ⟨fits.paths, fits.defaults, fits.templates⟩⟩

section
variable {v : Value} (keyed : v.Keyed)
include keyed

theorem asPaths_given (group : IsGroup pathKeys v) :
    asPaths v = some (({} : Paths).overriddenBy (entries v)) :=
  asGroup_given paths_overrides group keyed {}

theorem asDefaults_given (group : IsGroup defaultKeys v) :
    asDefaults v = some (({} : Defaults).overriddenBy (entries v)) :=
  asGroup_given defaults_overrides group keyed {}

theorem asStyle_given (group : IsGroup styleKeys v) :
    asStyle v = some (({} : Style).overriddenBy (entries v)) :=
  asGroup_given style_overrides group keyed {}

end

theorem asTemplates_given {origin : Origin} {es : Table} (keyed : ∀ e ∈ es, e.2.Keyed)
    (styles : ∀ e ∈ es, IsGroup styleKeys e.2) :
    asTemplates (.table origin es) = some (families es) := by
  rw [asTemplates]
  induction es with
  | nil => rfl
  | cons e es ih =>
    obtain ⟨first, others⟩ := List.forall_mem_cons.1 keyed
    obtain ⟨style, later⟩ := List.forall_mem_cons.1 styles
    rw [List.mapM_cons, asStyle_given first style, ih others later]
    rfl

theorem config_overrides :
    Overrides configMember (fun k v => Fits k v ∧ v.Keyed) overriddenBy where
  none _ := rfl
  one d k v fits := by
    obtain ⟨fits, keyed⟩ := fits
    unfold configMember
    split
    · have group := fits.paths rfl
      rw [asPaths_given keyed group]
      obtain ⟨origin, es, rfl, _⟩ := group
      simp [overriddenBy, valueOr_here, valueOr_other, asTable, entries]
    · have group := fits.defaults rfl
      rw [asDefaults_given keyed group]
      obtain ⟨origin, es, rfl, _⟩ := group
      simp [overriddenBy, valueOr_here, valueOr_other, asTable, entries]
    · obtain ⟨origin, es, rfl, styles⟩ := fits.templates rfl
      rw [asTemplates_given (keyed_table_iff.1 keyed).below styles]
      simp [overriddenBy, valueOr_here, valueOr_other, asTable]
    · next not1 not2 not3 =>
      simp [overriddenBy, valueOr_other, Ne.symm not1, Ne.symm not2, Ne.symm not3]
  more d k v es new := by simp only [overriddenBy, valueOr_cons _ new]

/-- The members of a document that keeps to the schema override the defaults. -/
theorem ofTable_given {es : Table} (fits : ∀ e ∈ es, Fits e.1 e.2) (keyed : Keyed es) :
    ofTable es = some (overriddenBy {} es) :=
  members_override config_overrides keyed.once
    (fun e member => ⟨fits e member, keyed.below e member⟩) {}

end Config

end BladeForm
