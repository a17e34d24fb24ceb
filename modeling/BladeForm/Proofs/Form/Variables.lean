import BladeForm.Form.Variables
import BladeForm.Proofs.Form.Markup

/-!
The variables of a form in its markup and in the controller's call. Every loop of the markup is
the selector of one relation, so the call passes exactly the record and the collections that the
markup runs over, and the markup reads nothing else but errors and the items of its loops.
-/
namespace BladeForm
open Blade Name

namespace Blade

def Event.header? : Event → Option (String × String)
  | .opens collection item => some (collection, item)
  | _ => none

def headers (es : List Event) : List (String × String) := es.filterMap Event.header?

def enter (scope : List String) : Event → List String
  | .opens _ item => item :: scope
  | .closes => scope.tail
  | .reads _ => scope

def scope (es : List Event) : List String := es.foldl enter []

/-- Every variable that is read is known, or it is the item of the innermost loop. -/
def Bounded (known : String → Prop) : List String → List Event → Prop
  | _, [] => True
  | items, e :: es =>
    (∀ name, e = .reads name → known name ∨ items.head? = some name) ∧
      Bounded known (enter items e) es

variable {known : String → Prop}

theorem bounded_append {items : List String} {xs ys : List Event} :
    Bounded known items (xs ++ ys) ↔
      Bounded known items xs ∧ Bounded known (xs.foldl enter items) ys := by
  induction xs generalizing items with
  | nil => simp [Bounded]
  | cons x xs ih => rw [List.cons_append, Bounded, Bounded, ih, List.foldl_cons, and_assoc]

theorem bounded_read {items : List String} {es before after : List Event} {name : String}
    (bounded : Bounded known items es) (read : es = before ++ .reads name :: after) :
    known name ∨ (before.foldl enter items).head? = some name := by
  rw [read, bounded_append] at bounded
  exact bounded.2.1 name rfl

theorem reads_only {es : List Event} (reads : ∀ e ∈ es, ∃ name, e = .reads name ∧ known name)
    (items : List String) :
    headers es = [] ∧ es.foldl enter items = items ∧ Bounded known items es := by
  induction es with
  | nil => exact ⟨rfl, rfl, trivial⟩
  | cons e es ih =>
    obtain ⟨name, rfl, here⟩ := reads e List.mem_cons_self
    obtain ⟨none, same, bounded⟩ := ih fun e member => reads e (List.mem_cons_of_mem _ member)
    refine ⟨none, same, fun other read => ?_, bounded⟩
    cases read
    exact Or.inl here

/-- Parts that close what they open can be read one by one. -/
theorem bounded_flatMap {α : Type} {items : List String} {parts : List α} {read : α → List Event}
    (closed : ∀ a ∈ parts, (read a).foldl enter items = items)
    (each : ∀ a ∈ parts, Bounded known items (read a)) :
    Bounded known items (parts.flatMap read) := by
  induction parts with
  | nil => trivial
  | cons a rest ih =>
    rw [List.flatMap_cons, bounded_append, closed a List.mem_cons_self]
    exact ⟨each a List.mem_cons_self, ih (fun b member => closed b (List.mem_cons_of_mem a member))
      fun b member => each b (List.mem_cons_of_mem a member)⟩

end Blade

namespace Form
variable {m : Form} {f : Field} {r : Relation}

theorem fieldEvents_bare (unrelated : f.relation = none) {known : String → Prop}
    (record : known m.record) (errors : known "errors") {e : Event}
    (member : e ∈ m.fieldEvents f) : ∃ name, e = .reads name ∧ known name := by
  have control : ∀ e ∈ m.controlEvents f, e = .reads m.record := by
    intro e inside
    rw [controlEvents, unrelated] at inside
    dsimp only at inside
    split at inside
    · cases inside
    · rcases List.mem_cons.1 inside with rfl | option
      · rfl
      · obtain ⟨_, _, same⟩ := List.mem_map.1 option
        exact same.symm
    · exact List.mem_singleton.1 inside
  rw [fieldEvents] at member
  split at member
  · exact ⟨m.record, control e member, record⟩
  · rcases List.mem_cons.1 member with rfl | later
    · exact ⟨"errors", rfl, errors⟩
    · rcases List.mem_append.1 later with inside | last
      · exact ⟨m.record, control e inside, record⟩
      · exact ⟨"errors", List.mem_singleton.1 last, errors⟩

theorem fieldEvents_scoped {known : String → Prop} (record : known m.record)
    (errors : known "errors") (collections : ∀ r, f.relation = some r → known r.collectionName)
    (items : List String) :
    headers (m.fieldEvents f)
        = (f.relation.map fun r => (r.collectionName, r.itemVariable)).toList ∧
      (m.fieldEvents f).foldl enter items = items ∧ Bounded known items (m.fieldEvents f) := by
  cases related : f.relation with
  | none => exact reads_only (fun e member => fieldEvents_bare related record errors member) items
  | some r =>
    have collection := collections r related
    have spelled : m.fieldEvents f
        = .reads "errors" :: (m.controlEvents f ++ [.reads "errors"]) := by
      simp [fieldEvents, related]
    rw [spelled, controlEvents, related]
    exact ⟨rfl, rfl, by simp [Bounded, enter, record, errors, collection]⟩

theorem headers_markup (plain : m.IsPlain) : headers (events m.markup.toList)
    = (relationsOn m.fields .form).map fun r => (r.collectionName, r.itemVariable) := by
  have each : ∀ f, headers (m.fieldEvents f)
      = (f.relation.map fun r => (r.collectionName, r.itemVariable)).toList :=
    fun f => (@fieldEvents_scoped m f (fun _ => True) trivial trivial (fun _ _ => trivial) []).1
  rw [events_markup plain]
  generalize m.fields = fields
  induction fields with
  | nil => rfl
  | cons f fields ih =>
    rw [headers] at ih
    rw [relationsOn, List.filterMap_cons, ← relationsOn]
    cases on : f.isOn .form with
    | false => simpa [on, headers] using ih
    | true =>
      have kept : (f :: fields).filter (·.isOn .form) = f :: fields.filter (·.isOn .form) :=
        List.filter_cons_of_pos on
      rw [kept, List.flatMap_cons, headers, List.filterMap_append, ih, ← headers, each]
      cases related : f.relation with
      | none => simp
      | some r => simp

theorem collection_passed (member : f ∈ m.fields) (on : f.isOn .form = true)
    (related : f.relation = some r) :
    r.collectionName ∈ (relationsOn m.fields .form).map Relation.collectionName :=
  List.mem_map.2 ⟨r, List.mem_filterMap.2 ⟨f, member, by rw [if_pos on, related]⟩, rfl⟩

theorem markup_bounded (plain : m.IsPlain) :
    Bounded (fun name => name ∈ m.variableNames ∨ name = "errors") []
      (events m.markup.toList) := by
  -- no loop is open between two fields
  have part : ∀ f ∈ m.fields.filter (·.isOn .form), (m.fieldEvents f).foldl enter [] = [] ∧
      Bounded (fun name => name ∈ m.variableNames ∨ name = "errors") [] (m.fieldEvents f) := by
    intro f member
    obtain ⟨among, on⟩ := List.mem_filter.1 member
    refine (fieldEvents_scoped (Or.inl List.mem_cons_self) (Or.inr rfl) ?_ []).2
    exact fun r related => Or.inl (List.mem_cons_of_mem _ (collection_passed among on related))
  rw [events_markup plain]
  exact bounded_flatMap (fun f member => (part f member).1) fun f member => (part f member).2

theorem compact_passes (valid : isModelName m.model = true) :
    Variables.ofFields m.fields (singularVariable m.model)
      = ",".intercalate (m.variableNames.map fun name => "'" ++ name ++ "'") := by
  rw [Variables.ofFields, Variables.build, if_neg (record_ne valid)]
  rfl

/-- The markup loops over exactly the collections that the controller passes beside the record,
    and reads nothing else than these, errors and the items of its loops. -/
theorem markup_reads_passed_variables {m : Form} (plain : m.IsPlain) :
    headers (events m.markup.toList)
        = (relationsOn m.fields .form).map (fun r => (r.collectionName, r.itemVariable)) ∧
      Variables.ofFields m.fields (singularVariable m.model)
        = ",".intercalate (m.variableNames.map fun name => "'" ++ name ++ "'") ∧
      (∀ before name after, events m.markup.toList = before ++ .reads name :: after →
        name = singularVariable m.model ∨ name = "errors" ∨
          name ∈ (relationsOn m.fields .form).map Relation.collectionName ∨
          (scope before).head? = some name) ∧
      (∀ before name after, events m.markup.toList = before ++ .reads name :: after →
        name ≠ "errors" → (scope before).head? ≠ some name → name ∈ m.variableNames) ∧
      ∀ name ∈ m.variableNames, name = singularVariable m.model ∨
        ∃ item, (name, item) ∈ headers (events m.markup.toList) := by
  have read : ∀ before name after, events m.markup.toList = before ++ .reads name :: after →
      (name ∈ m.variableNames ∨ name = "errors") ∨ (scope before).head? = some name :=
    fun before name after split => bounded_read (markup_bounded plain) split
  refine ⟨headers_markup plain, compact_passes plain.model, ?_, ?_, ?_⟩
  · intro before name after split
    rcases read before name after split with (passed | errors) | item
    · rcases List.mem_cons.1 passed with record | collection
      · exact Or.inl record
      · exact Or.inr (Or.inr (Or.inl collection))
    · exact Or.inr (Or.inl errors)
    · exact Or.inr (Or.inr (Or.inr item))
  · intro before name after split other outside
    rcases read before name after split with (passed | errors) | item
    · exact passed
    · exact absurd errors other
    · exact absurd item outside
  · intro name passed
    rcases List.mem_cons.1 passed with record | collection
    · exact Or.inl record
    · obtain ⟨r, member, same⟩ := List.mem_map.1 collection
      right
      rw [headers_markup plain]
      exact ⟨r.itemVariable, List.mem_map.2 ⟨r, member, by rw [same]⟩⟩

def blogForm : Form where
  fields := [.ofName "title" .text, .ofName "token" .hidden,
    { Field.ofName "category_id" .hidden with relation := some { name := "category" } },
    { Field.ofName "tag" .password with
      relation := some { name := "tag", collection := some "tagOptions" } },
    { Field.ofName "state" .select with options := [("draft", "Draft\nor"), ("it's", "out")] },
    { Field.ofName "author" .select with
      relation := some { name := "author" }, visibility := .ofList [.index] }]
  model := "BlogPost"
  style := {}
  languageFile := none

theorem blog_form_agrees : blogForm.IsPlain ∧
    headers (events blogForm.markup.toList)
      = [("categories", "category"), ("tagOptions", "tag")] ∧
    Variables.ofFields blogForm.fields "blogPost" = "'blogPost','categories','tagOptions'" ∧
    ∀ before name after, events blogForm.markup.toList = before ++ .reads name :: after →
      name ≠ "errors" → (scope before).head? ≠ some name →
        name ∈ ["blogPost", "categories", "tagOptions"] := by
  have plain : blogForm.IsPlain :=
    ⟨by decide +kernel, by decide +kernel, ⟨by decide, by decide, by decide, by decide⟩, by decide⟩
  have record : singularVariable blogForm.model = "blogPost" := by decide +kernel
  have passed : blogForm.variableNames = ["blogPost", "categories", "tagOptions"] := by
    decide +kernel
  obtain ⟨loops, call, _, read, _⟩ := markup_reads_passed_variables plain
  rw [record, passed] at call
  rw [passed] at read
  exact ⟨plain, loops.trans (by decide +kernel), call.trans (by decide +kernel), read⟩

end Form

end BladeForm
