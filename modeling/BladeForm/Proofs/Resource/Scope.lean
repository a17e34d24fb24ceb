import BladeForm.Proofs.Form.Variables
import BladeForm.Proofs.Php.Loop
import BladeForm.Proofs.Resource.Names

/-!
What the selectors of a form do to the variables that its controller passes. Each selector binds
the item of its relation, so the record, the errors and the collections keep what they hold exactly
if no visible relation has an item of their name. Loading a resource does not see to that.
-/
namespace BladeForm
open Name

namespace Form

def loops (m : Form) : List (String × String) :=
  (relationsOn m.fields .form).map fun r => (r.collectionName, r.itemVariable)

/-- The variables that a form gets from outside and reads. -/
def neededNames (m : Form) : List String := "errors" :: m.variableNames

/-- No selector takes a variable for its item that the form still needs. -/
structure KeepsApart (m : Form) : Prop where
  record : ∀ r ∈ relationsOn m.fields .form, r.itemVariable ≠ m.record
  errors : ∀ r ∈ relationsOn m.fields .form, r.itemVariable ≠ "errors"
  collections : ∀ r ∈ relationsOn m.fields .form, ∀ s ∈ relationsOn m.fields .form,
    r.itemVariable ≠ s.collectionName

theorem keepsApart_iff {m : Form} :
    m.KeepsApart ↔ ∀ header ∈ m.loops, header.2 ∉ m.neededNames := by
  constructor
  · intro apart header member named
    obtain ⟨r, visible, rfl⟩ := List.mem_map.1 member
    rcases List.mem_cons.1 named with errors | passed
    · exact apart.errors r visible errors
    · rcases List.mem_cons.1 passed with record | collection
      · exact apart.record r visible record
      · obtain ⟨s, among, same⟩ := List.mem_map.1 collection
        exact apart.collections r visible s among same.symm
  · intro free
    have other {r : Relation} (visible : r ∈ relationsOn m.fields .form) :
        r.itemVariable ∉ m.neededNames := free _ (List.mem_map.2 ⟨r, visible, rfl⟩)
    refine ⟨fun r visible same => ?_, fun r visible same => ?_, fun r visible s among same => ?_⟩
    · exact other visible (same ▸ List.mem_cons_of_mem _ List.mem_cons_self)
    · exact other visible (same ▸ List.mem_cons_self)
    · refine other visible (same ▸ List.mem_cons_of_mem _ (List.mem_cons_of_mem _ ?_))
      exact List.mem_map.2 ⟨s, among, rfl⟩

end Form

theorem relationsOn_field {fields : List Field} {v : View} {rel : Relation}
    (visible : rel ∈ relationsOn fields v) : ∃ f ∈ fields, f.relation = some rel := by
  obtain ⟨f, member, given⟩ := List.mem_filterMap.1 visible
  split_ifs at given
  exact ⟨f, member, given⟩

namespace Resource

/-- The variables of a loaded form are safe from its selectors exactly if their items have other
    names. A collection that is named after its relation is safe from that relation's own item. -/
theorem selectors_keep {t : Tree} {name : String} {base : Path} {languageFile : Option String}
    {r : Resource} (loaded : load t name base languageFile = .ok r) (model : String)
    (style : Style) (file : Option String) :
    (Php.KeepsBindings (Form.neededNames ⟨r.fields, model, style, file⟩)
        (Form.loops ⟨r.fields, model, style, file⟩) ↔
      Form.KeepsApart ⟨r.fields, model, style, file⟩) ∧
    (∀ rel ∈ relationsOn r.fields .form, rel.collection = none →
      rel.itemVariable ≠ rel.collectionName) ∧
    (Form.IsPlain ⟨r.fields, model, style, file⟩ →
      Blade.headers (Blade.events (Form.markup ⟨r.fields, model, style, file⟩).toList)
        = Form.loops ⟨r.fields, model, style, file⟩) := by
  refine ⟨Php.keepsBindings_iff.trans Form.keepsApart_iff.symm, ?_, Form.headers_markup⟩
  intro rel visible derived same
  obtain ⟨f, member, related⟩ := relationsOn_field visible
  have collection := (load_sound loaded).collections f member rel related
  have item := Relation.item_identifier collection derived
  rw [Relation.collectionName, derived] at same
  exact plural_other item same.symm

def teamForm : Form := ⟨teamResource.fields, "BlogPost", {}, none⟩

theorem team_kept : load (fileTree teamText) "post" .empty none = .ok teamResource ∧
    teamForm.loops = [("blogAuthors", "blogAuthor"), ("users", "user"), ("owners", "2NdOwner")] ∧
    Php.KeepsBindings teamForm.neededNames teamForm.loops := by
  refine ⟨team_loaded, by decide +kernel, ?_⟩
  refine (selectors_keep team_loaded "BlogPost" {} none).1.2 ⟨?_, ?_, ?_⟩ <;> decide +kernel

def treeText : String :=
  "[\x7b\"name\":\"parent_id\",\"foreign-relation\":\x7b\"name\":\"category\"\x7d\x7d,"
    ++ "\x7b\"name\":\"error_id\",\"foreign-relation\":\x7b\"name\":\"errors\"\x7d\x7d,"
    ++ "\x7b\"name\":\"user_id\",\"foreign-relation\":"
    ++ "\x7b\"name\":\"user\",\"collection\":\"user\"\x7d\x7d,"
    ++ "\x7b\"name\":\"title\"\x7d]"

def treeResource : Resource where
  path := ⟨"category.json"⟩
  fields := [relatedField "parent_id" { name := "category" },
    relatedField "error_id" { name := "errors" },
    relatedField "user_id" { name := "user", collection := some "user" },
    .ofName "title" .text]
  languageFile := none

def treeForm : Form := ⟨treeResource.fields, "Category", {}, none⟩

/-- All three loops of this form bind a variable that it still needs: the record, the errors and
    the users. -/
theorem tree_variables_lost :
    load ⟨[("category.json", .file (.text treeText))], []⟩ "category" .empty none
      = .ok treeResource ∧
    isModelName treeForm.model = true ∧ treeForm.record = "category" ∧
    Blade.headers (Blade.events treeForm.markup.toList)
      = [("categories", "category"), ("errorses", "errors"), ("user", "user")] ∧
    (∀ lost ∈ ["category", "errors", "user"], lost ∈ treeForm.neededNames ∧
      ¬ Php.KeepsBindings [lost] treeForm.loops) ∧
    ¬ Php.KeepsBindings treeForm.neededNames treeForm.loops := by
  have loops : treeForm.loops
      = [("categories", "category"), ("errorses", "errors"), ("user", "user")] := by
    decide +kernel
  have plain : treeForm.IsPlain :=
    ⟨by decide +kernel, by decide +kernel, ⟨by decide, by decide, by decide, by decide⟩, by decide⟩
  refine ⟨ok_of_toOption (by decide +kernel), by decide, by decide +kernel,
    (Form.headers_markup plain).trans loops, ?_, ?_⟩
  · rw [loops]
    simp only [Php.keepsBindings_iff]
    decide +kernel
  · rw [Php.keepsBindings_iff, loops]
    decide +kernel

end Resource

end BladeForm
