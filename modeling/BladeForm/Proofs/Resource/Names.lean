import BladeForm.Proofs.Form.Events
import BladeForm.Proofs.Form.Tags
import BladeForm.Proofs.Name.Identifier
import BladeForm.Proofs.Plan.Parts
import BladeForm.Proofs.Resource.Acceptance

/-!
The names that a resource brings into its selectors. A selector runs over the collection of a
relation with an item, and shows a column of that item. Loading looks at the name of the collection
alone, so the item's name is known to be an identifier where the collection is named after it, and
nothing is known of the column's name.
-/
namespace BladeForm
open Name

namespace Relation

/-- All names that a selector prints in the place of a variable or of a property. -/
structure HasIdentifiers (r : Relation) : Prop where
  collection : isIdentifier r.collectionName = true
  item : isIdentifier r.itemVariable = true
  display : isIdentifier r.displayField = true

/-- Where these names stand: in the header of the loop, where an item is asked for its key, and
    where the item is shown. -/
def NamesIn (r : Relation) (text : List Char) : Prop :=
  ∃ before between after, text = before ++ ('@' :: (Blade.loop r.collectionName r.itemVariable
    ++ ("\n        <option value=\"".toList ++ ((Blade.echo s!"${r.itemVariable}->getKey()").toList
    ++ (between ++ ((Blade.echo s!"${r.itemVariable}->{r.displayField}").toList ++ after))))))

theorem item_identifier {r : Relation} (collection : isIdentifier r.collectionName = true)
    (derived : r.collection = none) : isIdentifier r.itemVariable = true := by
  rw [collectionName, derived, Option.getD_none, pluralVariable, plural_identifier] at collection
  exact collection

end Relation

theorem Form.selector_names (m : Form) (f : Field) (r : Relation) :
    r.NamesIn (m.relationSelect f r).toList := by
  refine ⟨(m.selectTag f).text ++ ((m.promptParts f (lowerCase (title r.name))).flatMap Part.text
    ++ "\n    ".toList), "\" ".toList ++ ((m.selectedIf f s!"${r.itemVariable}->getKey()").toList
    ++ ">\n            ".toList), "\n        </option>\n    @endforeach\n</select>".toList, ?_⟩
  rw [relationSelect_text]
  unfold relationRow Row.text optionTag
  dsimp only
  rw [List.flatMap_append]
  unfold Blade.loop Blade.loopStart Blade.loopMiddle
  simp only [List.flatMap_cons, List.flatMap_nil]
  unfold Part.text Tag.text Tag.pair Tag.closing
  simp [toString]

namespace Resource

/-- What loading knows of the names of a selector. Without a collection of its own a relation is
    looked at through the plural of its name, so only its column can be no identifier; with one,
    nothing is known of the name either, and it must begin with a letter where words begin. -/
theorem relation_names {t : Tree} {name : String} {base : Path} {languageFile : Option String}
    {r : Resource} (loaded : load t name base languageFile = .ok r) {f : Field}
    (member : f ∈ r.fields) {rel : Relation} (related : f.relation = some rel) :
    isIdentifier rel.collectionName = true ∧
    (rel.collection = none → isIdentifier rel.itemVariable = true) ∧
    ((∀ c ∈ rel.name.toList, isNameChar c = true) → (isIdentifier rel.itemVariable = true ↔
      ∃ c ∈ rel.name.toList.find? fun c => !isSeparator c, isLetter c = true)) ∧
    (rel.HasIdentifiers ↔ isIdentifier rel.displayField = true ∧
      (rel.collection = none ∨ isIdentifier rel.itemVariable = true)) ∧
    ∀ m : Form, rel.NamesIn (m.relationSelect f rel).toList := by
  have collection := (load_sound loaded).collections f member rel related
  have derived := @Relation.item_identifier rel collection
  refine ⟨collection, derived, variable_identifier, ⟨?_, ?_⟩, fun m => m.selector_names f rel⟩
  · exact fun names => ⟨names.display, Or.inr names.item⟩
  · rintro ⟨display, none | item⟩
    · exact ⟨collection, derived none, display⟩
    · exact ⟨collection, item, display⟩

def teamText : String :=
  "[\x7b\"name\":\"author_id\",\"foreign-relation\":\x7b\"name\":\"blog_author\"\x7d\x7d,"
    ++ "\x7b\"name\":\"user_id\",\"foreign-relation\":"
    ++ "\x7b\"name\":\"user\",\"field\":\"first name\"\x7d\x7d,"
    ++ "\x7b\"name\":\"owner_id\",\"foreign-relation\":"
    ++ "\x7b\"name\":\"2nd owner\",\"collection\":\"owners\"\x7d\x7d]"

def relatedField (name : String) (rel : Relation) : Field :=
  { Field.ofName name .select with relation := some rel }

def authorField : Field := relatedField "author_id" { name := "blog_author" }

def userField : Field := relatedField "user_id" { name := "user", displayField := "first name" }

def ownerField : Field :=
  relatedField "owner_id" { name := "2nd owner", collection := some "owners" }

def teamResource : Resource := ⟨⟨"post.json"⟩, [authorField, userField, ownerField], none⟩

theorem team_loaded : load (fileTree teamText) "post" .empty none = .ok teamResource :=
  ok_of_toOption (by decide +kernel)

theorem author_named : ∃ rel, load (fileTree teamText) "post" .empty none = .ok teamResource ∧
    authorField ∈ teamResource.fields ∧ authorField.relation = some rel ∧
    isIdentifier rel.collectionName = true ∧ rel.HasIdentifiers ∧
    ∀ m : Form, rel.NamesIn (m.relationSelect authorField rel).toList := by
  have member : authorField ∈ teamResource.fields := by decide
  have names := relation_names team_loaded member rfl
  exact ⟨_, team_loaded, member, rfl, names.1, names.2.2.2.1.2 ⟨by decide, Or.inl rfl⟩,
    names.2.2.2.2⟩

/-- The resource loads, but one selector asks for a column of two words and another runs over its
    collection with a variable that begins with a digit. -/
theorem team_names_unfit : ∃ user owner,
    load (fileTree teamText) "post" .empty none = .ok teamResource ∧
    userField ∈ teamResource.fields ∧ userField.relation = some user ∧
    user.displayField = "first name" ∧ ¬ user.HasIdentifiers ∧
    ownerField ∈ teamResource.fields ∧ ownerField.relation = some owner ∧
    owner.itemVariable = "2NdOwner" ∧ ¬ owner.HasIdentifiers := by
  refine ⟨_, _, team_loaded, by decide, rfl, rfl, ?_, by decide, rfl, by decide +kernel, ?_⟩
  · intro names
    exact absurd names.display (by decide)
  · intro names
    exact absurd names.item (by decide +kernel)

end Resource

end BladeForm
