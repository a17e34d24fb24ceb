import BladeForm.Proofs.Json.Reading
import BladeForm.Proofs.Plan.Parts

/-!
Which resource files are accepted. A file holds an array of fields, bare or among the members of an
object, and it is accepted exactly if the fields keep the rules of a resource. Otherwise the first
field that offends is named, with the first rule that it breaks.
-/
namespace BladeForm.Resource

/-- The array of fields in a file as written: all of the file, or the last member of that name. -/
def fieldItems? : Json.Value → Option (List Json.Value)
  | .array vs => some vs
  | .object ms =>
    match Json.lastMember? "fields" ms with
    | some (.array vs) => some vs
    | _ => none
  | _ => none

theorem fieldArray_written {w : Json.Value} {vs : List Json.Value} (given : fieldItems? w = some vs)
    (path : Path) : fieldArray path w.sorted = .ok (.array (Json.sortedItems vs)) := by
  cases w with
  | array us =>
    cases given
    rfl
  | object ms =>
    rw [fieldItems?] at given
    split at given
    · next us found =>
      cases given
      rw [Json.Value.sorted, fieldArray, Json.lookup_sortedMembers, found]
      rfl
    · cases given
  | _ => cases given

theorem parseFields_written {text : String} {w : Json.Value} {vs : List Json.Value}
    (written : Json.Writes Json.maxDepth (.padded w) text.toList)
    (given : fieldItems? w = some vs) (path : Path) (fields : List Field) :
    parseFields path text = .ok fields ↔
      List.Forall₂ (fun v f => Field.decode v.sorted = .ok f) vs fields := by
  have read : Json.parse text = .ok w.sorted := Json.parse_iff.2 ⟨w, written, rfl⟩
  have array := fieldArray_written given path
  have items : Json.asList Field.decode (.array (Json.sortedItems vs)) = .ok fields ↔
      List.Forall₂ (fun v f => Field.decode v.sorted = .ok f) vs fields := by
    rw [Json.asList, Json.sortedItems_map, mapM_ok_iff, List.forall₂_map_left_iff]
  have whole : parseFields path text =
      (Json.asList Field.decode (.array (Json.sortedItems vs))).mapError
        fun e => .malformedResource path (.undecodable e) := by
    rw [parseFields, read]
    change (fieldArray path w.sorted >>= _) = _
    rw [array]
    rfl
  rw [whole, mapError_ok_iff, items]

theorem load_items {t : Tree} {name : String} {base : Path} {languageFile : Option String}
    {r : Resource} (loaded : load t name base languageFile = .ok r) {text : String}
    {w : Json.Value} {vs : List Json.Value} (read : t.read? (locate t name base) = some text)
    (written : Json.Writes Json.maxDepth (.padded w) text.toList)
    (given : fieldItems? w = some vs) :
    List.Forall₂ (fun v f => Field.decode v.sorted = .ok f) vs r.fields := by
  obtain ⟨text', read', whole⟩ := load_ok.1 loaded
  obtain ⟨fields, parsed, _, rfl⟩ := ofText_ok.1 whole
  rw [read] at read'
  cases read'
  exact (parseFields_written written given _ _).1 parsed

/-- A rule that a field breaks, after fields of these names; of several the first counts. -/
inductive Offends (earlier : List String) (f : Field) : ResourceFault → Prop where
  | name : Name.isIdentifier f.name = false → Offends earlier f (.badName f.name)
  | duplicate : Name.isIdentifier f.name = true → f.name ∈ earlier →
      Offends earlier f (.duplicate f.name)
  | collection {r : Relation} : Name.isIdentifier f.name = true → f.name ∉ earlier →
      f.relation = some r → Name.isIdentifier r.collectionName = false →
      Offends earlier f (.badCollection f.name r.collectionName)

def FirstOffence (fields : List Field) (fault : ResourceFault) : Prop :=
  ∃ before f after, fields = before ++ f :: after ∧ IsSound before ∧
    Offends (before.map (·.name)) f fault

theorem fieldFault?_some_iff {earlier : List String} {f : Field} {fault : ResourceFault} :
    fieldFault? earlier f = some fault ↔ Offends earlier f fault := by
  rw [fieldFault?]
  constructor
  · intro found
    split_ifs at found with name known
    · cases found
      exact .name (by simpa using name)
    · cases found
      exact .duplicate (by simpa using name) (by simpa using known)
    · obtain ⟨r, relation, found⟩ := Option.bind_eq_some_iff.1 found
      split_ifs at found with collection
      cases found
      exact .collection (by simpa using name) (by simpa using known) relation
        (by simpa using collection)
  · intro offends
    cases offends with
    | name bad => simp [bad]
    | duplicate name known => simp [name, known]
    | collection name new relation bad => simp [name, new, relation, bad]

theorem fault?_split {earlier : List String} {fields : List Field} {fault : ResourceFault} :
    fault? earlier fields = some fault ↔ ∃ before f after, fields = before ++ f :: after ∧
      fault? earlier before = none ∧ Offends (earlier ++ before.map (·.name)) f fault := by
  induction fields generalizing earlier with
  | nil => simp [fault?]
  | cons g fields ih =>
    rw [fault?]
    constructor
    · intro found
      split at found
      · next other here =>
        cases found
        exact ⟨[], g, fields, rfl, rfl, by simpa using fieldFault?_some_iff.1 here⟩
      · next none =>
        obtain ⟨before, f, after, rfl, clean, offends⟩ := ih.1 found
        refine ⟨g :: before, f, after, rfl, ?_, by simpa using offends⟩
        rw [fault?, none]
        exact clean
    · rintro ⟨before, f, after, split, clean, offends⟩
      cases before with
      | nil =>
        obtain ⟨rfl, rfl⟩ := List.cons.inj split
        have here : fieldFault? earlier g = some fault :=
          fieldFault?_some_iff.2 (by simpa using offends)
        rw [here]
      | cons b before =>
        rw [List.cons_append] at split
        obtain ⟨rfl, rfl⟩ := List.cons.inj split
        rw [fault?] at clean
        split at clean
        · cases clean
        · next none =>
          exact ih.2 ⟨before, f, after, rfl, clean, by simpa using offends⟩

theorem fault?_some_iff {fields : List Field} {fault : ResourceFault} :
    fault? [] fields = some fault ↔ FirstOffence fields fault := by
  rw [fault?_split, FirstOffence]
  simp [fault?_none_iff]

/-- A file whose array decodes is accepted exactly if its fields keep the rules, with these fields
    in their order, whatever else stands around the array; else its first offence is named. -/
theorem arrays_accepted {t : Tree} {path : Path} {text : String} {w : Json.Value}
    {vs : List Json.Value} {fields : List Field} (read : t.read? path = some text)
    (written : Json.Writes Json.maxDepth (.padded w) text.toList)
    (given : fieldItems? w = some vs)
    (decoded : List.Forall₂ (fun v f => Field.decode v.sorted = .ok f) vs fields)
    (languageFile : Option String) :
    ((∃ r, ofFile t path languageFile = .ok r) ↔ IsSound fields) ∧
    (∀ r, ofFile t path languageFile = .ok r → r = ⟨path, fields, languageFile⟩) ∧
    ∀ e, ofFile t path languageFile = .error e →
      ∃ fault, FirstOffence fields fault ∧ e = .invalidResource path fault := by
  have sound : fault? [] fields = none ↔ IsSound fields := by simp [fault?_none_iff]
  have whole : ofFile t path languageFile = ofText path languageFile text := by
    rw [ofFile, Tree.read?_isFile read, read]
    rfl
  have parsed := (parseFields_written written given path fields).2 decoded
  cases found : fault? [] fields with
  | none =>
    have accepted : ofFile t path languageFile = .ok ⟨path, fields, languageFile⟩ := by
      rw [whole]
      exact ofText_ok.2 ⟨fields, parsed, sound.1 found, rfl⟩
    rw [accepted]
    refine ⟨⟨fun _ => sound.1 found, fun _ => ⟨_, rfl⟩⟩, ?_, ?_⟩
    · exact fun r same => (Except.ok.inj same).symm
    · exact fun e same => by cases same
  | some fault =>
    have refused : ofFile t path languageFile = .error (.invalidResource path fault) := by
      rw [whole, ofText, bind_error_iff]
      exact Or.inr ⟨fields, parsed, by rw [found]⟩
    rw [refused]
    refine ⟨⟨?_, ?_⟩, ?_, ?_⟩
    · rintro ⟨r, same⟩
      cases same
    · intro rules
      rw [sound.2 rules] at found
      cases found
    · exact fun r same => by cases same
    · exact fun e same => ⟨fault, fault?_some_iff.1 found, (Except.error.inj same).symm⟩

def titleItem : Json.Value := .object [("name", .string "title")]

def doubledValue : Json.Value :=
  .object [("model", .string "Post"), ("fields", .array [titleItem, titleItem])]

def doubledText : String :=
  "\x7b\"model\":\"Post\",\"fields\":[\x7b\"name\":\"title\"\x7d,\x7b\"name\":\"title\"\x7d]\x7d"

def fileTree (text : String) : Tree := ⟨[("post.json", .file (.text text))], []⟩

theorem titleItem_written (n : Nat) :
    Json.Writes (n + 1) (.padded titleItem) "\x7b\"name\":\"title\"\x7d".toList :=
  (Json.Writes.object (.lastMember (Json.key_plain (by decide))
    (Json.text_plain (by decide)))).bare

theorem doubled_written : Json.Writes Json.maxDepth (.padded doubledValue) doubledText.toList :=
  (Json.Writes.object (.member (Json.key_plain (by decide)) (Json.text_plain (by decide))
    (.lastMember (Json.key_plain (by decide))
      (Json.Writes.array (.item (titleItem_written _)
        (.lastItem (titleItem_written _)))).bare))).bare

def doubledFields : List Field := [Field.ofName "title" .text, Field.ofName "title" .text]

theorem doubled_title_refused :
    (fileTree doubledText).read? ⟨"post.json"⟩ = some doubledText ∧
    Json.Writes Json.maxDepth (.padded doubledValue) doubledText.toList ∧
    fieldItems? doubledValue = some [titleItem, titleItem] ∧
    List.Forall₂ (fun v f => Field.decode v.sorted = .ok f) [titleItem, titleItem] doubledFields ∧
    ((∃ r, ofFile (fileTree doubledText) ⟨"post.json"⟩ none = .ok r) ↔ IsSound doubledFields) ∧
    (∀ r, ofFile (fileTree doubledText) ⟨"post.json"⟩ none = .ok r →
      r = ⟨⟨"post.json"⟩, doubledFields, none⟩) ∧
    (∀ e, ofFile (fileTree doubledText) ⟨"post.json"⟩ none = .error e →
      ∃ fault, FirstOffence doubledFields fault ∧ e = .invalidResource ⟨"post.json"⟩ fault) ∧
    FirstOffence doubledFields (.duplicate "title") := by
  have decoded : Field.decode titleItem.sorted = .ok (Field.ofName "title" .text) :=
    ok_of_toOption (by decide +kernel)
  have both : List.Forall₂ (fun v f => Field.decode v.sorted = .ok f) [titleItem, titleItem]
      doubledFields := .cons decoded (.cons decoded .nil)
  have read : (fileTree doubledText).read? ⟨"post.json"⟩ = some doubledText := rfl
  have accepted := arrays_accepted read doubled_written rfl both none
  exact ⟨read, doubled_written, rfl, both, accepted.1, accepted.2.1, accepted.2.2,
    fault?_some_iff.1 (by decide)⟩

end BladeForm.Resource
