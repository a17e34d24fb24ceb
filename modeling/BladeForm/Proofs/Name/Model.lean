import BladeForm.Config.Options
import BladeForm.Form.Variables
import BladeForm.Proofs.Name.Identifier
import BladeForm.Proofs.Strip

/-!
What becomes of a model name. Each of its forms begins with its first letter, in one case or the
other, and has nothing but word characters, so all of them are model names again, and so are their
plurals. Nothing else can go wrong when options are settled that name no language file, and the
record is never missing from what a controller passes.
-/
namespace BladeForm

namespace Name
open Text
variable {name : String}

theorem letter_cased {c : Char} (letter : isLetter c = true) :
    isLetter c.toLower = true ∧ isLetter c.toUpper = true := by
  have ascii := word_ascii (letter_word letter)
  revert letter
  exact @ascii_forall (fun c => isLetter c = true →
    isLetter c.toLower = true ∧ isLetter c.toUpper = true) (by decide +kernel) c ascii

theorem model_ofList {c : Char} {cs : List Char} (letter : isLetter c = true)
    (wordy : IsWordy (c :: cs)) : isModelName (String.ofList (c :: cs)) = true := by
  rw [isModelName, String.toList_ofList, startsAndContinues, letter, Bool.true_and]
  exact List.all_eq_true.2 (List.forall_mem_cons.1 wordy).2

theorem model_ne (valid : isModelName name = true) : name ≠ "" := by
  rintro rfl
  cases valid

theorem model_wordy (valid : isModelName name = true) : IsWordy name.toList := by
  obtain ⟨c, cs, spelled, _, wordy⟩ := model_chars valid
  rwa [spelled]

theorem model_variable (valid : isModelName name = true) :
    isModelName (singularVariable name) = true := by
  obtain ⟨c, ds, spelled, letter⟩ := record_begins valid
  have wordy := closed_word.all_camel (model_wordy valid)
  rw [spelled] at wordy
  rw [singularVariable, spelled]
  exact model_ofList (letter_cased letter).1 wordy

theorem model_snake (valid : isModelName name = true) : isModelName (snake name) = true := by
  obtain ⟨c, ds, spelled, letter⟩ := snake_begins valid
  have wordy := wordy_snake (model_wordy valid)
  rw [spelled] at wordy
  rw [snake, spelled]
  exact model_ofList (letter_cased letter).1 wordy

theorem model_class (valid : isModelName name = true) : isModelName (className name) = true := by
  obtain ⟨c, w, ws, split, letter⟩ := model_words valid
  have first : (words name.toList).flatten = c :: (w ++ ws.flatten) := by
    rw [split, List.flatten_cons, List.cons_append]
  obtain ⟨rest, spelled⟩ := capitalized_begins first (letter_word letter)
  have wordy : IsWordy (pascalChars name.toList) := closed_word.all_capitals
    fun w word c member => model_wordy valid c (words_chars word member)
  rw [pascalChars, spelled] at wordy
  rw [className, pascalChars, spelled]
  exact model_ofList (letter_cased letter).2 wordy

theorem model_plural (word : String) : isModelName (plural word) = isModelName word := by
  rw [isModelName, plural, String.toList_ofList, plural_starts]
  rfl

theorem model_group (valid : isModelName name = true) : isGroupName name = true := by
  obtain ⟨c, cs, spelled, letter, wordy⟩ := model_chars valid
  rw [isGroupName, spelled, startsAndContinues, letter, Bool.true_or, Bool.true_and,
    List.all_eq_true]
  intro d member
  rw [(List.forall_mem_cons.1 wordy).2 d member, Bool.true_or]

theorem word_visible {c : Char} (word : isWordChar c = true) : isBlank c = false := by
  have ascii := word_ascii word
  revert word
  exact @ascii_forall (fun c => isWordChar c = true → isBlank c = false) (by decide +kernel) c ascii

theorem model_trim (valid : isModelName name = true) : trim name = name := by
  have bare : IsBare isBlank name.toList :=
    bare_of_free fun c member => word_visible (model_wordy valid c member)
  rw [trim, strip_self_iff.2 bare, String.ofList_toList]

end Name

theorem Options.settle_model {o : Options} {name : String} (valid : Name.isModelName name = true)
    (model : Text.trim o.modelName = name) (unnamed : nonBlank o.languageFileName = none)
    (c : Config) : ∃ s, o.settle c = .ok s ∧ s.modelName = name ∧
      s.languageFileName = Name.pluralSnake name := by
  have plural : Name.isModelName (Name.pluralSnake name) = true :=
    (Name.model_plural _).trans (Name.model_snake valid)
  rw [settle, unnamed, model, Option.getD_none, valid, Name.model_group plural]
  exact ⟨_, rfl, rfl, rfl⟩

theorem Variables.build_begins {record : String} (some : record ≠ "") (relations : List Relation) :
    ∃ rest, build record relations = quoted record ++ rest ∧ ∀ c ∈ rest.toList.head?, c = ',' := by
  rw [build, if_neg some, List.singleton_append, passed, List.map_cons]
  cases (relations.map Relation.collectionName).map quoted with
  | nil => exact ⟨"", by rw [String.intercalate_singleton, String.append_empty], by simp⟩
  | cons next later =>
    refine ⟨"," ++ ",".intercalate (next :: later), ?_, by simp⟩
    rw [String.intercalate_cons_cons, String.append_assoc]

namespace Name

/-- Each form of a model name is a model name, and so is each of its plurals. The plural that names
    the language file may do so, hence a model alone is always settled; and the variables passed to
    a view begin with the record's. -/
theorem model_forms_fit {name : String} (valid : isModelName name = true) :
    (∀ form ∈ [singularVariable name, pluralVariable name, snake name, pluralSnake name,
      className name], form ≠ "" ∧ isModelName form = true) ∧
    isGroupName (pluralSnake name) = true ∧
    Text.trim name = name ∧
    (∀ (o : Options) (c : Config), Text.trim o.modelName = name →
      Options.nonBlank o.languageFileName = none → ∃ s, o.settle c = .ok s ∧
        s.modelName = name ∧ s.languageFileName = pluralSnake name) ∧
    ∀ relations, ∃ rest, Variables.build (singularVariable name) relations
      = Variables.quoted (singularVariable name) ++ rest ∧ ∀ c ∈ rest.toList.head?, c = ',' := by
  have record := model_variable valid
  have snaked := model_snake valid
  have records : isModelName (pluralVariable name) = true := (model_plural _).trans record
  have group : isModelName (pluralSnake name) = true := (model_plural _).trans snaked
  refine ⟨?_, model_group group, model_trim valid, ?_, Variables.build_begins (model_ne record)⟩
  · simp only [List.forall_mem_cons, List.not_mem_nil, false_imp_iff, implies_true, and_true]
    exact ⟨⟨model_ne record, record⟩, ⟨model_ne records, records⟩, ⟨model_ne snaked, snaked⟩,
      ⟨model_ne group, group⟩, model_ne (model_class valid), model_class valid⟩
  · exact fun o c model unnamed => Options.settle_model valid model unnamed c

theorem key_model_fits : isModelName "APIKey2__X_" = true ∧
    className "APIKey2__X_" = "ApiKey2X" ∧ isModelName "ApiKey2X" = true ∧
    pluralSnake "APIKey2__X_" = "api_key_2__x_s" ∧ isGroupName "api_key_2__x_s" = true ∧
    (∃ s, ({ modelName := " APIKey2__X_ ", languageFileName := some " " } : Options).settle {}
      = .ok s ∧ s.modelName = "APIKey2__X_" ∧ s.languageFileName = "api_key_2__x_s") ∧
    ∃ rest, Variables.build "apiKey2X" [{ name := "owner" }]
      = "'apiKey2X'" ++ rest ∧ ∀ c ∈ rest.toList.head?, c = ',' := by
  have valid : isModelName "APIKey2__X_" = true := by decide
  have pascal : className "APIKey2__X_" = "ApiKey2X" := by decide +kernel
  have plural : pluralSnake "APIKey2__X_" = "api_key_2__x_s" := by decide +kernel
  have camel : singularVariable "APIKey2__X_" = "apiKey2X" := by decide +kernel
  obtain ⟨fits, group, _, settles, passed⟩ := model_forms_fit valid
  have named := (fits _ (.tail _ (.tail _ (.tail _ (.tail _ (.head _)))))).2
  have settled := settles { modelName := " APIKey2__X_ ", languageFileName := some " " } {}
    (by decide +kernel) (by decide +kernel)
  have begins := passed [{ name := "owner" }]
  rw [pascal] at named
  rw [plural] at group settled
  rw [camel] at begins
  exact ⟨valid, pascal, named, plural, group, settled, begins⟩

end Name

end BladeForm
