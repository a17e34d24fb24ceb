import BladeForm.Plan
import BladeForm.Proofs.Substitution.Registration
import BladeForm.Proofs.Substitution.Unknown

/-!
What a form view gets in place of the tokens of its stub. Every token is spelled in one way, and
the one of the form stands for its markup with the lines moved, whatever the others stand for.
-/
namespace BladeForm.Settings

theorem formPlaceholders_worded (s : Settings) (markup arguments accessor : String) :
    (s.formPlaceholders markup arguments accessor).Worded := by
  have none : Placeholders.empty.Worded := fun e member => (by cases member)
  have common : s.commonPlaceholders.Worded := by
    refine Placeholders.worded_setAll none ?_
    simp only [List.forall_mem_map, List.forall_mem_cons]
    refine ⟨?_, ?_, ?_, ?_, ?_, ?_, ?_, ?_, ?_, ?_, ?_, ?_, by simp⟩
    all_goals exact ⟨_, by decide, by decide, rfl⟩
  refine Placeholders.worded_setAll common ?_
  refine Placeholders.worded_set _ (Placeholders.worded_set _ (Placeholders.worded_set _
    (Placeholders.worded_set _ none ?_) ?_) ?_) ?_
  all_goals exact ⟨_, by decide, by decide, rfl⟩

theorem formPlaceholders_markup (s : Settings) (markup arguments accessor : String) :
    (s.formPlaceholders markup arguments accessor).get? (Placeholders.token "form_fields_html")
      = some (Form.indented 16 markup) := by
  have model : Placeholders.token "model_name" ≠ Placeholders.token "form_fields_html" ∧
      Placeholders.token "model_name" ≠ Placeholders.token "view_variables" ∧
      Placeholders.token "model_name" ≠ Placeholders.token "model_header" := by decide
  have html : Placeholders.token "form_fields_html" ≠ Placeholders.token "view_variables" ∧
      Placeholders.token "form_fields_html" ≠ Placeholders.token "model_header" := by decide
  have arguments' : Placeholders.token "view_variables" ≠ Placeholders.token "model_header" := by
    decide
  have entries : (((Placeholders.empty.named "model_name" s.modelName).named
      "form_fields_html" (Form.indented 16 markup)).named "view_variables" arguments
        |>.named "model_header" accessor).entries
      = [(Placeholders.token "model_name", s.modelName),
        (Placeholders.token "form_fields_html", Form.indented 16 markup),
        (Placeholders.token "view_variables", arguments),
        (Placeholders.token "model_header", accessor)] := by
    simp [Placeholders.named, Placeholders.set, Placeholders.empty, Placeholders.setEntry, model,
      html, arguments']
  rw [Settings.formPlaceholders, Placeholders.extend, entries, Placeholders.setAll]
  simp only [List.foldl_cons, List.foldl_nil, Placeholders.get?_set, html.1, html.2, if_true,
    if_false]

/-- Where the stub has the token of the form, the view has the markup. -/
theorem render_around (s : Settings) (markup arguments accessor : String) {stub : Stub}
    {before after : List Char} (split : stub.text.toList
      = before ++ ((Placeholders.token "form_fields_html").toList ++ after)) :
    (stub.render (s.formPlaceholders markup arguments accessor)).toList
      = (s.formPlaceholders markup arguments accessor).substituteChars before
        ++ ((Form.indented 16 markup).toList
          ++ (s.formPlaceholders markup arguments accessor).substituteChars after) := by
  have value : (s.formPlaceholders markup arguments accessor).get?
      (String.ofList (Placeholders.token "form_fields_html").toList)
        = some (Form.indented 16 markup) := by
    rw [String.ofList_toList, formPlaceholders_markup]
  have registered : (Placeholders.token "form_fields_html").toList
      ∈ (s.formPlaceholders markup arguments accessor).tokens :=
    Placeholders.mem_tokens_iff.2 (by rw [value]; rfl)
  have spells := @Placeholders.token_spells "form_fields_html" (by decide) (by decide)
  rw [Stub.render, Placeholders.substitute, String.toList_ofList, split,
    Placeholders.substitute_around (s.formPlaceholders_worded _ _ _) spells registered,
    Placeholders.value, value, Option.getD_some]

end BladeForm.Settings
