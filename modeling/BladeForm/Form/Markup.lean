import BladeForm.Form.Header
import BladeForm.Php.Quote
import BladeForm.Style
import BladeForm.Text.Lines

/-!
Markup of a form. A relation is entered through a selector over its collection, whatever
control the field asks for; a hidden field stands bare, and all others get a group with a
label, the control and the place for its error.
-/
namespace BladeForm

/-- What all fields of one form share. With a language file, labels are looked up there. -/
structure Form where
  fields : List Field
  model : String
  style : Style
  languageFile : Option String
deriving DecidableEq, Repr

namespace Form

def indented (width : Nat) (s : String) : String := String.ofList (Text.indent width s.toList)

def joinLines (ls : List String) : String := "\n".intercalate ls

def record (m : Form) : String := Name.singularVariable m.model

def oldValue (m : Form) (f : Field) : String :=
  s!"old('{f.name}', optional(${m.record})->{f.name})"

def label (m : Form) (f : Field) : String :=
  match m.languageFile with
  | some file => Blade.echo s!"trans('{file}.{f.name}')"
  | none => f.label

def group (m : Form) (f : Field) (control : String) : String :=
  joinLines [
    s!"<div class=\"{m.style.groupClass} "
      ++ Blade.echo s!"$errors->has('{f.name}') ? 'has-error' : ''" ++ "\">",
    s!"    <label for=\"{f.name}\" class=\"{m.style.labelClass}\">{m.label f}</label>",
    s!"    <div class=\"{m.style.inputWrapperClass}\">",
    indented 8 control,
    "        "
      ++ Blade.rawEcho s!"$errors->first('{f.name}', '<p class=\"help-block\">:message</p>')",
    "    </div>",
    "</div>"]

def input (m : Form) (f : Field) (type : String) (withValue : Bool) : String :=
  s!"<input class=\"{m.style.inputClass}\" name=\"{f.name}\" type=\"{type}\" id=\"{f.name}\""
    ++ (if withValue then " value=\"" ++ Blade.echo (m.oldValue f) ++ "\"" else "") ++ ">"

def hiddenInput (m : Form) (f : Field) : String :=
  s!"<input name=\"{f.name}\" type=\"hidden\" id=\"{f.name}\" value=\""
    ++ Blade.echo (m.oldValue f) ++ "\">"

def textarea (m : Form) (f : Field) : String :=
  s!"<textarea class=\"{m.style.inputClass}\" name=\"{f.name}\" cols=\"50\" rows=\"10\" "
    ++ s!"id=\"{f.name}\">" ++ Blade.echo (m.oldValue f) ++ "</textarea>"

/-- An unticked box sends nothing, so a hidden zero goes first. -/
def checkbox (m : Form) (f : Field) : String :=
  joinLines [
    s!"<input name=\"{f.name}\" type=\"hidden\" value=\"0\">",
    s!"<input id=\"{f.name}\" name=\"{f.name}\" type=\"checkbox\" value=\"1\" "
      ++ Blade.echo (m.oldValue f ++ " ? 'checked' : ''") ++ ">"]

def selectOpening (m : Form) (f : Field) : String :=
  s!"<select class=\"{m.style.inputClass}\" id=\"{f.name}\" name=\"{f.name}\">"

def selectedIf (m : Form) (f : Field) (expression : String) : String :=
  Blade.echo (m.oldValue f ++ " == " ++ expression ++ " ? 'selected' : ''")

def prompt (m : Form) (f : Field) (noun : String) : String :=
  "    <option value=\"\" style=\"display: none;\" " ++ m.selectedIf f "''"
    ++ s!" disabled>Select {noun}</option>"

def relationSelect (m : Form) (f : Field) (r : Relation) : String :=
  let item := r.itemVariable
  joinLines [
    m.selectOpening f,
    m.prompt f (Name.lowerCase (Name.title r.name)),
    s!"    @foreach (${r.collectionName} as ${item})",
    "        <option value=\"" ++ Blade.echo s!"${item}->getKey()" ++ "\" "
      ++ m.selectedIf f s!"${item}->getKey()" ++ ">",
    "            " ++ Blade.echo s!"${item}->{r.displayField}",
    "        </option>",
    "    @endforeach",
    "</select>"]

def option (m : Form) (f : Field) (value text : String) : String :=
  s!"    <option value=\"{value}\" " ++ m.selectedIf f (Php.quote value) ++ s!">{text}</option>"

def optionsSelect (m : Form) (f : Field) : String :=
  joinLines ([m.selectOpening f, m.prompt f (Name.lowerCase f.label)]
    ++ f.options.map (fun o => m.option f o.1 o.2) ++ ["</select>"])

def fieldMarkup (m : Form) (f : Field) : String :=
  match f.relation with
  | some r => m.group f (m.relationSelect f r)
  | none =>
    match f.control with
    | .hidden => m.hiddenInput f
    | .select => m.group f (m.optionsSelect f)
    | .textarea => m.group f (m.textarea f)
    | .checkbox => m.group f (m.checkbox f)
    | .password => m.group f (m.input f "password" false)
    | .email => m.group f (m.input f "email" true)
    | .number => m.group f (m.input f "number" true)
    | .date => m.group f (m.input f "date" true)
    | .text => m.group f (m.input f "text" true)

def markup (m : Form) : String :=
  joinLines ((m.fields.filter (·.isOn .form)).map m.fieldMarkup)

def variableNames (m : Form) : List String :=
  m.record :: (relationsOn m.fields .form).map Relation.collectionName

def header (m : Form) : Header := .ofFields m.fields m.model

end Form

end BladeForm
