/-!
The classes that one family of templates puts on the elements of a form.
-/
namespace BladeForm

structure Style where
  groupClass : String := "form-group"
  labelClass : String := "col-md-2 control-label"
  inputWrapperClass : String := "col-md-10"
  inputClass : String := "form-control"
deriving DecidableEq, Repr

end BladeForm
