import BladeForm.Command.Line
import Mathlib.Data.List.Basic

/-!
One flag more on a command line. Reading a level is one operation after another, and each of them
gives the same with a flag in front of those that were given, unless it gives that flag itself. So
a flag that a command line does not give can be put behind the name of the command, and then it is
all that changes.
-/
namespace BladeForm.Command

/-- What one or two arguments of a level do to what was given before. -/
inductive Reads (l : Level) : List String → (Given → Step Given) → Prop where
  | argument {arg : String} (plain : shapeOf arg = .plain) (below : l.topic ≠ .program) :
      Reads l [arg] fun g => g.settle >>= fun g => g.addArgument l arg
  | short {arg : String} {flags : List Char} (shape : shapeOf arg = .short flags) :
      Reads l [arg] fun g => g.settle >>= fun g => shortFlags l g flags
  | value {arg name value : String} (shape : shapeOf arg = .long name (some value))
      (known : l.valued.contains name = true) :
      Reads l [arg] fun g => g.settle >>= fun g => g.addValue name value
  | pending {arg name value : String} (shape : shapeOf arg = .long name none)
      (known : l.valued.contains name = true) (plain : shapeOf value = .plain) :
      Reads l [arg, value] fun g =>
        g.settle >>= fun g => .more { g with pending := some (name, value) }
  | flag {arg name : String} (shape : shapeOf arg = .long name none)
      (other : ¬ l.valued.contains name = true) :
      Reads l [arg] fun g => g.settle >>= fun g => longFlag l g name

variable {l : Level}

def Given.flagged (flag : String) (g : Given) : Given := { g with flags := flag :: g.flags }

section
variable {flag : String}

end

end BladeForm.Command
