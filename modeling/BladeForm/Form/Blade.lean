/-!
Blade statements that print an expression: `echo` escapes what it prints, `rawEcho` does not.
-/
namespace BladeForm.Blade

def echo (expression : String) : String := "\x7b\x7b " ++ expression ++ " \x7d\x7d"

def rawEcho (expression : String) : String := "\x7b!! " ++ expression ++ " !!\x7d"

end BladeForm.Blade
