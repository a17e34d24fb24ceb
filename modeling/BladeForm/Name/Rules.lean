/-!
Which texts may serve as names. A model name becomes a variable and a file name, a field name
becomes a variable, and a group name is the stem of one language file; all letters are ASCII.
-/
namespace BladeForm.Name

def isLetter (c : Char) : Bool := 'a' ≤ c && c ≤ 'z' || 'A' ≤ c && c ≤ 'Z'

def isWordChar (c : Char) : Bool := isLetter c || '0' ≤ c && c ≤ '9' || c = '_'

def startsAndContinues (first rest : Char → Bool) : List Char → Bool
  | [] => false
  | c :: cs => first c && cs.all rest

def isModelName (s : String) : Bool := startsAndContinues isLetter isWordChar s.toList

def isIdentifier (s : String) : Bool :=
  startsAndContinues (fun c => isLetter c || c = '_') isWordChar s.toList

def isGroupName (s : String) : Bool :=
  startsAndContinues (fun c => isLetter c || c = '_') (fun c => isWordChar c || c = '-') s.toList

end BladeForm.Name
