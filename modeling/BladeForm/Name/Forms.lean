import BladeForm.Name.Words
import BladeForm.Text.Lines

/-!
The names a model takes in views, routes and language files. Each form rejoins the words of
the name; plurals follow the spelling of the last letters.
-/
namespace BladeForm.Name
open Text

def capitalized : List Char → List Char
  | [] => []
  | c :: cs => upperChar c ++ lower cs

def snakeChars (name : List Char) : List Char := joinWith ['_'] ((words name).map lower)

def titleChars (name : List Char) : List Char := joinWith [' '] ((words name).map capitalized)

def pascalChars (name : List Char) : List Char := ((words name).map capitalized).flatten

def camelChars (name : List Char) : List Char :=
  match words name with
  | [] => []
  | w :: ws => lower w ++ (ws.map capitalized).flatten

def isVowel (c : Char) : Bool := c = 'a' || c = 'e' || c = 'i' || c = 'o' || c = 'u'

def hisses (reversed : List Char) : Bool :=
  match reversed with
  | 'h' :: 's' :: _ | 'h' :: 'c' :: _ => true
  | 's' :: _ | 'x' :: _ | 'z' :: _ => true
  | _ => false

def pluralChars (word : List Char) : List Char :=
  match word.reverse with
  | [] => []
  | 'y' :: c :: before =>
    if isVowel c then word ++ ['s'] else (c :: before).reverse ++ ['i', 'e', 's']
  | reversed => if hisses reversed then word ++ ['e', 's'] else word ++ ['s']

def plural (word : String) : String := String.ofList (pluralChars word.toList)

/-- `BlogPost` is `blog_post`. -/
def snake (name : String) : String := String.ofList (snakeChars name.toList)

def title (name : String) : String := String.ofList (titleChars name.toList)

def className (name : String) : String := String.ofList (pascalChars name.toList)

/-- `BlogPost` is `blogPost`. -/
def singularVariable (name : String) : String := String.ofList (camelChars name.toList)

def pluralVariable (name : String) : String := plural (singularVariable name)

def pluralSnake (name : String) : String := plural (snake name)

def pluralTitle (name : String) : String := title (pluralSnake name)

def lowerCase (s : String) : String := String.ofList (lower s.toList)

end BladeForm.Name
