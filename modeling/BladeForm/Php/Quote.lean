/-!
Single-quoted PHP text: a backslash stands before each quote and each backslash, and before
nothing else. Reading undoes exactly these two escapes.
-/
namespace BladeForm.Php

def escape : List Char → List Char
  | [] => []
  | c :: cs => if c = '\\' || c = '\'' then '\\' :: c :: escape cs else c :: escape cs

/-- A backslash before anything else stands for itself. -/
def unescape : List Char → List Char
  | '\\' :: c :: cs =>
    if c = '\\' || c = '\'' then c :: unescape cs else '\\' :: unescape (c :: cs)
  | c :: cs => c :: unescape cs
  | [] => []

def quote (s : String) : String := "'" ++ String.ofList (escape s.toList) ++ "'"

end BladeForm.Php
