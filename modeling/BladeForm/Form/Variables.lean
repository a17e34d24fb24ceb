import BladeForm.Field.Basic

/-!
The variables a controller passes to the form: the record, then the collection of every
relation on the form. `passed` writes them as arguments of `compact`.
-/
namespace BladeForm.Variables

def quoted (name : String) : String := "'" ++ name ++ "'"

def passed (names : List String) : String := ",".intercalate (names.map quoted)

/-- A blank record name passes the collections alone. -/
def build (record : String) (relations : List Relation) : String :=
  passed ((if record = "" then [] else [record]) ++ relations.map Relation.collectionName)

def ofFields (fields : List Field) (record : String) : String :=
  build record (relationsOn fields .form)

end BladeForm.Variables
