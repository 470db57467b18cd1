import ReaderWriter.Text.Quoted

/-!
# Structured values as text

A value with named fields is written as its name and, between braces, each field behind its name.
-/

namespace ReaderWriter.Text

/-- The text of a value with named fields, whose own texts are given. -/
def structured (name : String) (fields : List (String × String)) : String :=
  if fields.isEmpty then name
  else
    name ++ " \x7b " ++ ", ".intercalate (fields.map fun (field, text) => field ++ ": " ++ text)
      ++ " \x7d"

def optional : Option String → String
  | none => "None"
  | some text => "Some(" ++ text ++ ")"

end ReaderWriter.Text
