/-!
The text of a value with named fields, on one line or as a block of lines.
-/

namespace SharedNames.Text

/-- The name of a kind of value, and the texts of its fields by their names. -/
structure Fields where
  name : String
  fields : List (String × String)

namespace Fields

def entry (field : String × String) : String :=
  field.1 ++ ": " ++ field.2

def inline (value : Fields) : String :=
  value.name ++ " \x7b " ++ ", ".intercalate (value.fields.map entry) ++ " \x7d"

def block (value : Fields) : String :=
  value.name ++ " \x7b\n" ++
    String.join (value.fields.map fun field => "    " ++ entry field ++ ",\n") ++ "\x7d"

end Fields

end SharedNames.Text
