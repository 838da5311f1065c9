/-!
# Records in text

Structured values are shown as `Name { first: 1, second: 2 }`, wrapped values as
`Name(1)` and sequences as `[1, 2]`.
-/

namespace MicrokernelIpc.Text

/-- Several texts with a comma and a blank between neighbours. -/
def commaSeparated (items : List String) : String := ", ".intercalate items

/-- A record: its name and its fields in order, in braces. -/
def record (name : String) (fields : List (String × String)) : String :=
  name ++ " \x7b " ++ commaSeparated (fields.map fun field => field.1 ++ ": " ++ field.2) ++ " \x7d"

/-- A value under a name, in parentheses. -/
def wrapped (name value : String) : String := name ++ "(" ++ value ++ ")"

/-- A sequence in square brackets. -/
def sequence (items : List String) : String := "[" ++ commaSeparated items ++ "]"

end MicrokernelIpc.Text
