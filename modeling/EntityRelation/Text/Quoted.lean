/-!
# Quoted literals

A value in single quotes. Inside the quotes a backslash stands before every backslash and every
quote of the value, and nowhere else.
-/

namespace EntityRelation.Text.Quoted

/-- The characters of a value as they stand between the quotes. -/
def escape : List Char → List Char
  | [] => []
  | c :: rest => if c = '\\' ∨ c = '\'' then '\\' :: c :: escape rest else c :: escape rest

/-- The value as a literal in single quotes. -/
def literal (s : String) : String := String.ofList ('\'' :: escape s.toList ++ ['\''])

end EntityRelation.Text.Quoted
