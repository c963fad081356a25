import EntityRelation.Diagram
import EntityRelation.Text.Blank
import EntityRelation.Text.Lines
import EntityRelation.Text.Quoted

/-!
# Field calls

A field of a table class is a call of a field class with arguments. An argument whose keyword is
empty is positional. A tag becomes an argument whose value is an expression: a text in quotes on
one line, a number, a truth value, or the name of an element as it is.
-/

namespace EntityRelation

/-- An argument of a call. -/
inductive Argument where
  /-- A value by its place. -/
  | positional (value : String)
  /-- A value by a keyword. -/
  | keyword (key value : String)
  deriving DecidableEq, Repr

namespace Argument

/-- An argument with a keyword, or without one if the keyword is empty. -/
def named (key value : String) : Argument :=
  if key.isEmpty then .positional value else .keyword key value

/-- The keyword, empty for a positional argument. -/
def key : Argument → String
  | positional _ => ""
  | keyword key _ => key

/-- The value. -/
def value : Argument → String
  | positional value => value
  | keyword _ value => value

/-- The argument as it stands in a call. -/
def text : Argument → String
  | positional value => value
  | keyword key value => key ++ "=" ++ value

end Argument

/-- A call of a field class. -/
structure FieldCall where
  /-- The field class. -/
  callee : String
  /-- The arguments in their order. -/
  arguments : List Argument := []
  deriving DecidableEq, Repr

namespace FieldCall

/-- The call with one more argument. -/
def add (f : FieldCall) (a : Argument) : FieldCall := { f with arguments := f.arguments ++ [a] }

/-- The call as it is written. -/
def text (f : FieldCall) : String :=
  f.callee ++ "(" ++ ", ".intercalate (f.arguments.map Argument.text) ++ ")"

end FieldCall

/-- A truth value as an expression. -/
def boolLiteral (b : Bool) : String := if b then "True" else "False"

/-- The value of a tag as an expression. The lines of a text are joined with commas. -/
def TagValue.expression : TagValue → String
  | .text s => Text.Quoted.literal (",".intercalate (Text.lines (Text.trim s)))
  | .number n => n.text
  | .flag b => boolLiteral b
  | .element name => name

/-- The argument that a tag becomes. -/
def Tag.argument (t : Tag) : Argument := .named t.name t.value.expression

end EntityRelation
