/-!
# Outlines

Text by lines, each with a level of indentation. What a level is indented by is settled only when
the lines are written out; an empty line is never indented.
-/

namespace EntityRelation

/-- A line and its level. -/
structure Entry where
  /-- The level. -/
  level : Nat
  /-- The text, without indentation. -/
  text : String
  deriving DecidableEq, Repr

namespace Entry

/-- The line as it is written out. -/
def line (unit : String) (e : Entry) : String :=
  if e.text.isEmpty then "" else String.join (List.replicate e.level unit) ++ e.text

/-- The line one level deeper. -/
def deeper (e : Entry) : Entry := { e with level := e.level + 1 }

end Entry

namespace Outline

/-- One line. -/
def line (text : String) : List Entry := [⟨0, text⟩]

/-- Empty lines. -/
def blanks (n : Nat) : List Entry := List.replicate n ⟨0, ""⟩

/-- The lines one level deeper. -/
def deeper (entries : List Entry) : List Entry := entries.map Entry.deeper

/-- A heading with lines below it. -/
def block (heading : String) (body : List Entry) : List Entry := line heading ++ deeper body

/-- Some line has text. -/
def hasText (entries : List Entry) : Bool := entries.any fun e => !e.text.isEmpty

/-- The lines as they are written out. -/
def lines (unit : String) (entries : List Entry) : List String := entries.map (Entry.line unit)

end Outline

end EntityRelation
