import EntityRelation.Outline

/-!
# Pages

An outline that is written line by line, at a level that goes up and down.
-/

namespace EntityRelation

/-- An outline in the making. -/
structure Page where
  /-- The level of the next line. -/
  level : Nat := 0
  /-- The lines so far. -/
  entries : List Entry := []
  deriving DecidableEq, Repr

namespace Page

/-- The next line is one level deeper. -/
def indent (p : Page) : Page := { p with level := p.level + 1 }

/-- The next line is one level higher. -/
def dedent (p : Page) : Page := { p with level := p.level - 1 }

/-- One more line at the level. -/
def write (p : Page) (text : String) : Page :=
  { p with entries := p.entries ++ [⟨p.level, text⟩] }

/-- One more empty line. -/
def blank (p : Page) : Page := p.write ""

/-- How many lines there are. -/
def mark (p : Page) : Nat := p.entries.length

/-- A line with text was written after the mark was taken. -/
def writtenSince (p : Page) (mark : Nat) : Bool := Outline.hasText (p.entries.drop mark)

/-- The lines as they are written out. -/
def lines (unit : String) (p : Page) : List String := Outline.lines unit p.entries

end Page

end EntityRelation
