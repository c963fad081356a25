/-!
# Places in a text

The rest of a text and the line and column where it starts. Lines end at a line feed or at one of
the two Unicode separators; the other ways to end a line have been turned into line feeds before.
-/

namespace EntityRelation.Yaml

/-- The character ends a line. -/
def isBreak (c : Char) : Bool := c == '\n' || c == '\u2028' || c == '\u2029'

/-- The character is a blank within a line. -/
def isBlank (c : Char) : Bool := c == ' ' || c == '\t'

/-- The text is at its end or starts with a blank or a line end. -/
def atGap : List Char → Bool
  | [] => true
  | c :: _ => isBlank c || isBreak c

/-- A place in a text. -/
structure Cursor where
  /-- What follows. -/
  rest : List Char
  /-- The number of characters before it. -/
  index : Nat := 0
  /-- The number of lines before it. -/
  line : Nat := 0
  /-- The number of characters before it on its line. -/
  column : Nat := 0

namespace Cursor

/-- The place after the next character. -/
def skip (c : Cursor) : Cursor :=
  match c.rest with
  | [] => c
  | x :: rest =>
    if isBreak x then ⟨rest, c.index + 1, c.line + 1, 0⟩
    else ⟨rest, c.index + 1, c.line, c.column + 1⟩

/-- The place after some characters of the line. -/
def advance (c : Cursor) (n : Nat) : Cursor :=
  { c with rest := c.rest.drop n, index := c.index + n, column := c.column + n }

/-- The characters of the line that satisfy a condition, and the place after them. -/
def takeWhile (c : Cursor) (p : Char → Bool) : List Char × Cursor :=
  let cs := c.rest.takeWhile fun x => p x && !isBreak x
  (cs, c.advance cs.length)

/-- The place after the characters of the line that satisfy a condition. -/
def skipWhile (c : Cursor) (p : Char → Bool) : Cursor := (c.takeWhile p).2

/-- The place after a comment that may stand here. -/
def skipComment (c : Cursor) : Cursor :=
  match c.rest with
  | '#' :: _ => c.skipWhile fun _ => true
  | _ => c

/-- Three equal characters and a gap stand at the start of the line. -/
def atMarker (c : Cursor) (x : Char) : Bool :=
  c.column == 0 && c.rest.take 3 == [x, x, x] && atGap (c.rest.drop 3)

/-- A line that begins or ends a document starts here. -/
def atDocumentMarker (c : Cursor) : Bool := c.atMarker '-' || c.atMarker '.'

end Cursor

end EntityRelation.Yaml
