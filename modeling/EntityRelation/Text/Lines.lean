/-!
# Lines of a text

A line ends at a line feed, and a carriage return just before the line feed belongs to the end of
the line. What follows the last line feed is a line too, unless it is empty.
-/

namespace EntityRelation.Text

/-- The lines of a text, without their ends. -/
def linesOf : List Char → List (List Char)
  | [] => []
  | '\n' :: rest => [] :: linesOf rest
  | '\r' :: '\n' :: rest => [] :: linesOf rest
  | c :: rest =>
    match linesOf rest with
    | [] => [[c]]
    | line :: more => (c :: line) :: more

/-- The lines of a text, without their ends. -/
def lines (s : String) : List String := (linesOf s.toList).map String.ofList

end EntityRelation.Text
