import EntityRelation.Number

/-!
# Trees of data

What is left of a document when its format is read away: scalars, lists and records with fields in
the order of the document. A format in which the meaning of a bare word hangs on the field it
stands in leaves the word as it is, and the mark that says what it is beside it. A list may be one
that also stands for a record, whose fields it then holds in their order.
-/

namespace EntityRelation

/-- What a mark says of a scalar. -/
inductive Mark where
  /-- It is nothing. -/
  | nothing
  /-- It is a truth value. -/
  | truth
  /-- It is a whole number. -/
  | whole
  /-- It is a double. -/
  | real
  /-- It is a text. -/
  | text
  /-- It is something of its own. -/
  | foreign
  deriving DecidableEq, Repr

/-- A tree of data. -/
inductive Tree where
  /-- Nothing. -/
  | null
  /-- A truth value. -/
  | bool (value : Bool)
  /-- A number. -/
  | number (value : Number)
  /-- A text. -/
  | text (value : String)
  /-- A bare word, to be read as whatever its place asks for. -/
  | word (source : String)
  /-- A well-formed scalar that stands for no value, such as a number beyond all doubles. -/
  | invalid
  /-- A list. -/
  | list (items : List Tree)
  /-- A list that may also be read as the fields of a record. -/
  | tuple (items : List Tree)
  /-- A record. -/
  | record (fields : List (String × Tree))
  /-- A tree with a mark. The mark only counts where the place does not ask for something itself. -/
  | marked (mark : Mark) (tree : Tree)
  deriving Repr

end EntityRelation
