import EntityRelation.Json.Number
import EntityRelation.Json.Text

/-!
# Reading JSON

One value, with blanks before and after it and nothing else. Lists are tuples, since a list may
stand for a record. Fields that are given twice are all kept.
-/

namespace EntityRelation.Json

/-- The characters between the parts of a value. -/
def isSpace (c : Char) : Bool := c == ' ' || c == '\n' || c == '\t' || c == '\r'

/-- The text without the blanks at its start. -/
def skip (cs : List Char) : List Char := cs.dropWhile isSpace

/-- The quoted text after the opening quote: its characters, unless it stands for no value. -/
def quoted? (cs : List Char) : Option (Option String × List Char) :=
  (pieces? cs).map fun (ps, rest) => ((join? ps).map String.ofList, rest)

mutual

/-- The value at the start of the text, in at most `fuel` steps. -/
def value? : Nat → List Char → Option (Tree × List Char)
  | 0, _ => none
  | fuel + 1, cs =>
    match cs with
    | 'n' :: 'u' :: 'l' :: 'l' :: rest => some (.null, rest)
    | 't' :: 'r' :: 'u' :: 'e' :: rest => some (.bool true, rest)
    | 'f' :: 'a' :: 'l' :: 's' :: 'e' :: rest => some (.bool false, rest)
    | '"' :: rest => do
      let (s, rest) ← quoted? rest
      some (s.elim .invalid .text, rest)
    | '[' :: rest =>
      match skip rest with
      | ']' :: rest => some (.tuple [], rest)
      | rest => do
        let (ts, rest) ← items? fuel rest
        some (.tuple ts, rest)
    | '\x7b' :: rest =>
      match skip rest with
      | '\x7d' :: rest => some (.record [], rest)
      | rest => do
        let (fs, rest) ← fields? fuel rest
        some (.record fs, rest)
    | cs => number? cs

/-- The items of a list up to its closing bracket. -/
def items? : Nat → List Char → Option (List Tree × List Char)
  | 0, _ => none
  | fuel + 1, cs => do
    let (t, rest) ← value? fuel (skip cs)
    match skip rest with
    | ']' :: rest => some ([t], rest)
    | ',' :: rest =>
      let (ts, rest) ← items? fuel rest
      some (t :: ts, rest)
    | _ => none

/-- The fields of a record up to its closing brace. -/
def fields? : Nat → List Char → Option (List (String × Tree) × List Char)
  | 0, _ => none
  | fuel + 1, cs => do
    match skip cs with
    | '"' :: rest =>
      let (name, rest) ← quoted? rest
      let name ← name
      match skip rest with
      | ':' :: rest =>
        let (t, rest) ← value? fuel (skip rest)
        match skip rest with
        | '\x7d' :: rest => some ([(name, t)], rest)
        | ',' :: rest =>
          let (fs, rest) ← fields? fuel rest
          some ((name, t) :: fs, rest)
        | _ => none
      | _ => none
    | _ => none

end

/-- The tree of a JSON text. Every step takes a character, so the length of the text is fuel
enough. -/
def parse? (s : String) : Option Tree := do
  let cs := s.toList
  let (t, rest) ← value? (cs.length + 1) (skip cs)
  if (skip rest).isEmpty then some t else none

end EntityRelation.Json
