import EntityRelation.Toml.Scalar
import EntityRelation.Toml.Table
import EntityRelation.Toml.Text

/-!
# Reading TOML

A document is a list of lines: headings, entries and comments. Entries before the first heading
belong to the document itself. Values may be lists, which may run over several lines, and inline
tables, which may not.
-/

namespace EntityRelation.Toml

/-- The text without the blanks at its start. -/
def skip (cs : List Char) : List Char := cs.dropWhile isSpace

/-- A character of a key without quotes. -/
def isKeyChar (c : Char) : Bool := c.isAlphanum || c == '_' || c == '-'

/-- One part of a key. -/
def keyPart? (cs : List Char) : Option (String × List Char) :=
  match cs with
  | '"' :: rest => (basic? rest.length.succ rest).map fun (s, r) => (String.ofList s, r)
  | '\'' :: rest => (literal? rest).map fun (s, r) => (String.ofList s, r)
  | _ =>
    match cs.takeWhile isKeyChar with
    | [] => none
    | s => some (String.ofList s, cs.dropWhile isKeyChar)

/-- The parts of a key, with dots between them, in at most `fuel` steps. -/
def keyParts? : Nat → List Char → Option (List String × List Char)
  | 0, _ => none
  | fuel + 1, cs => do
    let (part, rest) ← keyPart? (skip cs)
    match skip rest with
    | '.' :: rest =>
      let (parts, rest) ← keyParts? fuel rest
      some (part :: parts, rest)
    | rest => some ([part], rest)

/-- The key at the start, with the blanks around it. -/
def key? (cs : List Char) : Option (Key × List Char) := do
  let (parts, rest) ← keyParts? (cs.length + 1) cs
  let last ← parts.getLast?
  some (⟨parts.dropLast, last⟩, rest)

/-- What follows a comment at the start, from the end of its line on. -/
def skipComment? : List Char → Option (List Char)
  | '#' :: rest =>
    match rest.dropWhile isPrintable with
    | [] => some []
    | rest => if (newline? rest).isSome then some rest else none
  | cs => some cs

/-- The text without the blanks, comments and line ends at its start, in at most `fuel` steps. -/
def skipAll? : Nat → List Char → Option (List Char)
  | 0, _ => none
  | fuel + 1, cs =>
    match skipLines cs with
    | '#' :: rest => do
      let rest ← skipComment? ('#' :: rest)
      skipAll? fuel rest
    | rest => some rest

mutual

/-- The value at the start, in at most `fuel` steps. -/
def value? : Nat → List Char → Option (Tree × List Char)
  | 0, _ => none
  | fuel + 1, cs =>
    match cs with
    | '"' :: _ => (text? cs).map fun (s, rest) => (.text (String.ofList s), rest)
    | '\'' :: _ => (text? cs).map fun (s, rest) => (.text (String.ofList s), rest)
    | '[' :: rest => do
      let (ts, rest) ← items? fuel rest
      some (.list ts, rest)
    | '\x7b' :: rest =>
      match skip rest with
      | '\x7d' :: rest => some (.record [], rest)
      | rest => do
        let (fields, rest) ← pairs? fuel [] rest
        some (.record (fieldTrees fields), rest)
    | _ => do
      let token := scalarChars cs
      let t ← scalar? token
      some (t, cs.drop token.length)

/-- The items of a list up to its closing bracket. -/
def items? : Nat → List Char → Option (List Tree × List Char)
  | 0, _ => none
  | fuel + 1, cs => do
    match ← skipAll? (cs.length + 1) cs with
    | ']' :: rest => some ([], rest)
    | rest =>
      let (t, rest) ← value? fuel rest
      match ← skipAll? (rest.length + 1) rest with
      | ',' :: rest =>
        let (ts, rest) ← items? fuel rest
        some (t :: ts, rest)
      | ']' :: rest => some ([t], rest)
      | _ => none

/-- The entries of an inline table up to its closing brace, after the fields so far. -/
def pairs? : Nat → Fields → List Char → Option (Fields × List Char)
  | 0, _, _ => none
  | fuel + 1, fields, cs => do
    let (key, rest) ← key? cs
    let rest ← after? '=' rest
    let (t, rest) ← value? fuel (skip rest)
    let fields ← fields.insert key.path key.last t
    match skip rest with
    | ',' :: rest => pairs? fuel fields rest
    | '\x7d' :: rest => some (fields, rest)
    | _ => none

end

/-- What follows the end of a line: blanks, a comment, and a line end or the end of the text. -/
def endLine? (cs : List Char) : Option (List Char) := do
  match ← skipComment? (skip cs) with
  | [] => some []
  | rest => newline? rest

/-- The entry at the start of a line, and what follows its line. -/
def entry? (cs : List Char) : Option (Entry × List Char) := do
  let (key, rest) ← key? cs
  let rest ← after? '=' rest
  let rest := skip rest
  let (t, rest) ← value? (rest.length + 1) rest
  let rest ← endLine? rest
  some (⟨key, t⟩, rest)

/-- The heading after its opening brackets, and what follows its line. -/
def heading? (cs : List Char) : Option (Heading × List Char) :=
  match cs with
  | '[' :: rest => do
    let (key, rest) ← key? rest
    let rest ← after? ']' rest
    let rest ← after? ']' rest
    let rest ← endLine? rest
    some (⟨true, key⟩, rest)
  | _ => do
    let (key, rest) ← key? cs
    let rest ← after? ']' rest
    let rest ← endLine? rest
    some (⟨false, key⟩, rest)

/-- The entries up to the next heading or the end, in at most `fuel` steps. -/
def entries? : Nat → List Char → Option (List Entry × List Char)
  | 0, _ => none
  | fuel + 1, cs => do
    match ← skipAll? (cs.length + 1) cs with
    | [] => some ([], [])
    | '[' :: rest => some ([], '[' :: rest)
    | rest =>
      let (e, rest) ← entry? rest
      let (es, rest) ← entries? fuel rest
      some (e :: es, rest)

/-- The fields with all headings after them, in at most `fuel` steps. -/
def sections? : Nat → Fields → List Char → Option Fields
  | 0, _, _ => none
  | fuel + 1, fields, cs =>
    match cs with
    | '[' :: rest => do
      let (h, rest) ← heading? rest
      let (entries, rest) ← entries? (rest.length + 1) rest
      let fields ← fields.addSection h entries
      sections? fuel fields rest
    | _ => some fields

/-- The tree of a TOML text. A byte order mark in front does not count. -/
def parse? (s : String) : Option Tree := do
  let cs := match s.toList with
    | '\uFEFF' :: rest => rest
    | cs => cs
  let (entries, rest) ← entries? (cs.length + 1) cs
  let fields ← Fields.insertAll [] entries
  let fields ← sections? (rest.length + 1) fields rest
  some (.record (fieldTrees fields))

end EntityRelation.Toml
