import EntityRelation.Json.Text

/-!
# Texts in TOML

Texts stand between double quotes, with escapes, or between single quotes, as they are; three
quotes of either kind enclose a text of several lines. A line feed right after the three quotes is
not part of the text, and a backslash at the end of a line takes the blanks and line ends after it
away.
-/

namespace EntityRelation.Toml

/-- A character that may stand in a text or a comment. -/
def isPrintable (c : Char) : Bool := c == '\t' || (0x20 ≤ c.toNat && c.toNat ≠ 0x7F)

/-- A blank within a line. -/
def isSpace (c : Char) : Bool := c == ' ' || c == '\t'

/-- The character with a code point. -/
def charOf? (n : Nat) : Option Char := if n.isValidChar then some (Char.ofNat n) else none

/-- The character after a backslash stands for this one. -/
def escaped? (c : Char) : Option Char :=
  match c with
  | 'b' => some '\x08'
  | 't' => some '\t'
  | 'n' => some '\n'
  | 'f' => some '\x0c'
  | 'r' => some '\r'
  | '"' => some '"'
  | '\\' => some '\\'
  | _ => none

/-- The character of the escape after a backslash, and what follows it. -/
def escape? : List Char → Option (Char × List Char)
  | 'u' :: a :: b :: c :: d :: rest =>
    ((Json.hex? [a, b, c, d]).bind charOf?).map fun x => (x, rest)
  | 'U' :: a :: b :: c :: d :: e :: f :: g :: h :: rest =>
    ((Json.hex? [a, b, c, d, e, f, g, h]).bind charOf?).map fun x => (x, rest)
  | c :: rest => (escaped? c).map fun x => (x, rest)
  | [] => none

/-- What follows the end of the line, if the text starts with one. -/
def newline? : List Char → Option (List Char)
  | '\n' :: rest => some rest
  | '\r' :: '\n' :: rest => some rest
  | _ => none

/-- The text without the blanks and line ends at its start. -/
def skipLines : List Char → List Char
  | '\n' :: rest => skipLines rest
  | '\r' :: '\n' :: rest => skipLines rest
  | c :: rest => if isSpace c then skipLines rest else c :: rest
  | [] => []

/-- The text without the line end at its start. -/
def dropNewline (cs : List Char) : List Char := (newline? cs).getD cs

/-- A text up to its closing double quote, in at most `fuel` steps. -/
def basic? : Nat → List Char → Option (List Char × List Char)
  | 0, _ => none
  | fuel + 1, cs =>
    match cs with
    | '"' :: rest => some ([], rest)
    | '\\' :: rest => do
      let (c, rest) ← escape? rest
      let (s, rest) ← basic? fuel rest
      some (c :: s, rest)
    | c :: rest => do
      if !isPrintable c then none
      let (s, rest) ← basic? fuel rest
      some (c :: s, rest)
    | [] => none

/-- A text up to its closing single quote. -/
def literal? : List Char → Option (List Char × List Char)
  | '\'' :: rest => some ([], rest)
  | c :: rest => do
    if !isPrintable c then none
    let (s, rest) ← literal? rest
    some (c :: s, rest)
  | [] => none

/-- The text after a run of quotes within three quotes: up to two of the quotes are part of the
text, and three or more close it. The answer says how many are part of the text and whether it
goes on. -/
def quoteRun (q : Char) (cs : List Char) : Nat × Bool × List Char :=
  let n := min (cs.takeWhile (· == q)).length 5
  if n < 3 then (n, true, cs.drop n) else (n - 3, false, cs.drop n)

/-- A text of several lines up to its closing three double quotes, in at most `fuel` steps. -/
def multiBasic? : Nat → List Char → Option (List Char × List Char)
  | 0, _ => none
  | fuel + 1, cs =>
    match cs with
    | '"' :: _ =>
      match quoteRun '"' cs with
      | (n, false, rest) => some (List.replicate n '"', rest)
      | (n, true, rest) => do
        let (s, rest) ← multiBasic? fuel rest
        some (List.replicate n '"' ++ s, rest)
    | '\\' :: rest =>
      match newline? (rest.dropWhile isSpace) with
      | some rest => multiBasic? fuel (skipLines rest)
      | none => do
        let (c, rest) ← escape? rest
        let (s, rest) ← multiBasic? fuel rest
        some (c :: s, rest)
    | c :: rest => do
      let (c, rest) ← match newline? cs with
        | some rest => some ('\n', rest)
        | none => if isPrintable c then some (c, rest) else none
      let (s, rest) ← multiBasic? fuel rest
      some (c :: s, rest)
    | [] => none

/-- A text of several lines up to its closing three single quotes, in at most `fuel` steps. -/
def multiLiteral? : Nat → List Char → Option (List Char × List Char)
  | 0, _ => none
  | fuel + 1, cs =>
    match cs with
    | '\'' :: _ =>
      match quoteRun '\'' cs with
      | (n, false, rest) => some (List.replicate n '\'', rest)
      | (n, true, rest) => do
        let (s, rest) ← multiLiteral? fuel rest
        some (List.replicate n '\'' ++ s, rest)
    | c :: rest => do
      let (c, rest) ← match newline? cs with
        | some rest => some ('\n', rest)
        | none => if isPrintable c then some (c, rest) else none
      let (s, rest) ← multiLiteral? fuel rest
      some (c :: s, rest)
    | [] => none

/-- The text in quotes of any kind at the start. -/
def text? (cs : List Char) : Option (List Char × List Char) :=
  let fuel := cs.length
  match cs with
  | '"' :: '"' :: '"' :: rest => multiBasic? fuel (dropNewline rest)
  | '"' :: rest => basic? fuel rest
  | '\'' :: '\'' :: '\'' :: rest => multiLiteral? fuel (dropNewline rest)
  | '\'' :: rest => literal? rest
  | _ => none

end EntityRelation.Toml
