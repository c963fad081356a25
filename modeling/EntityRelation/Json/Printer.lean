import EntityRelation.Tree
import EntityRelation.Json.Text

/-!
# Printing JSON

A tree as JSON text on one line. Control characters, quotes and backslashes are escaped, and so
are the three characters beyond ASCII that end lines.
-/

namespace EntityRelation.Json

/-- A hexadecimal digit. -/
def hexDigit (n : Nat) : Char := Nat.digitChar (n % 16)

/-- A character as the escape of its code point, which has at most four digits. -/
def escapeCode (c : Char) : List Char :=
  let n := c.toNat
  ['\\', 'u', hexDigit (n / 4096), hexDigit (n / 256), hexDigit (n / 16), hexDigit n]

/-- A character as it stands between the quotes. -/
def escapeChar (c : Char) : List Char :=
  if c = '"' then ['\\', '"']
  else if c = '\\' then ['\\', '\\']
  else if c = '\n' then ['\\', 'n']
  else if c = '\r' then ['\\', 'r']
  else if c = '\t' then ['\\', 't']
  else if c.toNat < 0x20 ∨ c.toNat = 0x85 ∨ c.toNat = 0x2028 ∨ c.toNat = 0x2029 then escapeCode c
  else [c]

/-- A text in quotes. -/
def quote (s : String) : String :=
  String.ofList ('"' :: s.toList.flatMap escapeChar ++ ['"'])

/-- Texts with a comma between each two. -/
def commas (parts : List String) : String := ",".intercalate parts

mutual

/-- A tree as JSON text. A bare word is written as a text, what stands for no value as `null`, and
marks are left out. -/
def render : Tree → String
  | .null => "null"
  | .bool true => "true"
  | .bool false => "false"
  | .number n => n.text
  | .text s => quote s
  | .word s => quote s
  | .invalid => "null"
  | .list ts => "[" ++ commas (renderItems ts) ++ "]"
  | .tuple ts => "[" ++ commas (renderItems ts) ++ "]"
  | .record fs => "\x7b" ++ commas (renderFields fs) ++ "\x7d"
  | .marked _ t => render t

/-- The trees of a list, each as JSON text. -/
def renderItems : List Tree → List String
  | [] => []
  | t :: ts => render t :: renderItems ts

/-- The fields of a record, each as JSON text. -/
def renderFields : List (String × Tree) → List String
  | [] => []
  | f :: fs => (quote f.1 ++ ":" ++ render f.2) :: renderFields fs

end

end EntityRelation.Json
