/-!
# Texts in JSON

What stands between two double quotes: characters other than control characters, and escapes. An
escape may give a unit of UTF-16; two units that make up one character become that character, and
a text with any other half of a pair stands for no value.
-/

namespace EntityRelation.Json

/-- A piece of a quoted text. -/
inductive Piece where
  /-- A character. -/
  | char (c : Char)
  /-- A unit of UTF-16. -/
  | unit (n : Nat)

/-- The value of a hexadecimal digit. -/
def hexDigit? (c : Char) : Option Nat :=
  if '0' ≤ c ∧ c ≤ '9' then some (c.toNat - 48)
  else if 'a' ≤ c ∧ c ≤ 'f' then some (c.toNat - 87)
  else if 'A' ≤ c ∧ c ≤ 'F' then some (c.toNat - 55)
  else none

/-- The value of hexadecimal digits. -/
def hex? (cs : List Char) : Option Nat :=
  cs.foldlM (fun n c => (hexDigit? c).map fun d => n * 16 + d) 0

/-- The character after a backslash stands for this one. -/
def escaped? (c : Char) : Option Char :=
  match c with
  | '"' => some '"'
  | '\\' => some '\\'
  | '/' => some '/'
  | 'b' => some '\x08'
  | 'f' => some '\x0c'
  | 'n' => some '\n'
  | 'r' => some '\r'
  | 't' => some '\t'
  | _ => none

/-- The pieces up to the closing quote, and what follows the quote. -/
def pieces? : List Char → Option (List Piece × List Char)
  | [] => none
  | '"' :: rest => some ([], rest)
  | '\\' :: 'u' :: a :: b :: c :: d :: rest => do
    let n ← hex? [a, b, c, d]
    let (ps, rest) ← pieces? rest
    some (.unit n :: ps, rest)
  | '\\' :: c :: rest => do
    let c ← escaped? c
    let (ps, rest) ← pieces? rest
    some (.char c :: ps, rest)
  | c :: rest => do
    if c.toNat < 0x20 then none
    let (ps, rest) ← pieces? rest
    some (.char c :: ps, rest)

/-- The unit is the first half of a pair. -/
def isHigh (n : Nat) : Bool := 0xD800 ≤ n && n < 0xDC00

/-- The unit is the second half of a pair. -/
def isLow (n : Nat) : Bool := 0xDC00 ≤ n && n < 0xE000

/-- The characters that the pieces make up, if no half of a pair stands alone. -/
def join? : List Piece → Option (List Char)
  | [] => some []
  | .char c :: rest => (join? rest).map (c :: ·)
  | .unit h :: .unit l :: rest =>
    if isHigh h ∧ isLow l then
      (join? rest).map (Char.ofNat (0x10000 + (h - 0xD800) * 0x400 + (l - 0xDC00)) :: ·)
    else if isHigh h ∨ isLow h then none
    else (join? (.unit l :: rest)).map (Char.ofNat h :: ·)
  | .unit n :: rest => if isHigh n ∨ isLow n then none else (join? rest).map (Char.ofNat n :: ·)

end EntityRelation.Json
