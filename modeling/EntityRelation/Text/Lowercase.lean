import EntityRelation.Text.LetterCase

/-!
# Lower case

Every character goes to its lower-case form by the Unicode tables. Two characters are special. A
capital I with a dot becomes an `i` and a combining dot. A capital sigma becomes the final sigma
at the end of a word, which is where a cased letter stands before it and none after it when the
case-ignorable characters between are passed over.
-/

namespace EntityRelation.Text

/-- The code point lies in one of the runs. -/
def inRuns (runs : List (Nat × Nat)) (n : Nat) : Bool := runs.any fun r => r.1 ≤ n && n ≤ r.2

/-- The character has a letter case. -/
def isCased (c : Char) : Bool := inRuns LetterCase.casedRuns c.toNat

/-- The character is passed over when the neighbours of a letter are looked for. -/
def isCaseIgnorable (c : Char) : Bool := inRuns LetterCase.ignorableRuns c.toNat

/-- The row holds the code point. -/
def LetterCase.Row.holds (r : LetterCase.Row) (n : Nat) : Bool :=
  r.first ≤ n && n ≤ r.last && (n - r.first) % r.step == 0

/-- The lower-case form of a character by itself. -/
def lowerChar (c : Char) : List Char :=
  if c.toNat < 0x80 then [c.toLower]
  else if c = 'İ' then ['i', '\u0307']
  else match LetterCase.lowerRows.find? (·.holds c.toNat) with
    | some r => [Char.ofNat (r.lower + (c.toNat - r.first))]
    | none => [c]

/-- The next character that is not case-ignorable is a cased letter. -/
def meetsCased (cs : List Char) : Bool :=
  match cs.dropWhile isCaseIgnorable with
  | c :: _ => isCased c
  | [] => false

/-- The lower-case form of a text that follows `before`, which is given in reverse. -/
def lowerAfter (before : List Char) : List Char → List Char
  | [] => []
  | c :: rest =>
    (if c = 'Σ' then [if meetsCased before && !meetsCased rest then 'ς' else 'σ'] else lowerChar c)
      ++ lowerAfter (c :: before) rest

/-- The text in lower case. -/
def lower (s : String) : String := String.ofList (lowerAfter [] s.toList)

end EntityRelation.Text
