/-!
# Blank characters

The characters of the Unicode property White_Space, and what is left of a text without the blank
characters at its two ends. A text *has text* when something is left.
-/

namespace EntityRelation.Text

/-- The blank characters: Unicode White_Space. -/
def isBlank (c : Char) : Bool :=
  let n := c.toNat
  (0x09 ≤ n && n ≤ 0x0D) || n == 0x20 || n == 0x85 || n == 0xA0 || n == 0x1680 ||
  (0x2000 ≤ n && n ≤ 0x200A) || n == 0x2028 || n == 0x2029 || n == 0x202F || n == 0x205F ||
  n == 0x3000

/-- The characters without the blank ones at the end. -/
def dropBlankEnd (cs : List Char) : List Char := (cs.reverse.dropWhile isBlank).reverse

/-- The characters without the blank ones at either end. -/
def trimChars (cs : List Char) : List Char := dropBlankEnd (cs.dropWhile isBlank)

/-- The text without the blank characters at either end. -/
def trim (s : String) : String := String.ofList (trimChars s.toList)

/-- Something is left of the text when it is trimmed. -/
def hasText (s : String) : Bool := s.toList.any fun c => !isBlank c

/-- The trimmed text, if something is left. -/
def trim? (s : String) : Option String := if hasText s then some (trim s) else none

end EntityRelation.Text
