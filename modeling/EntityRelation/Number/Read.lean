import EntityRelation.Number

/-!
# Reading numbers

Whole numbers in a base, and decimals with a fraction and a power of ten, as several formats write
them.
-/

namespace EntityRelation.Number

/-- The value of a digit or letter as a digit. -/
def digitValue? (c : Char) : Option Nat :=
  if '0' ≤ c ∧ c ≤ '9' then some (c.toNat - 48)
  else if 'a' ≤ c ∧ c ≤ 'z' then some (c.toNat - 87)
  else if 'A' ≤ c ∧ c ≤ 'Z' then some (c.toNat - 55)
  else none

/-- The value of digits in a base, after those that make `value`. -/
def readDigits? (base value : Nat) : List Char → Option Nat
  | [] => some value
  | c :: rest => do
    let d ← digitValue? c
    if d < base then readDigits? base (value * base + d) rest else none

/-- The value of one digit or more in a base. -/
def natural? (base : Nat) (cs : List Char) : Option Nat :=
  if cs.isEmpty then none else readDigits? base 0 cs

/-- The sign before a number, and the rest. -/
def splitSign : List Char → Bool × List Char
  | '-' :: rest => (true, rest)
  | '+' :: rest => (false, rest)
  | cs => (false, cs)

/-- The power of ten after the digits of a decimal: nothing, or a letter `e` and a signed whole
number. -/
def exponent? : List Char → Option Int
  | [] => some 0
  | c :: rest =>
    if c = 'e' ∨ c = 'E' then
      let (negative, ds) := splitSign rest
      (natural? 10 ds).map fun n => if negative then -Int.ofNat n else Int.ofNat n
    else none

/-- The double nearest to a decimal in text: a sign, digits with a point among them or at one end,
and a power of ten. The answer is `none` when the text is no decimal, and `some none` when it is too
large for a double. -/
def decimal? (cs : List Char) : Option (Option Binary64) := do
  let (negative, cs) := splitSign cs
  let front := cs.takeWhile Char.isDigit
  let rest := cs.dropWhile Char.isDigit
  let (back, rest) := match rest with
    | '.' :: r => (r.takeWhile Char.isDigit, r.dropWhile Char.isDigit)
    | r => ([], r)
  let value ← natural? 10 (front ++ back)
  let power ← exponent? rest
  some (Binary64.ofDecimal? negative value (power - back.length))

end EntityRelation.Number
