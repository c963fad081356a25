/-!
# Doubles as whole numbers

A finite double is a sign, a mantissa below `2 ^ 53` and an exponent of two. A quotient of whole
numbers is rounded to the nearest double, and to the one with an even mantissa when it lies halfway
between two. All arithmetic is exact arithmetic on natural numbers followed by one rounding.
-/

namespace EntityRelation

/-- A finite double: `mantissa * 2 ^ exponent`, below zero if `negative`. The zero has a sign too. -/
structure Binary64 where
  /-- The sign is a minus. -/
  negative : Bool
  /-- The digits, below `2 ^ 53`. -/
  mantissa : Nat
  /-- The power of two, from `-1074` to `971`. -/
  exponent : Int
  deriving DecidableEq, Repr

namespace Binary64

/-- The least exponent of a double. -/
def minExponent : Int := -1074

/-- The greatest exponent of a double. -/
def maxExponent : Int := 971

/-- Zero with a sign. -/
def zero (negative : Bool) : Binary64 := ⟨negative, 0, minExponent⟩

/-- The same double with the other sign, if `flip`. -/
def negateIf (flip : Bool) (x : Binary64) : Binary64 := { x with negative := x.negative != flip }

/-- A quotient rounded to the nearest whole number, a half to the even one. -/
def divEven (num den : Nat) : Nat :=
  let q := num / den
  let r := num % den
  if 2 * r < den then q else if den < 2 * r then q + 1 else if q % 2 = 0 then q else q + 1

/-- `num / den / 2 ^ e` as a pair of whole numbers. -/
def scaled (num den : Nat) (e : Int) : Nat × Nat :=
  (num * Nat.pow 2 (-e).toNat, den * Nat.pow 2 e.toNat)

/-- The exponent at which the mantissa of `num / den` has 53 binary digits, or the least one. -/
def exponentOf (num den : Nat) : Int :=
  let e : Int := Int.ofNat num.log2 - Int.ofNat den.log2 - 52
  let (a, b) := scaled num den e
  max minExponent (if a < b * Nat.pow 2 52 then e - 1 else e)

/-- The double nearest to `num / den`, unless that is too large for a double. -/
def ofQuotient? (negative : Bool) (num den : Nat) : Option Binary64 :=
  if num = 0 then some (zero negative)
  else
    let e := exponentOf num den
    let (a, b) := scaled num den e
    let m := divEven a b
    let (m, e) := if m = Nat.pow 2 53 then (Nat.pow 2 52, e + 1) else (m, e)
    if maxExponent < e then none else some ⟨negative, m, e⟩

/-- The double nearest to `digits * 10 ^ power`, unless that is too large for a double. Powers far
outside the range of the doubles are answered without being computed. -/
def ofDecimal? (negative : Bool) (digits : Nat) (power : Int) : Option Binary64 :=
  if digits = 0 then some (zero negative)
  else if 400 < power then none
  else if power + digits.log2 < -400 then some (zero negative)
  else ofQuotient? negative (digits * Nat.pow 10 power.toNat) (Nat.pow 10 (-power).toNat)

/-- The absolute value as a quotient of whole numbers. -/
def quotient (x : Binary64) : Nat × Nat :=
  (x.mantissa * Nat.pow 2 x.exponent.toNat, Nat.pow 2 (-x.exponent).toNat)

/-- The double nearest to the product, unless that is too large for a double. -/
def mul? (x y : Binary64) : Option Binary64 :=
  let (a, b) := x.quotient
  let (c, d) := y.quotient
  ofQuotient? (x.negative != y.negative) (a * c) (b * d)

/-- The double nearest to the quotient, unless that is too large for a double or `y` is zero. -/
def div? (x y : Binary64) : Option Binary64 :=
  let (a, b) := x.quotient
  let (c, d) := y.quotient
  if c = 0 then none else ofQuotient? (x.negative != y.negative) (a * d) (b * c)

/-- The value is zero, of either sign. -/
def isZero (x : Binary64) : Bool := x.mantissa == 0

end Binary64

end EntityRelation
