import EntityRelation.Number.Binary64

/-!
# Shortest decimal digits

The fewest decimal digits that read back as a given double. The numbers that round to a double
form an interval, which holds its ends when the mantissa is even. For one digit, two digits and so
on, the two neighbours of the double among the decimals with so many digits are tried; the first
number of digits with a neighbour inside the interval wins, and of two neighbours inside it the
nearer one, or the one with an even last digit when they are equally near.
-/

namespace EntityRelation.Number

/-- A decimal `digits * 10 ^ power`. -/
structure Decimal where
  /-- The digits, read as a whole number. -/
  digits : Nat
  /-- The power of ten of the last digit. -/
  power : Int
  deriving DecidableEq, Repr

/-- The digits of the decimal without the zeros at the end. -/
def Decimal.strip : Nat → Decimal → Decimal
  | 0, d => d
  | n + 1, d => if d.digits ≠ 0 ∧ d.digits % 10 = 0 then strip n ⟨d.digits / 10, d.power + 1⟩ else d

/-- The numbers that round to a double, as numerators over one denominator. -/
structure Interval where
  /-- The lower end. -/
  low : Nat
  /-- The double itself. -/
  mid : Nat
  /-- The upper end. -/
  high : Nat
  /-- What the three are divided by. -/
  den : Nat
  /-- The ends belong to the interval. -/
  closed : Bool

/-- The interval of a double other than zero. Below a power of two the next double is nearer. -/
def Interval.ofBinary64 (x : Binary64) : Interval :=
  let narrow := x.mantissa == Nat.pow 2 52 && x.exponent != Binary64.minExponent
  let up := Nat.pow 2 x.exponent.toNat
  { low := (4 * x.mantissa - (if narrow then 1 else 2)) * up
    mid := 4 * x.mantissa * up
    high := (4 * x.mantissa + 2) * up
    den := 4 * Nat.pow 2 (-x.exponent).toNat
    closed := x.mantissa % 2 == 0 }

/-- The decimal lies in the interval. -/
def Interval.holds (i : Interval) (d : Decimal) : Bool :=
  let n := d.digits * Nat.pow 10 d.power.toNat * i.den
  let s := Nat.pow 10 (-d.power).toNat
  if i.closed then i.low * s ≤ n && n ≤ i.high * s else i.low * s < n && n < i.high * s

/-- The place of the decimal point: the least `p` with `num / den < 10 ^ p`. -/
def pointOf (num den : Nat) : Int :=
  if den ≤ num then
    ((List.range 400).find? fun p => num < den * Nat.pow 10 p).getD 0
  else
    1 - Int.ofNat (((List.range 400).find? fun p => den ≤ num * Nat.pow 10 p).getD 0)

/-- The better one of the double's two neighbours among the decimals with the given power of ten,
if one of them reads back. -/
def Interval.nearest? (i : Interval) (power : Int) : Option Decimal :=
  let num := i.mid * Nat.pow 10 (-power).toNat
  let den := i.den * Nat.pow 10 power.toNat
  let below : Decimal := ⟨num / den, power⟩
  let above : Decimal := ⟨num / den + 1, power⟩
  match i.holds below, i.holds above with
  | true, true => some (if Binary64.divEven num den = below.digits then below else above)
  | true, false => some below
  | false, true => some above
  | false, false => none

/-- The shortest decimal that reads back as the absolute value of the double. -/
def shortest (x : Binary64) : Decimal :=
  if x.isZero then ⟨0, 0⟩
  else
    let i := Interval.ofBinary64 x
    let point := pointOf i.mid i.den
    let best := (List.range 17).findSome? fun n => i.nearest? (point - Int.ofNat n - 1)
    (best.getD ⟨0, 0⟩).strip 20

end EntityRelation.Number
