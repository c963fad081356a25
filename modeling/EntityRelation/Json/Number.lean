import EntityRelation.Tree
import EntityRelation.Number.Read

/-!
# Numbers in JSON text

A number without fraction and power of ten is a whole number if it fits 64 bits; all others are
doubles, and so is `-0`. The double is read from the digits that fit 64 bits, which give a first
double; that is multiplied by, or divided by, the double of the power of ten. Digits that no longer
fit count as zeros before the point and are passed over behind it.
-/

namespace EntityRelation.Json

/-- The digits of a number so far, kept below `2 ^ 64`, and the power of ten of the last of them. -/
structure Significand where
  /-- The digits as a whole number. -/
  value : Nat
  /-- The power of ten. -/
  power : Int

/-- The greatest significand. -/
def maxSignificand : Nat := Nat.pow 2 64 - 1

/-- The value of a decimal digit. -/
def digitOf (c : Char) : Nat := c.toNat - 48

/-- One more digit before the point. The first digit that does not fit and all after it are
counted. -/
def Significand.whole (value : Nat) : List Char → Significand
  | [] => ⟨value, 0⟩
  | c :: rest =>
    let next := value * 10 + digitOf c
    if maxSignificand < next then ⟨value, rest.length + 1⟩ else whole next rest

/-- More digits behind the point, as far as they fit. -/
def Significand.fraction (s : Significand) : List Char → Significand
  | [] => s
  | c :: rest =>
    let next := s.value * 10 + digitOf c
    if maxSignificand < next then s else fraction ⟨next, s.power - 1⟩ rest

/-- The double of a power of ten up to `10 ^ 308`. -/
def powerOfTen (n : Nat) : Binary64 :=
  (Binary64.ofDecimal? false 1 n).getD (Binary64.zero false)

/-- The double times a power of ten, in steps of at most `10 ^ 308`, unless it grows too large. -/
def scale (x : Binary64) (power : Int) : Nat → Option Binary64
  | 0 => some x
  | steps + 1 =>
    if power.natAbs ≤ 308 then
      if 0 ≤ power then x.mul? (powerOfTen power.natAbs) else x.div? (powerOfTen power.natAbs)
    else if x.isZero then some x
    else if 0 ≤ power then none
    else (x.div? (powerOfTen 308)).bind fun y => scale y (power + 308) steps

/-- The double of a significand. Ten steps take every significand to zero. -/
def Significand.real? (s : Significand) (negative : Bool) : Option Binary64 :=
  ((Binary64.ofDecimal? false s.value 0).bind fun x => scale x s.power 10).map
    fun x => x.negateIf negative

/-- The number with digits `front` before the point, `back` behind it if there is a point, and a
power of ten if there is one. -/
def number (negative : Bool) (front : List Char) (back : Option (List Char)) (power : Option Int) :
    Tree :=
  let s := Significand.whole 0 front
  let real (s : Significand) : Tree :=
    match s.real? negative with
    | some x => .number (.real x)
    | none => .invalid
  match back, power with
  | none, none =>
    if s.power ≠ 0 then real s
    else if !negative then .number (.whole s.value)
    else if s.value = 0 ∨ Nat.pow 2 63 < s.value then real s
    else .number (.whole (-Int.ofNat s.value))
  | _, _ =>
    let s := s.fraction (back.getD [])
    real { s with power := s.power + power.getD 0 }

/-- The digits at the start, if there is one. -/
def digits? (cs : List Char) : Option (List Char × List Char) :=
  match cs.takeWhile Char.isDigit with
  | [] => none
  | ds => some (ds, cs.dropWhile Char.isDigit)

/-- The number at the start of the text, after its sign. A zero in front stands alone. -/
def numberAfterSign? (negative : Bool) (cs : List Char) : Option (Tree × List Char) := do
  let (front, rest) ← digits? cs
  if front.head? = some '0' ∧ front.length ≠ 1 then none
  else
    let (back, rest) ← match rest with
      | '.' :: r => (digits? r).map fun (ds, r) => (some ds, r)
      | r => some (none, r)
    let (power, rest) ← match rest with
      | c :: r =>
        if c = 'e' ∨ c = 'E' then
          let (minus, r) := Number.splitSign r
          (digits? r).map fun (ds, r) =>
            let n : Int := (Number.natural? 10 ds).getD 0
            (some (if minus then -n else n), r)
        else some (none, c :: r)
      | [] => some (none, [])
    some (number negative front back power, rest)

/-- The number at the start of the text. -/
def number? : List Char → Option (Tree × List Char)
  | '-' :: rest => numberAfterSign? true rest
  | cs => numberAfterSign? false cs

end EntityRelation.Json
