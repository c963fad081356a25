import EntityRelation.Number.Shortest

/-!
# Numbers of a document

A number is a whole number or a finite double. A whole number is written in decimal. A double is
written with the fewest digits that read back: with a decimal point from `1e-5` up to `1e16`, and
as a digit, more digits and a signed power of ten outside that range.
-/

namespace EntityRelation

/-- A number of a document. -/
inductive Number where
  /-- A whole number. -/
  | whole (value : Int)
  /-- A finite double. -/
  | real (value : Binary64)
  deriving DecidableEq, Repr

namespace Number

/-- How many zeros. -/
def zeros (n : Int) : List Char := List.replicate n.toNat '0'

/-- The decimal digits of a natural number. -/
def digits (n : Nat) : List Char := Nat.toDigits 10 n

/-- The digits with a point at place `point`, or with a power of ten where zeros would be many. -/
def layout (ds : List Char) (point : Int) : List Char :=
  let n : Int := ds.length
  if n ≤ point ∧ point ≤ 16 then ds ++ zeros (point - n) ++ ['.', '0']
  else if 0 < point ∧ point ≤ 16 then ds.take point.toNat ++ '.' :: ds.drop point.toNat
  else if -5 < point ∧ point ≤ 0 then '0' :: '.' :: zeros (-point) ++ ds
  else
    let e := point - 1
    ds.take 1 ++ (if ds.length = 1 then [] else '.' :: ds.drop 1)
      ++ 'e' :: (if e < 0 then '-' else '+') :: digits e.natAbs

/-- The text of a double. -/
def realText (x : Binary64) : String :=
  let d := shortest x
  let ds := digits d.digits
  let body := if x.isZero then ['0', '.', '0'] else layout ds (ds.length + d.power)
  String.ofList (if x.negative then '-' :: body else body)

/-- The text of a number. -/
def text : Number → String
  | .whole n => String.ofList (if n < 0 then '-' :: digits n.natAbs else digits n.natAbs)
  | .real x => realText x

end Number

end EntityRelation
