import EntityRelation.Number.Read
import EntityRelation.Tree

/-!
# Numbers and dates in TOML

Whole numbers of 64 bits in four bases, decimals, the three values that are no number, and dates
and times. A low line may stand between two digits. A decimal is read as the nearest double. Dates
and times are checked; a date is a record that no reader knows.
-/

namespace EntityRelation.Toml

/-- The digits without the low lines between them, if each low line stands between two digits. -/
def plainDigits? (isDigit : Char → Bool) : List Char → Option (List Char)
  | [c] => if isDigit c then some [c] else none
  | c :: '_' :: rest => if isDigit c then (plainDigits? isDigit rest).map (c :: ·) else none
  | c :: rest => if isDigit c then (plainDigits? isDigit rest).map (c :: ·) else none
  | [] => none

/-- Digits of a whole number, which has no zero in front of other digits. -/
def wholeDigits? (cs : List Char) : Option (List Char) :=
  (plainDigits? Char.isDigit cs).filter fun ds => ds.length = 1 ∨ ds.head? ≠ some '0'

/-- A letter or digit of a base. -/
def isDigitOf (base : Nat) (c : Char) : Bool :=
  match Number.digitValue? c with
  | some d => d < base
  | none => false

/-- The whole number, if it fits 64 bits. -/
def bounded? (negative : Bool) (n : Nat) : Option Int :=
  if negative then if n ≤ Nat.pow 2 63 then some (-Int.ofNat n) else none
  else if n < Nat.pow 2 63 then some n else none

/-- The whole number with digits of a base. -/
def based? (base : Nat) (cs : List Char) : Option Int := do
  let ds ← plainDigits? (isDigitOf base) cs
  let n ← Number.natural? base ds
  bounded? false n

/-- The whole number that the characters are. -/
def integer? (cs : List Char) : Option Int :=
  match cs with
  | '0' :: 'x' :: ds => based? 16 ds
  | '0' :: 'o' :: ds => based? 8 ds
  | '0' :: 'b' :: ds => based? 2 ds
  | _ => do
    let (negative, ds) := Number.splitSign cs
    let ds ← wholeDigits? ds
    let n ← Number.natural? 10 ds
    bounded? negative n

/-- The decimal that the characters are: a whole number followed by a fraction, a power of ten, or
both. The answer is `some none` for infinities and for no number. A decimal that is too large above
zero is a mistake. -/
def decimal? (cs : List Char) : Option (Option Binary64) := do
  let (negative, unsigned) := Number.splitSign cs
  if unsigned = ['i', 'n', 'f'] ∨ unsigned = ['n', 'a', 'n'] then some none
  else
    let isMark (c : Char) : Bool := c == '.' || c == 'e' || c == 'E'
    let front := unsigned.takeWhile fun c => !isMark c
    let rest := unsigned.dropWhile fun c => !isMark c
    let front ← wholeDigits? front
    let (back, rest) ← match rest with
      | '.' :: r =>
        let isExponent (c : Char) : Bool := c == 'e' || c == 'E'
        (plainDigits? Char.isDigit (r.takeWhile fun c => !isExponent c)).map fun ds =>
          ('.' :: ds, r.dropWhile fun c => !isExponent c)
      | r => some ([], r)
    let power ← match rest with
      | e :: '-' :: r => (plainDigits? Char.isDigit r).map fun ds => e :: '-' :: ds
      | e :: '+' :: r => (plainDigits? Char.isDigit r).map fun ds => e :: ds
      | e :: r => (plainDigits? Char.isDigit r).map fun ds => e :: ds
      | [] => some []
    if back.isEmpty ∧ power.isEmpty then none
    else
      let x ← Number.decimal? (front ++ back ++ power)
      match x with
      | some x => some (some (x.negateIf negative))
      | none => if negative then some none else none

/-- A number of so many digits, and what follows it. -/
def fixed? (n : Nat) (cs : List Char) : Option (Nat × List Char) :=
  let ds := cs.take n
  if ds.length = n ∧ ds.all Char.isDigit then
    (Number.natural? 10 ds).map fun v => (v, cs.drop n)
  else none

/-- The text after a character, if it starts with it. -/
def after? (c : Char) : List Char → Option (List Char)
  | d :: rest => if c = d then some rest else none
  | [] => none

/-- The number of days of a month. -/
def daysOf (year month : Nat) : Nat :=
  if month = 2 then
    if year % 4 = 0 ∧ (year % 100 ≠ 0 ∨ year % 400 = 0) then 29 else 28
  else if [4, 6, 9, 11].contains month then 30
  else 31

/-- What follows a date at the start. -/
def date? (cs : List Char) : Option (List Char) := do
  let (year, cs) ← fixed? 4 cs
  let cs ← after? '-' cs
  let (month, cs) ← fixed? 2 cs
  let cs ← after? '-' cs
  let (day, cs) ← fixed? 2 cs
  if 1 ≤ month ∧ month ≤ 12 ∧ 1 ≤ day ∧ day ≤ daysOf year month then some cs else none

/-- What follows a time at the start. -/
def time? (cs : List Char) : Option (List Char) := do
  let (hour, cs) ← fixed? 2 cs
  let cs ← after? ':' cs
  let (minute, cs) ← fixed? 2 cs
  let cs ← after? ':' cs
  let (second, cs) ← fixed? 2 cs
  if hour ≤ 23 ∧ minute ≤ 59 ∧ second ≤ 60 then
    match cs with
    | '.' :: r => if (r.takeWhile Char.isDigit).isEmpty then none else some (r.dropWhile Char.isDigit)
    | r => some r
  else none

/-- What follows the distance from universal time at the start, if there is one. -/
def offset? : List Char → Option (List Char)
  | 'Z' :: rest => some rest
  | 'z' :: rest => some rest
  | c :: rest =>
    if c = '+' ∨ c = '-' then do
      let (hour, cs) ← fixed? 2 rest
      let cs ← after? ':' cs
      let (minute, cs) ← fixed? 2 cs
      if hour ≤ 23 ∧ minute ≤ 59 then some cs else none
    else some (c :: rest)
  | [] => some []

/-- The characters are a date, a time, or both. -/
def isMoment (cs : List Char) : Bool :=
  match date? cs with
  | none => time? cs == some []
  | some [] => true
  | some (c :: rest) =>
    (c == 'T' || c == 't' || c == ' ') && (time? rest).bind offset? == some []

/-- A character of a number or a date. -/
def isScalarChar (c : Char) : Bool :=
  c.isAlphanum || c == '_' || c == '+' || c == '-' || c == '.' || c == ':'

/-- The characters of the number or date at the start. A blank between a date and a time belongs to
them. -/
def scalarChars (cs : List Char) : List Char :=
  let front := cs.takeWhile isScalarChar
  match date? front, cs.drop front.length with
  | some [], ' ' :: rest =>
    match rest.takeWhile isScalarChar with
    | c :: more => if c.isDigit then front ++ ' ' :: c :: more else front
    | [] => front
  | _, _ => front

/-- The number, truth value or date that the characters are. -/
def scalar? (cs : List Char) : Option Tree :=
  if cs = ['t', 'r', 'u', 'e'] then some (.bool true)
  else if cs = ['f', 'a', 'l', 's', 'e'] then some (.bool false)
  else match integer? cs with
    | some n => some (.number (.whole n))
    | none =>
    match decimal? cs with
    | some (some x) => some (.number (.real x))
    | some none => some .invalid
    | none => if isMoment cs then some (.record [("", .text (String.ofList cs))]) else none

end EntityRelation.Toml
