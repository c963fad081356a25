import EntityRelation.Tree
import EntityRelation.Number.Read

/-!
# Bare words

What a bare word stands for. A place that asks for a text takes the word as it is; a place that
asks for a truth value or a number takes the words below; a place that takes any scalar takes the
first reading that fits, in the order nothing, truth value, number, text.
-/

namespace EntityRelation.Word

/-- The greatest whole number of 64 bits. -/
def maxNatural : Nat := Nat.pow 2 64 - 1

/-- The word says that there is nothing. -/
def isNull (s : String) : Bool := ["null", "Null", "NULL", "~"].contains s

/-- The word is left out or says that there is nothing. -/
def isNothing (s : String) : Bool := s.isEmpty || isNull s

/-- The truth value of a word. -/
def bool? (s : String) : Option Bool :=
  if ["true", "True", "TRUE"].contains s then some true
  else if ["false", "False", "FALSE"].contains s then some false
  else none

/-- The word starts with a sign. -/
def startsSigned : List Char → Bool
  | '+' :: _ => true
  | '-' :: _ => true
  | _ => false

/-- Digits after a zero, which are a text and no number. -/
def isPadded (cs : List Char) : Bool :=
  match (Number.splitSign cs).2 with
  | '0' :: d :: rest => (d :: rest).all Char.isDigit
  | _ => false

/-- The value of a number with a mark for its base in front. The answer is `none` when there is no
such mark or the number does not fit below `limit`. -/
def marked? (limit : Nat) : List Char → Option Nat
  | '0' :: 'x' :: ds => (Number.natural? 16 ds).filter (· ≤ limit)
  | '0' :: 'o' :: ds => (Number.natural? 8 ds).filter (· ≤ limit)
  | '0' :: 'b' :: ds => (Number.natural? 2 ds).filter (· ≤ limit)
  | _ => none

/-- The value of a word without a minus as a whole number up to `limit`. -/
def naturalUpTo? (limit : Nat) (cs : List Char) : Option Nat :=
  let unsigned := match cs with
    | '+' :: r => r
    | r => r
  match marked? limit unsigned with
  | some n => some n
  | none =>
    if isPadded cs then none else (Number.natural? 10 unsigned).filter (· ≤ limit)

/-- The amount of a word with a minus as a whole number down to `-limit`. -/
def negativeDownTo? (limit : Nat) : List Char → Option Nat
  | '-' :: ds =>
    match marked? limit ds with
    | some n => some n
    | none => if isPadded ('-' :: ds) then none else (Number.natural? 10 ds).filter (· ≤ limit)
  | _ => none

/-- The value of a word as a whole number of 64 bits that is not negative. -/
def natural? (s : String) : Option Nat := naturalUpTo? maxNatural s.toList

/-- The double that a word stands for, or `some none` for an infinity and for no number. -/
def real? (cs : List Char) : Option (Option Binary64) :=
  let unsigned := match cs with
    | '+' :: r => r
    | r => r
  if [".inf", ".Inf", ".INF"].contains (String.ofList unsigned) then some none
  else if ["-.inf", "-.Inf", "-.INF", ".nan", ".NaN", ".NAN"].contains (String.ofList cs) then
    some none
  else if cs.head? = some '+' ∧ startsSigned unsigned ∨ isPadded cs then none
  else (Number.decimal? unsigned).bind fun x => x.map some

/-- The whole number that a word stands for, or `some none` for one of more than 64 bits. -/
def whole? (cs : List Char) : Option (Option Int) :=
  match naturalUpTo? maxNatural cs with
  | some n => some (some n)
  | none =>
    match negativeDownTo? (Nat.pow 2 63) cs with
    | some n => some (some (-Int.ofNat n))
    | none =>
      if (naturalUpTo? (Nat.pow 2 128 - 1) cs).isSome ∨ (negativeDownTo? (Nat.pow 2 127) cs).isSome then
        some none
      else none

/-- A number, if there is one that can be held. -/
def numeral (n : Option Number) : Tree := (n.map Tree.number).getD .invalid

/-- What a word stands for where any scalar may stand. -/
def scalar (s : String) : Tree :=
  let cs := s.toList
  if isNothing s then .null
  else match bool? s, whole? cs, real? cs with
    | some b, _, _ => .bool b
    | none, some n, _ => numeral (n.map .whole)
    | none, none, some x => numeral (x.map .real)
    | none, none, none => .text s

/-- What a scalar with a mark stands for where any scalar may stand. -/
def markedScalar (m : Mark) (s : String) : Tree :=
  match m with
  | .nothing => if isNull s then .null else .invalid
  | .truth => ((bool? s).map Tree.bool).getD .invalid
  | .whole => numeral ((whole? s.toList).join.map .whole)
  | .real => numeral ((real? s.toList).join.map .real)
  | .text => .text s
  | .foreign => .invalid

end EntityRelation.Word
