import EntityRelation.Schema

/-!
# Where keys live

A link becomes a key of the entity at one of its ends, or a junction if both ends are many. The
key lives at the many end. Between two ends that are not many there is one owner, found by the
first rule that tells the ends apart: the end without a given name when exactly one has a given
name; the end that may be empty when the other may not; the end whose name comes first, then the
one whose entity's name comes first, then the first end.
-/

namespace EntityRelation

/-- Where the key of a link lives, seen from one end. -/
inductive KeyPlace where
  /-- The entity at this end has the key. -/
  | here
  /-- The entity at the other end has the key. -/
  | opposite
  /-- A junction has two keys. -/
  | junction
  deriving DecidableEq, Repr

namespace Schema

/-- The end comes before the other by its name, then by the name of its entity. -/
def comesBefore (s : Schema) (a b : LinkEnd) : Bool :=
  decide (a.name < b.name) ||
    a.name == b.name && decide (s.nameOf a.entity < s.nameOf b.entity)

/-- The end that has the key of a link between two ends that are not many. -/
def ownerSide (s : Schema) (l : Link) : Side :=
  match l.first.givenName.isSome, l.second.givenName.isSome with
  | true, false => .second
  | false, true => .first
  | _, _ =>
    match l.first.cardinality, l.second.cardinality with
    | .zeroOrOne, .one => .first
    | .one, .zeroOrOne => .second
    | _, _ => if s.comesBefore l.second l.first then .second else .first

/-- Where the key of a link lives, seen from a side. -/
def keyPlace (s : Schema) (l : Link) (side : Side) : KeyPlace :=
  let this := l.endAt side
  let other := l.endAt side.opposite
  if other.cardinality.isMany then
    if this.cardinality.isMany then .junction else .opposite
  else if this.cardinality.isMany || s.ownerSide l == side then .here
  else .opposite

end Schema

/-- How strongly the owner of a key at a side has to follow the entity at the other side. An entity
does not follow itself, and two ends of the same cardinality do not order their entities. -/
def Link.strength? (l : Link) (side : Side) : Option Strength :=
  if l.isLoop then none
  else match (l.endAt side).cardinality, (l.endAt side.opposite).cardinality with
    | .many _, _ => some .hard
    | .zeroOrOne, .one => some .soft
    | .one, .zeroOrOne => some .soft
    | _, _ => none

end EntityRelation
