import EntityRelation.Text.Blank

/-!
# Cardinalities

How many instances stand at one end of a relationship: one, at most one, or many. Every marker
with a star means many, and the marker is kept as it was written.
-/

namespace EntityRelation

/-- The cardinality of an end. -/
inductive Cardinality where
  /-- Exactly one. -/
  | one
  /-- At most one. -/
  | zeroOrOne
  /-- Many, with the marker as it was written. -/
  | many (marker : String)
  deriving DecidableEq, Repr

namespace Cardinality

/-- The cardinality that a text stands for, blanks around it aside. -/
def parse? (s : String) : Option Cardinality :=
  let marker := Text.trim s
  if marker = "1" then some .one
  else if marker = "0..1" then some .zeroOrOne
  else if marker.toList.contains '*' then some (.many marker)
  else none

/-- The marker. -/
def marker : Cardinality → String
  | .one => "1"
  | .zeroOrOne => "0..1"
  | .many marker => marker

/-- More than one instance may stand at the end. -/
def isMany : Cardinality → Bool
  | .many _ => true
  | _ => false

/-- At most one instance stands at the end. -/
def isToOne (c : Cardinality) : Bool := !c.isMany

/-- The marker speaks of zero instances. -/
def isOptional (c : Cardinality) : Bool := c.marker.toList.contains '0'

end Cardinality

end EntityRelation
