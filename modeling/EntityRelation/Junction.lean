import EntityRelation.Schema

/-!
# Junctions

A link between two ends that are many becomes a class of its own, with a key to the entity at each
end. The class has the name of the link, or else the two labels of the ends with a low line
between them. A key is named for its entity, and the way back from the entity is named for the
other end.
-/

namespace EntityRelation

/-- One of the two keys of a junction. -/
structure JunctionField where
  /-- The entity that the key refers to. -/
  entity : Nat
  /-- The name of the field. -/
  fieldName : String
  /-- The name of the way back. -/
  backref : String
  deriving DecidableEq, Repr

/-- A class for a link between two ends that are many. -/
structure Junction where
  /-- The number of the link. -/
  link : Nat
  /-- The name of the class. -/
  name : String
  /-- The key to the entity at the first end. -/
  first : JunctionField
  /-- The key to the entity at the second end. -/
  second : JunctionField
  deriving DecidableEq, Repr

/-- The plural of a name. -/
def pluralOf (name : String) : String := name ++ "s"

/-- The name of a junction between two labels. -/
def junctionName (first second : String) : String := first ++ "_" ++ second

namespace Junction

/-- The label of an end: its given name, or the name of its entity. -/
def label (s : Schema) (e : LinkEnd) : String := e.givenName.getD (s.nameOf e.entity)

/-- The key to the entity at an end, with the way back to the other end. -/
def field (s : Schema) (e other : LinkEnd) : JunctionField where
  entity := e.entity
  fieldName := Text.lower (s.nameOf e.entity)
  backref := other.givenName.getD (pluralOf (Text.lower (s.nameOf other.entity)))

/-- The junction of a link. -/
def ofLink (s : Schema) (l : Link) : Junction where
  link := l.id
  name := l.name.getD (junctionName (label s l.first) (label s l.second))
  first := field s l.first l.second
  second := field s l.second l.first

/-- The two keys in their order. -/
def fields (j : Junction) : List JunctionField := [j.first, j.second]

end Junction

/-- The field call of a key of a junction. -/
def JunctionField.call (s : Schema) (f : JunctionField) : FieldCall :=
  ⟨"ForeignKeyField",
    [.positional (s.nameOf f.entity), .keyword "backref" (Text.Quoted.literal f.backref)]⟩

end EntityRelation
