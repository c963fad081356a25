import EntityRelation.Number

/-!
# Entity-relationship diagrams

A diagram as a modelling tool keeps it: packages of entities, entities with columns, and
relationships that join two entities. Types of columns and cardinalities of ends are kept as they
were written; whether they mean something is found out later, and only where it matters.
-/

namespace EntityRelation

/-- The value of a tag. -/
inductive TagValue where
  /-- A text. -/
  | text (value : String)
  /-- A number. -/
  | number (value : Number)
  /-- A truth value. -/
  | flag (value : Bool)
  /-- The name of an element of the diagram. -/
  | element (name : String)
  deriving DecidableEq, Repr

/-- A named value that a modeller attached to an entity or a relationship. -/
structure Tag where
  /-- The name. -/
  name : String
  /-- The value. -/
  value : TagValue
  deriving DecidableEq, Repr

/-- A column of an entity. -/
structure Column where
  /-- The name. -/
  name : String
  /-- The type as it was written. -/
  type : String
  /-- The length, zero if there is none. -/
  length : UInt32 := 0
  /-- The column may be empty. -/
  nullable : Bool := false
  /-- No value stands in the column twice. -/
  unique : Bool := false
  /-- The column is the primary key. -/
  primaryKey : Bool := false
  deriving DecidableEq, Repr

/-- An entity. -/
structure Entity where
  /-- The name. -/
  name : String
  /-- What the modeller wrote about the entity. -/
  documentation : String := ""
  /-- The columns in their order. -/
  columns : List Column := []
  /-- The tags in their order. -/
  tags : List Tag := []
  deriving DecidableEq, Repr

/-- One end of a relationship. -/
structure End where
  /-- The name of the entity at this end. -/
  reference : String
  /-- The cardinality as it was written. -/
  cardinality : String
  /-- The name of the end. -/
  name : Option String := none
  /-- The modelling tool draws an arrow here. -/
  navigable : Bool := true
  deriving DecidableEq, Repr

/-- A relationship between two entities, which may be the same. -/
structure Relationship where
  /-- The name. -/
  name : Option String := none
  /-- The first end. -/
  first : End
  /-- The second end. -/
  second : End
  /-- The tags in their order. -/
  tags : List Tag := []
  deriving DecidableEq, Repr

/-- A package of entities that are compiled together. -/
structure Package where
  /-- The name. -/
  name : String
  /-- What the modeller wrote about the package. -/
  documentation : String := ""
  /-- The entities in their order. -/
  entities : List Entity := []
  deriving DecidableEq, Repr

/-- A whole diagram. -/
structure Diagram where
  /-- The name. -/
  name : String := ""
  /-- The packages in their order. -/
  packages : List Package := []
  /-- The relationships between the entities of all packages. -/
  relationships : List Relationship := []
  deriving DecidableEq, Repr

namespace Entity

/-- The entity with one more column. -/
def addColumn (e : Entity) (c : Column) : Entity := { e with columns := e.columns ++ [c] }

/-- The entity with one more tag. -/
def addTag (e : Entity) (t : Tag) : Entity := { e with tags := e.tags ++ [t] }

end Entity

namespace Relationship

/-- The relationship with one more tag. -/
def addTag (r : Relationship) (t : Tag) : Relationship := { r with tags := r.tags ++ [t] }

/-- One of the ends stands at the named entity. -/
def touches (r : Relationship) (entity : String) : Bool :=
  r.first.reference == entity || r.second.reference == entity

end Relationship

/-- The entities of all packages in their order. -/
def Diagram.entities (d : Diagram) : List Entity := d.packages.flatMap (·.entities)

end EntityRelation
