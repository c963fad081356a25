import EntityRelation.Diagram
import EntityRelation.Tree

/-!
# Diagrams as trees

A diagram as a tree in which every field of every part is given.
-/

namespace EntityRelation

/-- A text, or nothing. -/
def Tree.ofOption : Option String → Tree
  | some s => .text s
  | none => .null

/-- A natural number. -/
def Tree.ofNat (n : Nat) : Tree := .number (.whole n)

/-- The kind of a value. -/
def TagValue.kind : TagValue → String
  | .text _ => "string"
  | .number _ => "number"
  | .flag _ => "boolean"
  | .element _ => "reference"

/-- A value, without its kind. -/
def TagValue.toTree : TagValue → Tree
  | .text s => .text s
  | .number n => .number n
  | .flag b => .bool b
  | .element s => .text s

/-- A tag. -/
def Tag.toTree (t : Tag) : Tree :=
  .record [("name", .text t.name), ("kind", .text t.value.kind), ("value", t.value.toTree)]

/-- A column. -/
def Column.toTree (c : Column) : Tree :=
  .record [("name", .text c.name), ("type", .text c.type), ("length", .ofNat c.length.toNat),
    ("nullable", .bool c.nullable), ("unique", .bool c.unique),
    ("primary_key", .bool c.primaryKey)]

/-- An entity. -/
def Entity.toTree (e : Entity) : Tree :=
  .record [("name", .text e.name), ("documentation", .text e.documentation),
    ("columns", .tuple (e.columns.map Column.toTree)), ("tags", .tuple (e.tags.map Tag.toTree))]

/-- An end of a relationship. -/
def End.toTree (e : End) : Tree :=
  .record [("reference", .text e.reference), ("cardinality", .text e.cardinality),
    ("name", .ofOption e.name), ("navigable", .bool e.navigable)]

/-- A relationship. -/
def Relationship.toTree (r : Relationship) : Tree :=
  .record [("name", .ofOption r.name), ("end1", r.first.toTree), ("end2", r.second.toTree),
    ("tags", .tuple (r.tags.map Tag.toTree))]

/-- A package. -/
def Package.toTree (p : Package) : Tree :=
  .record [("name", .text p.name), ("documentation", .text p.documentation),
    ("entities", .tuple (p.entities.map Entity.toTree))]

/-- A diagram. -/
def Diagram.toTree (d : Diagram) : Tree :=
  .record [("name", .text d.name), ("packages", .tuple (d.packages.map Package.toTree)),
    ("relationships", .tuple (d.relationships.map Relationship.toTree))]

end EntityRelation
