import EntityRelation.Cardinality
import EntityRelation.ColumnType
import EntityRelation.FieldCall
import EntityRelation.Logged
import EntityRelation.Text.Lowercase

/-!
# Schemas

A package that has been resolved: its entities are numbered from zero and their columns have types,
and the relationships between them are links. A link is numbered too, its ends stand at numbered
entities, and every end has a cardinality and a name, its own or the name of its entity in lower
case. Relationships that leave the package are not part of the schema and are not looked at.
-/

namespace EntityRelation

/-- A column whose type is known. -/
structure TypedColumn where
  /-- The column. -/
  column : Column
  /-- Its type. -/
  type : ColumnType
  deriving DecidableEq, Repr

/-- An entity whose columns have types. -/
structure Table where
  /-- The entity. -/
  entity : Entity
  /-- Its columns. -/
  columns : List TypedColumn
  deriving DecidableEq, Repr

/-- The end of a link. -/
structure LinkEnd where
  /-- The number of the entity at this end. -/
  entity : Nat
  /-- The cardinality. -/
  cardinality : Cardinality
  /-- The name that the diagram gives, if it has text. -/
  givenName : Option String
  /-- The given name, or the name of the entity in lower case. -/
  name : String
  deriving DecidableEq, Repr

/-- One of the two ends. -/
inductive Side where
  | first | second
  deriving DecidableEq, Repr

/-- The other end. -/
def Side.opposite : Side → Side
  | first => second
  | second => first

/-- A relationship between two entities of a schema. -/
structure Link where
  /-- The number. -/
  id : Nat
  /-- The name, if it has text. -/
  name : Option String
  /-- The first end. -/
  first : LinkEnd
  /-- The second end. -/
  second : LinkEnd
  /-- The tags. -/
  tags : List Tag
  deriving DecidableEq, Repr

namespace Link

/-- The end at a side. -/
def endAt (l : Link) : Side → LinkEnd
  | .first => l.first
  | .second => l.second

/-- The sides that stand at an entity. -/
def sidesAt (l : Link) (entity : Nat) : List Side :=
  [Side.first, Side.second].filter fun s => (l.endAt s).entity == entity

/-- Both ends stand at the same entity. -/
def isLoop (l : Link) : Bool := l.first.entity == l.second.entity

/-- One of the ends stands at an entity. -/
def touches (l : Link) (entity : Nat) : Bool :=
  l.first.entity == entity || l.second.entity == entity

end Link

/-- A resolved package. -/
structure Schema where
  /-- The entities; the number of one is its place. -/
  tables : List Table
  /-- The links; the number of one is its place. -/
  links : List Link
  deriving DecidableEq, Repr

/-- The field call of a column: it may be empty, it is unique, it is the primary key, its length. -/
def TypedColumn.call (c : TypedColumn) : FieldCall where
  callee := c.type.fieldClass
  arguments :=
    (if c.column.nullable then [.keyword "null" (boolLiteral true)] else [])
      ++ (if c.column.unique then [.keyword "unique" (boolLiteral true)] else [])
      ++ (if c.column.primaryKey then [.keyword "primary_key" (boolLiteral true)] else [])
      ++ (if c.column.length ≠ 0 then [.keyword "max_length" s!"{c.column.length.toNat}"] else [])

/-- The field call of a column whose type is not known yet. -/
def Column.call (c : Column) : Except Failure FieldCall :=
  match ColumnType.parse? c.type with
  | some t => .ok (TypedColumn.call ⟨c, t⟩)
  | none => .error (.unknownTypeOf c.name c.type)

namespace Schema

/-- The number of entities. -/
def size (s : Schema) : Nat := s.tables.length

/-- The numbers of the entities. -/
def ids (s : Schema) : List Nat := List.range s.size

/-- The name of the entity with a number. -/
def nameOf (s : Schema) (id : Nat) : String := (s.tables[id]?.map (·.entity.name)).getD ""

/-- The number of the entity with a name. -/
def idOf? (s : Schema) (name : String) : Option Nat :=
  s.tables.findIdx? fun t => t.entity.name == name

/-- The links that stand at an entity. -/
def linksOf (s : Schema) (entity : Nat) : List Link := s.links.filter (·.touches entity)

/-- The columns of an entity with their types. -/
def typeColumns (entity : String) : List Column → Except Failure (List TypedColumn)
  | [] => .ok []
  | c :: rest =>
    match ColumnType.parse? c.type with
    | some t => (typeColumns entity rest).map (⟨c, t⟩ :: ·)
    | none => .error (.unknownTypeIn entity c.name c.type)

/-- The entities with the types of their columns. No name stands in `seen` or before itself. -/
def typeEntities (seen : List String) : List Entity → Except Failure (List Table)
  | [] => .ok []
  | e :: rest =>
    if seen.contains e.name then .error (.flawed e.name .repeatedEntity)
    else do
      let columns ← typeColumns e.name e.columns
      let tables ← typeEntities (e.name :: seen) rest
      .ok (⟨e, columns⟩ :: tables)

/-- A text for a relationship that becomes the link with a number. -/
def labelOf (id : Nat) (r : Relationship) : String :=
  match r.name.filter Text.hasText with
  | some name => "relationship " ++ name
  | none => s!"relationship #{id + 1} ({r.first.reference} - {r.second.reference})"

/-- The end of a link at an entity. -/
def resolveEnd (label : String) (entity : Nat) (e : End) : Except Failure LinkEnd :=
  match Cardinality.parse? e.cardinality with
  | none => .error (.flawed label (.unknownCardinality (Text.trim e.cardinality)))
  | some cardinality =>
    let givenName := e.name.bind Text.trim?
    .ok ⟨entity, cardinality, givenName, givenName.getD (Text.lower e.reference)⟩

/-- The link with a number between two entities. -/
def resolveLink (id : Nat) (r : Relationship) (first second : Nat) : Except Failure Link := do
  let label := labelOf id r
  let firstEnd ← resolveEnd label first r.first
  let secondEnd ← resolveEnd label second r.second
  .ok ⟨id, r.name.filter Text.hasText, firstEnd, secondEnd, r.tags⟩

/-- The links that relationships become, numbered from `id`, where `find` gives the number of an
entity. -/
def resolveLinks (find : String → Option Nat) : Nat → List Relationship → Logged (List Link)
  | _, [] => pure []
  | id, r :: rest =>
    match find r.first.reference, find r.second.reference with
    | some first, some second => do
      let link ← resolveLink id r first second
      let links ← resolveLinks find (id + 1) rest
      pure (link :: links)
    | _, _ => do
      Logged.report (.relationshipOutside r.first.reference r.second.reference)
      resolveLinks find id rest

/-- The schema of entities and of the relationships between them. -/
def build (entities : List Entity) (relationships : List Relationship) : Logged Schema := do
  let tables ← typeEntities [] entities
  let links ← resolveLinks (Schema.mk tables []).idOf? 0 relationships
  Logged.report (.schemaResolved tables.length links.length)
  pure ⟨tables, links⟩

end Schema

end EntityRelation
