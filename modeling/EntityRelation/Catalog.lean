import EntityRelation.Diagram
import EntityRelation.Failure
import EntityRelation.Text.Blank

/-!
# Catalogs

A diagram whose names have been checked: every entity has a name with text, no two entities of the
whole diagram share a name, and every end of a relationship refers to an entity. A catalog answers
what stands in the diagram: which package is meant, which entities it holds, where the entity with a
name stands, and which relationships run between given entities.
-/

namespace EntityRelation

/-- A text for a relationship at a place of the diagram, counted from zero. -/
def Relationship.label (r : Relationship) (place : Nat) : String :=
  match r.name with
  | some name => s!"relationship #{place + 1} ({name})"
  | none => s!"relationship #{place + 1} ({r.first.reference} - {r.second.reference})"

/-- Where an entity stands in a diagram. -/
structure Spot where
  /-- The place of its package, counted from zero. -/
  package : Nat
  /-- Its place in the package, counted from zero. -/
  entity : Nat
  deriving DecidableEq, Repr

namespace Diagram

/-- The entity at a spot. -/
def entityAt? (d : Diagram) (spot : Spot) : Option Entity :=
  d.packages[spot.package]?.bind fun p => p.entities[spot.entity]?

/-- The names of the entities with their spots, package by package. -/
def index (d : Diagram) : List (String × Spot) :=
  d.packages.zipIdx.flatMap fun (p, i) => p.entities.zipIdx.map fun (e, j) => (e.name, ⟨i, j⟩)

end Diagram

/-- A diagram whose names have been checked. -/
structure Catalog where
  /-- The diagram. -/
  diagram : Diagram
  deriving DecidableEq, Repr

namespace Catalog

/-- An entity at its place in a package, counted from one. -/
structure Placed where
  /-- The name of the package. -/
  package : String
  /-- The place in the package. -/
  place : Nat
  /-- The entity. -/
  entity : Entity

/-- The entities of a package at their places. -/
def placedOf (p : Package) : List Placed :=
  p.entities.zipIdx.map fun (e, i) => ⟨p.name, i + 1, e⟩

/-- The entities of a diagram at their places. -/
def placed (d : Diagram) : List Placed := d.packages.flatMap placedOf

/-- Every entity has a name with text that neither stands in `seen` nor before it. -/
def checkNames (seen : List String) : List Placed → Except Failure Unit
  | [] => .ok ()
  | x :: rest =>
    if !Text.hasText x.entity.name then
      .error (.flawed ("package " ++ x.package) (.unnamedEntity x.place))
    else if seen.contains x.entity.name then .error (.flawed x.entity.name .repeatedEntity)
    else checkNames (x.entity.name :: seen) rest

/-- The end refers to one of the names. -/
def checkEnd (names : List String) (label : String) (e : End) : Except Failure Unit :=
  if names.contains e.reference then .ok ()
  else .error (.flawed label (.unknownEntity e.reference))

/-- Both ends of every relationship refer to one of the names. -/
def checkEnds (names : List String) : List (Relationship × Nat) → Except Failure Unit
  | [] => .ok ()
  | (r, place) :: rest => do
    checkEnd names (r.label place) r.first
    checkEnd names (r.label place) r.second
    checkEnds names rest

/-- The catalog of a diagram. -/
def ofDiagram (d : Diagram) : Except Failure Catalog := do
  checkNames [] (placed d)
  checkEnds (d.entities.map (·.name)) d.relationships.zipIdx
  .ok ⟨d⟩

/-- The packages in their order. -/
def packages (c : Catalog) : List Package := c.diagram.packages

/-- The first package with a name. -/
def package? (c : Catalog) (name : String) : Option Package :=
  c.packages.find? fun p => p.name == name

/-- The first package with a name, or why there is none. -/
def package (c : Catalog) (name : String) : Except Failure Package :=
  match c.package? name with
  | some p => .ok p
  | none => .error (.flawed name .noSuchPackage)

/-- The package that is meant: the one that is asked for, or else the only one. -/
def select (c : Catalog) (requested : Option String) : Except Failure Package :=
  match requested, c.packages with
  | some name, _ => c.package name
  | none, [p] => .ok p
  | none, [] => .error (.flawed c.diagram.name .noPackages)
  | none, ps => .error (.flawed c.diagram.name (.severalPackages (ps.map (·.name))))

/-- The entities of a package in their order. -/
def entitiesOf (c : Catalog) (package : String) : Except Failure (List Entity) :=
  (c.package package).map (·.entities)

/-- The entity with a name, which stands at the spot that the index has for the name. -/
def entity? (c : Catalog) (name : String) : Option Entity :=
  (c.diagram.index.lookup name).bind c.diagram.entityAt?

/-- The relationships at their places in the diagram, counted from zero. -/
def numbered (c : Catalog) : List (Relationship × Nat) := c.diagram.relationships.zipIdx

/-- The relationships that stand at an entity and satisfy a condition. -/
def relationshipsOf (c : Catalog) (entity : String) (condition : Relationship → Bool) :
    List (Relationship × Nat) :=
  c.numbered.filter fun r => r.1.touches entity && condition r.1

/-- Both ends of the relationship stand at entities of the list. -/
def inside (names : List String) (r : Relationship) : Bool :=
  names.contains r.first.reference && names.contains r.second.reference

/-- The relationships of `names`, after those that are there already: for each name in turn, the
ones that stand at it and are new. -/
def gather (c : Catalog) (all : List String) :
    List (Relationship × Nat) → List String → List (Relationship × Nat)
  | found, [] => found
  | found, name :: rest =>
    let more := (c.relationshipsOf name (inside all)).filter fun r => !found.any (·.2 == r.2)
    gather c all (found ++ more) rest

/-- The relationships between the entities of a list, each once, in the order in which the entities
of the list meet them. -/
def between (c : Catalog) (entities : List Entity) : List (Relationship × Nat) :=
  let names := entities.map (·.name)
  c.gather names [] names

end Catalog

end EntityRelation
