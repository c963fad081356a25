import EntityRelation.Dependency.Order
import EntityRelation.KeyPlace

/-!
# The order of a schema

Every key that orders its owner after its target is an edge of the dependency graph of a schema.
The entities of the schema are declared in the order of that graph.
-/

namespace EntityRelation

/-- The edge for the key at a side of a link, if there is a key and it orders the entities. -/
def Schema.dependencyAt? (s : Schema) (l : Link) (side : Side) : Option Dependency.Edge :=
  match s.keyPlace l side with
  | .here => (l.strength? side).map fun k => ⟨(l.endAt side.opposite).entity, (l.endAt side).entity, k⟩
  | _ => none

/-- The edges for all keys, link by link, the first side before the second. -/
def Schema.dependencies (s : Schema) : List Dependency.Edge :=
  s.links.flatMap fun l => [Side.first, Side.second].filterMap (s.dependencyAt? l)

/-- The dependency graph of a schema. -/
def Schema.graph (s : Schema) : Dependency.Graph :=
  s.dependencies.foldl (fun g e => g.add e.parent e.child e.strength) .empty

/-- The dependency graph of a schema, with an event for every key. -/
def Schema.reportGraph (s : Schema) : Logged Dependency.Graph := do
  Logged.reportAll (s.dependencies.map fun e =>
    .dependencyFound (s.nameOf e.parent) (s.nameOf e.child) e.strength)
  pure s.graph

/-- The order in which the entities of a schema are declared, with an event for every edge that is
given up. -/
def Schema.order (s : Schema) : Logged Dependency.Order := do
  let g ← s.reportGraph
  let o ← g.sort s.ids
  Logged.reportAll (o.broken.map fun e =>
    .dependencyBroken (s.nameOf e.parent) (s.nameOf e.child) e.strength)
  pure o

end EntityRelation
