import EntityRelation.Dependency.Graph
import EntityRelation.Failure

/-!
# Orders of declaration

Entities are placed in rounds. A round places every waiting entity that has no waiting parent, in
the order in which they wait. When every waiting entity has one, an edge between two of them is
given up: the first soft edge, by child and then by parent in the order in which they wait; or, if
all edges are hard, the first edge into a child with the fewest waiting parents. Every round leaves
fewer waiting entities or fewer edges, so the rounds come to an end.
-/

namespace EntityRelation.Dependency

/-- An order of declaration, and the edges that were given up for it. -/
structure Order where
  /-- The entities in the order of their declarations. -/
  placed : List Nat
  /-- The edges that were given up, in the order in which this happened. -/
  broken : List Edge
  deriving DecidableEq, Repr

namespace Graph

/-- The waiting entities that have no waiting parent. -/
def roots (g : Graph) (waiting : List Nat) : List Nat :=
  waiting.filter fun e => !waiting.any fun p => p != e && g.joins p e

/-- How many waiting parents an entity has. -/
def parentCount (g : Graph) (waiting : List Nat) (e : Nat) : Nat :=
  waiting.countP fun p => g.joins p e

/-- The first soft edge between waiting entities. -/
def softEdge? (g : Graph) (waiting : List Nat) : Option Edge :=
  waiting.findSome? fun c => waiting.findSome? fun p =>
    match g.strength? p c with
    | some .soft => some ⟨p, c, .soft⟩
    | _ => none

/-- The waiting entities by the number of their waiting parents, fewest first. -/
def ranked (g : Graph) (waiting : List Nat) : List Nat :=
  waiting.mergeSort fun a b => g.parentCount waiting a ≤ g.parentCount waiting b

/-- The first edge between waiting entities into one with the fewest waiting parents. -/
def anyEdge? (g : Graph) (waiting : List Nat) : Option Edge :=
  (g.ranked waiting).findSome? fun c => waiting.findSome? fun p =>
    (g.strength? p c).map fun s => ⟨p, c, s⟩

/-- The edge that is given up when every waiting entity has a waiting parent. -/
def edgeToBreak? (g : Graph) (waiting : List Nat) : Option Edge :=
  (g.softEdge? waiting).or (g.anyEdge? waiting)

/-- An edge that is given up is an edge of the graph. -/
theorem strength?_of_edgeToBreak? {g : Graph} {waiting : List Nat} {e : Edge}
    (h : g.edgeToBreak? waiting = some e) : g.strength? e.parent e.child = some e.strength := by
  rcases Option.or_eq_some_iff.1 h with h | ⟨-, h⟩
  · obtain ⟨c, -, h⟩ := List.exists_of_findSome?_eq_some h
    obtain ⟨p, -, h⟩ := List.exists_of_findSome?_eq_some h
    split at h
    · rename_i hs
      cases h
      exact hs
    · cases h
  · obtain ⟨c, -, h⟩ := List.exists_of_findSome?_eq_some h
    obtain ⟨p, -, h⟩ := List.exists_of_findSome?_eq_some h
    obtain ⟨s, hs, rfl⟩ := Option.map_eq_some_iff.1 h
    exact hs

/-- The entities that still wait after a round. -/
def others (waiting placed : List Nat) : List Nat := waiting.filter fun e => !placed.contains e

/-- Something is placed, so less waits. -/
theorem length_others_roots_lt {g : Graph} {waiting : List Nat} (h : g.roots waiting ≠ []) :
    (others waiting (g.roots waiting)).length < waiting.length := by
  obtain ⟨e, he⟩ := List.exists_mem_of_ne_nil _ h
  refine List.length_filter_lt_length_iff_exists.2 ⟨e, (List.mem_filter.1 he).1, ?_⟩
  simp [he]

/-- The order in which the waiting entities are declared. -/
def sort (g : Graph) (waiting : List Nat) : Except Failure Order :=
  if waiting = [] then .ok ⟨[], []⟩
  else if _ : g.roots waiting = [] then
    match _ : g.edgeToBreak? waiting with
    | none => .error (.stalled waiting.length)
    | some e => do
      let o ← (g.remove e.parent e.child).sort waiting
      .ok { o with broken := e :: o.broken }
  else do
    let o ← g.sort (others waiting (g.roots waiting))
    .ok { o with placed := g.roots waiting ++ o.placed }
termination_by waiting.length + g.size
decreasing_by
  · have := size_remove_lt (strength?_of_edgeToBreak? ‹_›)
    omega
  · have := length_others_roots_lt ‹_›
    omega

end Graph

end EntityRelation.Dependency
