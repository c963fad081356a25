import EntityRelation.Dependency.Strength

/-!
# Dependency graphs

Edges from a parent to a child that has to be declared after it. No entity is its own parent, and
between two entities there is at most one edge in each direction; adding it again keeps the
stronger of the two. Edges are listed by parent, the parents in the order in which they first got
a child, and the children of a parent in the order in which they were added, where an edge that was
removed counts as new when it comes back.
-/

namespace EntityRelation.Dependency

/-- A child that has to be declared after its parent. -/
structure Edge where
  /-- What comes first. -/
  parent : Nat
  /-- What comes after it. -/
  child : Nat
  /-- How strongly. -/
  strength : Strength
  deriving DecidableEq, Repr

/-- The edge goes from `parent` to `child`. -/
def Edge.joins (e : Edge) (parent child : Nat) : Bool := e.parent == parent && e.child == child

/-- A set of edges with an order. -/
structure Graph where
  /-- Everything that ever had a child, in the order of the first one. -/
  parents : List Nat
  /-- The edges in the order in which they were added. -/
  edges : List Edge
  deriving DecidableEq, Repr

namespace Graph

/-- The graph without edges. -/
def empty : Graph := ⟨[], []⟩

/-- The strength of the edge from `parent` to `child`, if there is one. -/
def strength? (g : Graph) (parent child : Nat) : Option Strength :=
  (g.edges.find? (·.joins parent child)).map (·.strength)

/-- There is an edge from `parent` to `child`. -/
def joins (g : Graph) (parent child : Nat) : Bool := (g.strength? parent child).isSome

/-- The graph with an edge from `parent` to `child` that is at least as strong as given. -/
def add (g : Graph) (parent child : Nat) (strength : Strength) : Graph :=
  if parent = child then g
  else
    { parents := if g.parents.contains parent then g.parents else g.parents ++ [parent]
      edges :=
        if g.joins parent child then
          g.edges.map fun e =>
            if e.joins parent child then { e with strength := e.strength.max strength } else e
        else g.edges ++ [⟨parent, child, strength⟩] }

/-- The graph without the edge from `parent` to `child`. -/
def remove (g : Graph) (parent child : Nat) : Graph :=
  { g with edges := g.edges.filter fun e => !e.joins parent child }

/-- The edge from `parent` to `child` is taken out: how strong it was, if it was there, and the graph
that is left. -/
def extract (g : Graph) (parent child : Nat) : Option Strength × Graph :=
  let (taken, left) := g.edges.partition (·.joins parent child)
  (taken.head?.map (·.strength), { g with edges := left })

/-- What is taken out is the edge, and what is left is the graph without it. -/
theorem extract_eq (g : Graph) (parent child : Nat) :
    g.extract parent child = (g.strength? parent child, g.remove parent child) := by
  simp only [extract, List.partition_eq_filter_filter, List.head?_filter]
  rfl

/-- The edges by parent. -/
def toList (g : Graph) : List Edge :=
  g.parents.flatMap fun p => g.edges.filter fun e => e.parent == p

/-- The number of edges. -/
def size (g : Graph) : Nat := g.edges.length

/-- Taking an edge away leaves fewer edges. -/
theorem size_remove_lt {g : Graph} {parent child : Nat} {s : Strength}
    (h : g.strength? parent child = some s) : (g.remove parent child).size < g.size := by
  obtain ⟨e, he, -⟩ := Option.map_eq_some_iff.1 h
  refine List.length_filter_lt_length_iff_exists.2 ⟨e, List.mem_of_find?_eq_some he, ?_⟩
  simp [List.find?_some he]

end Graph

end EntityRelation.Dependency
