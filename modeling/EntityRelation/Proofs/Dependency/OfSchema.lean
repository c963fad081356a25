import EntityRelation.Dependency.OfSchema
import EntityRelation.Proofs.Dependency.Respect
import EntityRelation.Proofs.Schema.Ownership

/-!
# The graph and the order of a schema

The graph of a schema is what a history of additions leaves, one for every key that orders its
entities, so it has an edge exactly where there is such a key (`joins_graph_iff`). Every schema has
an order, and it respects the graph (`exists_order`).
-/

namespace EntityRelation

open Dependency

namespace Dependency.Graph

/-- Additions join what is joined already and the different ends of the new edges. -/
theorem joins_foldl_add_iff (es : List Edge) (g : Graph) (p c : Nat) :
    (es.foldl (fun g e => g.add e.parent e.child e.strength) g).joins p c = true ↔
      g.joins p c = true ∨ ∃ e ∈ es, e.parent = p ∧ e.child = c ∧ p ≠ c := by
  induction es generalizing g with
  | nil => simp
  | cons e es ih =>
    rw [List.foldl_cons, ih, joins_add_iff, or_assoc]
    simp only [List.mem_cons, exists_eq_or_imp]

/-- Additions leave hard what is hard already, and make hard what one of the new edges is. -/
theorem strength?_foldl_add_eq_hard_iff (es : List Edge) (g : Graph) (p c : Nat) :
    (es.foldl (fun g e => g.add e.parent e.child e.strength) g).strength? p c = some .hard ↔
      g.strength? p c = some .hard ∨
        ∃ e ∈ es, e.parent = p ∧ e.child = c ∧ p ≠ c ∧ e.strength = .hard := by
  induction es generalizing g with
  | nil => simp
  | cons e es ih =>
    rw [List.foldl_cons, ih, strength?_add_eq_hard_iff, or_assoc]
    simp only [List.mem_cons, exists_eq_or_imp]

end Dependency.Graph

namespace Schema

variable {s : Schema}

/-- The graph of a schema is left by a history. -/
theorem graph_eq_ofHistory (s : Schema) :
    s.graph = Graph.ofHistory (s.dependencies.map fun e => .add e.parent e.child e.strength) := by
  rw [graph, Graph.ofHistory, List.foldl_map]
  rfl

theorem dependencyAt?_eq_some_iff {l : Link} {side : Side} {e : Edge} :
    s.dependencyAt? l side = some e ↔ s.keyPlace l side = .here ∧ ∃ k, l.strength? side = some k ∧
      e = ⟨(l.endAt side.opposite).entity, (l.endAt side).entity, k⟩ := by
  rw [dependencyAt?]
  cases s.keyPlace l side <;> simp [Option.map_eq_some_iff, eq_comm (b := e)]

theorem mem_dependencies {e : Edge} :
    e ∈ s.dependencies ↔ ∃ l ∈ s.links, ∃ side, s.dependencyAt? l side = some e := by
  simp only [dependencies, List.mem_flatMap, List.mem_filterMap]
  refine exists_congr fun l => and_congr_right fun _ => exists_congr fun side => ?_
  cases side <;> simp

/-- The graph has an edge exactly where a key orders two entities. -/
theorem joins_graph_iff {p c : Nat} : s.graph.joins p c = true ↔
    p ≠ c ∧ ∃ l ∈ s.links, ∃ side, s.keyPlace l side = .here ∧ (l.strength? side).isSome = true ∧
      (l.endAt side.opposite).entity = p ∧ (l.endAt side).entity = c := by
  rw [graph, Graph.joins_foldl_add_iff]
  simp only [mem_dependencies, dependencyAt?_eq_some_iff, Option.isSome_iff_exists]
  constructor
  · rintro (h | ⟨e, ⟨l, hl, side, hk, k, hs, rfl⟩, rfl, rfl, hne⟩)
    · cases h
    · exact ⟨hne, l, hl, side, hk, ⟨k, hs⟩, rfl, rfl⟩
  · rintro ⟨hne, l, hl, side, hk, ⟨k, hs⟩, rfl, rfl⟩
    exact .inr ⟨_, ⟨l, hl, side, hk, k, hs, rfl⟩, rfl, rfl, hne⟩

/-- The edge for the key at a many end is hard. -/
theorem strength?_graph_of_isManyToOne {l : Link} (hl : l ∈ s.links) {side : Side}
    (h : l.IsManyToOne side) (hne : (l.endAt side).entity ≠ (l.endAt side.opposite).entity) :
    s.graph.strength? (l.endAt side.opposite).entity (l.endAt side).entity = some .hard := by
  have he : s.dependencyAt? l side =
      some ⟨(l.endAt side.opposite).entity, (l.endAt side).entity, .hard⟩ :=
    dependencyAt?_eq_some_iff.2 ⟨s.keyPlace_of_isManyToOne h, .hard, h.strength?_eq hne, rfl⟩
  rw [graph, Graph.strength?_foldl_add_eq_hard_iff]
  exact .inr ⟨_, mem_dependencies.2 ⟨l, hl, side, he⟩, rfl, rfl, hne.symm, rfl⟩

/-- What is reported on the way does not matter. -/
theorem outcome_order (s : Schema) : s.order.outcome = s.graph.sort s.ids := by
  simp only [order, reportGraph, Logged.outcome_bind, Logged.outcome_liftM,
    Logged.outcome_reportAll, Logged.outcome_pure]
  cases h : s.graph.sort s.ids <;> simp [bind, Except.bind, h]

/-- What is true of the orders of all graphs that a history leaves is true of an order of every
schema. -/
theorem exists_order_of_ofHistory {P : Graph → List Nat → Order → Prop}
    (h : ∀ history entities, ∃ o, (Graph.ofHistory history).sort entities = .ok o ∧
      P (Graph.ofHistory history) entities o) (s : Schema) :
    ∃ o, s.order.outcome = .ok o ∧ P s.graph s.ids o := by
  obtain ⟨o, ho, hP⟩ := h (s.dependencies.map fun e => .add e.parent e.child e.strength) s.ids
  rw [← s.graph_eq_ofHistory] at ho hP
  exact ⟨o, s.outcome_order.trans ho, hP⟩

/-- Every schema has an order, and it respects the graph. -/
theorem exists_order (s : Schema) : ∃ o, s.order.outcome = .ok o ∧ o.Respects s.graph s.ids := by
  obtain ⟨n, o, h, -⟩ := Graph.exists_rounds s.graph s.ids
  refine ⟨o, (outcome_order s).trans h.sort_eq, h.respects fun p => ?_⟩
  rw [graph_eq_ofHistory, Graph.strength?_ofHistory_self]

end Schema

end EntityRelation
