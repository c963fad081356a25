import EntityRelation.Proofs.Dependency.Rounds
import EntityRelation.Proofs.Places

/-!
# Orders respect the edges that are kept

An order of declaration is held against the graph that was sorted. **`Graph.sort_respects_edges`**:
for every graph that a history of changes leaves and every list of entities, with repeats or
without, the sort answers; it places every entity as often as it is listed; what it gives up are
edges of the graph between listed entities, each once and with the strength it has in the graph;
and of every edge that is not given up the parent stands before the child.

The invariant is `Order.Respects`. It is stated about the graph at the start of a run and not about
the graph that is left, so that a run can be taken apart from its first round: a round that places
entities puts them before everything else (`Order.Respects.place`), and a round that gives up an
edge leaves a graph with the same edges but for that one (`Order.Respects.giveUp`).
-/

namespace EntityRelation.Dependency

/-- The two entities that an edge joins. -/
def Edge.ends (e : Edge) : Nat × Nat := (e.parent, e.child)

/-- The order places the entities and gives up edges of the graph between them, and every other
edge between them points forward. -/
structure Order.Respects (o : Order) (g : Graph) (entities : List Nat) : Prop where
  /-- Every entity is placed as often as it is listed. -/
  placed_perm : o.placed.Perm entities
  /-- No edge is given up twice. -/
  broken_nodup : (o.broken.map Edge.ends).Nodup
  /-- What is given up is an edge between listed entities, with the strength it has. -/
  mem_broken : ∀ e ∈ o.broken, e.parent ∈ entities ∧ e.child ∈ entities ∧
    g.strength? e.parent e.child = some e.strength
  /-- The parent of an edge that is not given up stands before the child. -/
  before : ∀ p ∈ entities, ∀ c ∈ entities, g.joins p c = true →
    (p, c) ∉ o.broken.map Edge.ends → Before o.placed p c

open Dependency.Graph

variable {g : Graph} {waiting : List Nat} {o : Order}

/-- Both entities of an edge that is not given up are placed, the parent before the child. -/
theorem Order.Respects.placed_before {entities : List Nat} (h : o.Respects g entities) {p c : Nat}
    (hp : p ∈ entities) (hc : c ∈ entities) (hj : g.joins p c = true)
    (hb : (p, c) ∉ o.broken.map Edge.ends) :
    p ∈ o.placed ∧ c ∈ o.placed ∧ Before o.placed p c :=
  ⟨h.placed_perm.mem_iff.2 hp, h.placed_perm.mem_iff.2 hc, h.before p hp c hc hj hb⟩

/-- A round that places the roots. -/
theorem Order.Respects.place (hg : ∀ p, g.strength? p p = none)
    (h : o.Respects g (others waiting (g.roots waiting))) :
    (Order.mk (g.roots waiting ++ o.placed) o.broken).Respects g waiting where
  placed_perm := (h.placed_perm.append_left _).trans (roots_append_others_perm g waiting)
  broken_nodup := h.broken_nodup
  mem_broken e he := by
    obtain ⟨hp, hc, hs⟩ := h.mem_broken e he
    exact ⟨(mem_others.1 hp).1, (mem_others.1 hc).1, hs⟩
  before p hp c hc hj hb := by
    have hc' : c ∉ g.roots waiting := fun hr => by
      obtain ⟨s, hs⟩ := joins_iff.1 hj
      rw [(mem_roots.1 hr).2 p hp hj, hg] at hs
      cases hs
    refine Before.append_left hc' ?_
    by_cases hr : p ∈ g.roots waiting
    · refine before_of_not_mem fun hm => ?_
      exact (mem_others.1 (h.placed_perm.mem_iff.1 hm)).2 hr
    · exact h.before p (mem_others.2 ⟨hp, hr⟩) c (mem_others.2 ⟨hc, hc'⟩) hj hb

/-- A round that gives up an edge. -/
theorem Order.Respects.giveUp {e : Edge} (he : g.edgeToBreak? waiting = some e)
    (h : o.Respects (g.remove e.parent e.child) waiting) :
    (Order.mk o.placed (e :: o.broken)).Respects g waiting where
  placed_perm := h.placed_perm
  broken_nodup := by
    refine List.nodup_cons.2 ⟨fun hm => ?_, h.broken_nodup⟩
    obtain ⟨x, hx, hxe⟩ := List.mem_map.1 hm
    obtain ⟨-, -, hs⟩ := h.mem_broken x hx
    rw [strength?_remove, if_pos (Prod.mk.inj hxe)] at hs
    cases hs
  mem_broken x hx := by
    rcases List.mem_cons.1 hx with rfl | hx
    · exact edgeToBreak?_spec he
    · obtain ⟨hp, hc, hs⟩ := h.mem_broken x hx
      rw [strength?_remove] at hs
      split at hs
      case isTrue => cases hs
      case isFalse => exact ⟨hp, hc, hs⟩
  before p hp c hc hj hb := by
    obtain ⟨hne, hb⟩ := not_or.1 (fun h => hb (List.mem_cons.2 h))
    refine h.before p hp c hc ?_ hb
    rwa [joins, strength?_remove, if_neg fun h => hne (Prod.ext h.1 h.2)]

/-- What any number of rounds reaches respects the graph they start from. -/
theorem Graph.Rounds.respects {n : Nat} (h : Rounds n g waiting o)
    (hg : ∀ p, g.strength? p p = none) : o.Respects g waiting := by
  induction h with
  | done =>
    exact ⟨.refl _, .nil, fun _ h => absurd h List.not_mem_nil,
      fun _ h => absurd h List.not_mem_nil⟩
  | place _ _ ih => exact (ih hg).place hg
  | giveUp _ _ he _ ih => exact Order.Respects.giveUp he (ih (strength?_remove_self hg _ _))

/-- **Orders respect the edges that are kept**: a graph that a history leaves is sorted, and the
order respects it. -/
theorem Graph.sort_respects_edges (history : List Change) (entities : List Nat) :
    ∃ o, (ofHistory history).sort entities = .ok o ∧ o.Respects (ofHistory history) entities := by
  obtain ⟨n, o, h, -⟩ := exists_rounds (ofHistory history) entities
  exact ⟨o, h.sort_eq, h.respects (strength?_ofHistory_self history)⟩

end EntityRelation.Dependency
