import EntityRelation.Proofs.Dependency.Layers
import EntityRelation.Proofs.Dependency.SoftFirst

/-!
# Edges ahead of all cycles are kept

An edge is given up when every waiting entity has a waiting parent. The waiting entities are then
those on cycles and all that are behind them, and the edge is chosen without a look at which is
which. So an edge that is on no cycle may be lost, soft or hard, if its parent is behind one
(`Graph.lost_behind_cycle`). **`Graph.kept_unless_behind_cycle`** says that nothing else is lost:
the edge from a parent to a child is kept, and the parent stands before the child, unless the parent
is on a cycle of edges between listed entities or behind one. For a hard edge only cycles of hard
edges count, since no soft edge joins two waiting entities when a hard one is given up.
-/

namespace EntityRelation.Dependency

/-- The edges between listed entities that are as strong as given or stronger. -/
def Graph.JoinsAs (g : Graph) (entities : List Nat) : Strength → Nat → Nat → Prop
  | .soft => g.JoinsWithin entities
  | .hard => g.JoinsHard entities

/-- An edge whose parent no cycle leads to is kept, and both its entities are placed, the parent
before the child; a cycle counts if its edges are as strong as the edge or stronger. -/
def Order.KeepsAhead (o : Order) (g : Graph) (entities : List Nat) : Prop :=
  ∀ p ∈ entities, ∀ c ∈ entities, ∀ s, g.strength? p c = some s →
    ¬ BehindCycle (g.JoinsAs entities s) p → (p, c) ∉ o.broken.map Edge.ends ∧
      p ∈ o.placed ∧ c ∈ o.placed ∧ Before o.placed p c

namespace Graph

variable {g : Graph} {waiting entities : List Nat} {o : Order} {e : Edge} {n : Nat}

/-- Among more entities there are more edges. -/
theorem JoinsAs.mono {s : Strength} {p c : Nat} (h : g.JoinsAs waiting s p c)
    (hsub : ∀ e ∈ waiting, e ∈ entities) : g.JoinsAs entities s p c := by
  cases s with
  | soft => exact ⟨hsub p h.1, hsub c h.2.1, h.2.2⟩
  | hard => exact ⟨hsub p h.1, hsub c h.2.1, h.2.2⟩

/-- Edges that are left after a removal were there before. -/
theorem JoinsAs.of_remove {s : Strength} {p c p' c' : Nat}
    (h : (g.remove p' c').JoinsAs entities s p c) : g.JoinsAs entities s p c := by
  cases s with
  | soft => exact ⟨h.1, h.2.1, (joins_remove_iff.1 h.2.2).1⟩
  | hard => exact JoinsHard.of_remove h

/-- Where no edge is soft and the entities wait in the order of the numbers of their parents, the
first edge is given up. -/
theorem edgeToBreak?_of_pairwise (hn : g.softEdge? waiting = none)
    (h : waiting.Pairwise fun a b => g.parentCount waiting a ≤ g.parentCount waiting b) :
    g.edgeToBreak? waiting = waiting.findSome? fun c => waiting.findSome? fun p =>
      (g.strength? p c).map fun s => ⟨p, c, s⟩ := by
  have hranked : g.ranked waiting = waiting :=
    List.mergeSort_of_pairwise (by simpa only [decide_eq_true_iff] using h)
  rw [edgeToBreak?, hn, Option.none_or, anyEdge?, hranked]

/-- Where nothing can be placed, a cycle leads to the parent of the edge that is given up, and its
edges are not weaker than that one. -/
theorem behindCycle_of_edgeToBreak? (hr : g.roots waiting = [])
    (he : g.edgeToBreak? waiting = some e) :
    BehindCycle (g.JoinsAs waiting e.strength) e.parent := by
  refine behindCycle_of_forall_exists (fun c hc => ?_) (edgeToBreak?_spec he).1
  obtain ⟨p, hp, hj, -⟩ := exists_parent_of_roots_eq_nil hr hc
  refine ⟨p, hp, ?_⟩
  rcases edgeToBreak?_cases he with hsoft | ⟨hn, -⟩
  · rw [hsoft]
    exact ⟨hp, hc, hj⟩
  · obtain ⟨t, ht⟩ := joins_iff.1 hj
    cases t with
    | soft => exact absurd ht (softEdge?_eq_none_iff.1 hn p hp c hc)
    | hard =>
      cases e.strength with
      | soft => exact ⟨hp, hc, hj⟩
      | hard => exact ⟨hp, hc, ht⟩

/-- A cycle leads to the parent of every edge that is given up. -/
theorem Rounds.behindCycle_of_mem_broken (h : Rounds n g waiting o) :
    ∀ e ∈ o.broken, BehindCycle (g.JoinsAs waiting e.strength) e.parent := by
  induction h with
  | done => exact fun _ h => absurd h List.not_mem_nil
  | place _ _ ih =>
    exact fun e he => (ih e he).mono fun p c hj => hj.mono fun x hx => (mem_others.1 hx).1
  | giveUp _ hr he _ ih =>
    refine List.forall_mem_cons.2 ⟨behindCycle_of_edgeToBreak? hr he, fun x hx => ?_⟩
    exact (ih x hx).mono fun p c hj => hj.of_remove

theorem Rounds.keepsAhead (h : Rounds n g entities o) (hg : ∀ p, g.strength? p p = none) :
    o.KeepsAhead g entities := by
  intro p hp c hc s hs hahead
  have hresp := h.respects hg
  have hkept : (p, c) ∉ o.broken.map Edge.ends := by
    intro hm
    obtain ⟨e, he, hends⟩ := List.mem_map.1 hm
    obtain ⟨rfl, rfl⟩ : e.parent = p ∧ e.child = c := Prod.mk.inj hends
    obtain rfl : e.strength = s := Option.some.inj ((hresp.mem_broken e he).2.2.symm.trans hs)
    exact hahead (h.behindCycle_of_mem_broken e he)
  exact ⟨hkept, hresp.placed_before hp hc (joins_iff.2 ⟨s, hs⟩) hkept⟩

/-- **Edges ahead of all cycles are kept**: a graph that a history leaves is sorted, and an edge is
kept, its parent before its child, unless a cycle of edges that are not weaker leads to its
parent. -/
theorem kept_unless_behind_cycle (history : List Change) (entities : List Nat) :
    ∃ o, (ofHistory history).sort entities = .ok o ∧
      o.KeepsAhead (ofHistory history) entities := by
  obtain ⟨n, o, h, -⟩ := exists_rounds (ofHistory history) entities
  exact ⟨o, h.sort_eq, h.keepsAhead (strength?_ofHistory_self history)⟩

end Graph

open Dependency.Graph

/-- Two entities that have to follow each other, and two that follow the second of them. -/
def Change.cycleWithTails : List Change :=
  [.add 0 1 .hard, .add 1 0 .hard, .add 1 2 .hard, .add 1 3 .soft]

/-- Each of the two entities at the end is placed as soon as it has lost its edge. -/
theorem Graph.sort_cycleWithTails : (ofHistory Change.cycleWithTails).sort [2, 3, 0, 1] =
    .ok ⟨[3, 2, 0, 1], [⟨1, 3, .soft⟩, ⟨1, 2, .hard⟩, ⟨1, 0, .hard⟩]⟩ := by
  have h : Rounds 7 (ofHistory Change.cycleWithTails) [2, 3, 0, 1] _ :=
    .giveUp (e := ⟨1, 3, .soft⟩) (by decide) (by decide) rfl <|
    .place (by decide) <|
    .giveUp (e := ⟨1, 2, .hard⟩) (by decide) (by decide)
      (edgeToBreak?_of_pairwise (by decide) (by decide)) <|
    .place (by decide) <|
    .giveUp (e := ⟨1, 0, .hard⟩) (by decide) (by decide)
      (edgeToBreak?_of_pairwise (by decide) (by decide)) <|
    .place (by decide) <|
    .place (by decide) .done
  exact h.sort_eq

/-- Behind the cycle a hard edge and a soft one are lost, although neither is on a cycle. -/
theorem Graph.lost_behind_cycle :
    ∃ o, (ofHistory Change.cycleWithTails).sort [2, 3, 0, 1] = .ok o ∧ ∀ c ∈ [2, 3],
      (ofHistory Change.cycleWithTails).JoinsWithin [2, 3, 0, 1] 1 c ∧
        ¬ Relation.ReflTransGen ((ofHistory Change.cycleWithTails).JoinsWithin [2, 3, 0, 1]) c 1 ∧
        (1, c) ∈ o.broken.map Edge.ends ∧ ¬ Before o.placed 1 c := by
  have hedge : ∀ c ∈ [2, 3], (ofHistory Change.cycleWithTails).joins 1 c = true := by decide
  have hlast : ∀ c ∈ [2, 3], ∀ x ∈ [2, 3, 0, 1],
      (ofHistory Change.cycleWithTails).joins c x = false := by decide
  refine ⟨_, sort_cycleWithTails, fun c hc => ⟨?_, fun h => ?_, ?_, fun h => ?_⟩⟩
  · exact ⟨by decide, List.mem_append_left [0, 1] hc, hedge c hc⟩
  · rcases h.cases_head with rfl | ⟨x, ⟨-, hx, hj⟩, -⟩
    · simp at hc
    · rw [hlast c hc x hx] at hj
      cases hj
  · revert c
    decide
  · rcases List.mem_pair.1 hc with rfl | rfl
    · exact absurd (h 3 1 rfl rfl) (by decide)
    · exact absurd (h 3 0 rfl rfl) (by decide)

end EntityRelation.Dependency
