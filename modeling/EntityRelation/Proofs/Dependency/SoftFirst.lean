import EntityRelation.Proofs.Cycle
import EntityRelation.Proofs.Dependency.OfSchema
import EntityRelation.Proofs.Schema.Resolution

/-!
# Soft edges are given up first

A hard edge is given up only when no soft edge joins two waiting entities. Two things follow for
whole runs, and `Order.PrefersSoft` states them: all soft edges that are given up come before all
hard ones, and if the hard edges between the listed entities do not lead back, no hard edge is given
up, so that every one of them points forward in the order. **`hard_edges_kept_unless_cyclic`**: this
is true of the order of every graph that a history leaves, and so in every schema whose many-to-one
links do not lead back the target of each of them comes before its owner.

Since nothing is added to the graph or to the waiting entities, a soft edge that is not there does
not come back (`Order.Respects.hard_of_softEdge?_eq_none`). And where nothing can be placed and no
edge is soft, every waiting entity has a hard edge from another one, so the hard edges lead back
(`not_acyclic_of_stall`).
-/

namespace EntityRelation

namespace Dependency

/-- A hard edge goes from one listed entity to another. -/
def Graph.JoinsHard (g : Graph) (entities : List Nat) (p c : Nat) : Prop :=
  p ∈ entities ∧ c ∈ entities ∧ g.strength? p c = some .hard

/-- Soft edges are given up before hard ones, and hard ones only if they lead back. -/
structure Order.PrefersSoft (o : Order) (g : Graph) (entities : List Nat) : Prop where
  /-- All soft edges that are given up come before all hard ones. -/
  soft_first : ∃ softs hards, o.broken = softs ++ hards ∧ (∀ e ∈ softs, e.strength = .soft) ∧
    ∀ e ∈ hards, e.strength = .hard
  /-- If the hard edges do not lead back, none of them is given up. -/
  hard_kept : Acyclic (g.JoinsHard entities) → ∀ e ∈ o.broken, e.strength = .soft
  /-- If the hard edges do not lead back, both entities of each are placed, the parent before the
  child. -/
  hard_forward : Acyclic (g.JoinsHard entities) → ∀ p c, g.JoinsHard entities p c →
    p ∈ o.placed ∧ c ∈ o.placed ∧ Before o.placed p c

namespace Graph

variable {g : Graph} {waiting entities : List Nat} {o : Order} {e : Edge}

/-! ### One round -/

theorem softEdge?_eq_none_iff : g.softEdge? waiting = none ↔
    ∀ p ∈ waiting, ∀ c ∈ waiting, g.strength? p c ≠ some .soft := by
  simp only [softEdge?, List.findSome?_eq_none_iff]
  constructor
  · intro h p hp c hc hs
    have hpc := h c hc p hp
    rw [hs] at hpc
    cases hpc
  · intro h c hc p hp
    split
    case h_1 hs => exact absurd hs (h p hp c hc)
    case h_2 => rfl

/-- The edge that is given up is soft, or there was no soft one. -/
theorem edgeToBreak?_cases (h : g.edgeToBreak? waiting = some e) :
    e.strength = .soft ∨ (g.softEdge? waiting = none ∧ g.anyEdge? waiting = some e) := by
  rcases Option.or_eq_some_iff.1 h with h | h
  · exact .inl (softEdge?_spec h).2.2.2
  · exact .inr h

/-- Hard edges that are left after a removal were there before. -/
theorem JoinsHard.of_remove {p c p' c' : Nat} (h : (g.remove p' c').JoinsHard entities p c) :
    g.JoinsHard entities p c := by
  obtain ⟨hp, hc, hs⟩ := h
  rw [strength?_remove] at hs
  split at hs
  case isTrue => cases hs
  case isFalse => exact ⟨hp, hc, hs⟩

/-- Where nothing can be placed and no edge is soft, the hard edges lead back. -/
theorem not_acyclic_of_stall (hw : waiting ≠ []) (hr : g.roots waiting = [])
    (hn : g.softEdge? waiting = none) : ¬ Acyclic (g.JoinsHard waiting) := by
  intro hac
  obtain ⟨c, hc, hfirst⟩ := hac.exists_first hw
  obtain ⟨p, hp, hj, -⟩ := exists_parent_of_roots_eq_nil hr hc
  obtain ⟨s, hs⟩ := joins_iff.1 hj
  cases s with
  | soft => exact softEdge?_eq_none_iff.1 hn p hp c hc hs
  | hard => exact hfirst p hp ⟨hp, hc, hs⟩

end Graph

open Dependency.Graph

variable {g : Graph} {waiting entities : List Nat} {o : Order}

/-! ### All rounds -/

/-- Where no edge is soft, what is given up is hard. -/
theorem Order.Respects.hard_of_softEdge?_eq_none (h : o.Respects g entities)
    (hn : g.softEdge? entities = none) : ∀ e ∈ o.broken, e.strength = .hard := by
  intro e he
  obtain ⟨hp, hc, hs⟩ := h.mem_broken e he
  cases hk : e.strength with
  | soft => exact absurd (hs.trans (congrArg some hk)) (softEdge?_eq_none_iff.1 hn _ hp _ hc)
  | hard => rfl

/-- All soft edges that are given up come before all hard ones. -/
theorem Graph.Rounds.soft_first {n : Nat} (h : Rounds n g waiting o)
    (hg : ∀ p, g.strength? p p = none) : ∃ softs hards, o.broken = softs ++ hards ∧
      (∀ e ∈ softs, e.strength = .soft) ∧ ∀ e ∈ hards, e.strength = .hard := by
  induction h with
  | done => exact ⟨[], [], rfl, fun _ h => absurd h List.not_mem_nil,
      fun _ h => absurd h List.not_mem_nil⟩
  | place _ _ ih => exact ih hg
  | @giveUp n g waiting e o hw hr he hrest ih =>
    rcases edgeToBreak?_cases he with hs | ⟨hn, -⟩
    · obtain ⟨softs, hards, hb, hsoft, hhard⟩ := ih (strength?_remove_self hg _ _)
      exact ⟨e :: softs, hards, congrArg (e :: ·) hb, List.forall_mem_cons.2 ⟨hs, hsoft⟩, hhard⟩
    · have hresp := (Rounds.giveUp hw hr he hrest).respects hg
      exact ⟨[], e :: o.broken, rfl, fun _ h => absurd h List.not_mem_nil,
        hresp.hard_of_softEdge?_eq_none hn⟩

/-- If the hard edges do not lead back, what is given up is soft. -/
theorem Graph.Rounds.soft_of_acyclic {n : Nat} (h : Rounds n g waiting o)
    (hac : Acyclic (g.JoinsHard waiting)) : ∀ e ∈ o.broken, e.strength = .soft := by
  induction h with
  | done => exact fun _ h => absurd h List.not_mem_nil
  | place _ _ ih =>
    refine ih (hac.mono fun p c h => ?_)
    exact ⟨(mem_others.1 h.1).1, (mem_others.1 h.2.1).1, h.2.2⟩
  | giveUp hw hr he _ ih =>
    rcases edgeToBreak?_cases he with hs | ⟨hn, -⟩
    · exact List.forall_mem_cons.2 ⟨hs, ih (hac.mono fun p c h => h.of_remove)⟩
    · exact absurd hac (not_acyclic_of_stall hw hr hn)

/-- A hard edge is not among soft edges that were given up. -/
theorem Order.Respects.notMem_broken_of_soft (h : o.Respects g entities)
    (hsoft : ∀ e ∈ o.broken, e.strength = .soft) {p c : Nat}
    (hs : g.strength? p c = some .hard) : (p, c) ∉ o.broken.map Edge.ends := by
  intro hm
  obtain ⟨e, he, hee⟩ := List.mem_map.1 hm
  obtain ⟨rfl, rfl⟩ : e.parent = p ∧ e.child = c := Prod.mk.inj hee
  obtain ⟨-, -, hes⟩ := h.mem_broken e he
  rw [hs, hsoft e he] at hes
  cases hes

/-- The order of a graph without edges from an entity to itself prefers soft edges. -/
theorem Graph.Rounds.prefersSoft {n : Nat} (h : Rounds n g entities o)
    (hg : ∀ p, g.strength? p p = none) : o.PrefersSoft g entities where
  soft_first := h.soft_first hg
  hard_kept := h.soft_of_acyclic
  hard_forward := by
    intro hac p c ⟨hp, hc, hs⟩
    have hresp := h.respects hg
    exact hresp.placed_before hp hc (joins_iff.2 ⟨_, hs⟩)
      (hresp.notMem_broken_of_soft (h.soft_of_acyclic hac) hs)

/-- Every graph that a history leaves is sorted, and its order prefers to give up soft edges. -/
theorem Graph.exists_prefersSoft (history : List Change) (entities : List Nat) :
    ∃ o, (ofHistory history).sort entities = .ok o ∧
      o.PrefersSoft (ofHistory history) entities := by
  obtain ⟨n, o, h, -⟩ := exists_rounds (ofHistory history) entities
  exact ⟨o, h.sort_eq, h.prefersSoft (strength?_ofHistory_self history)⟩

end Dependency

open Dependency

/-- If the hard edges of a schema do not lead back, targets of many-to-one links come first. -/
theorem Schema.exists_order_before {s : Schema} {es : List Entity} {rs : List Relationship}
    (hr : s.Resolves es rs) (hac : Acyclic (s.graph.JoinsHard s.ids)) :
    ∃ o, s.order.outcome = .ok o ∧ ∀ l ∈ s.links, ∀ side, l.IsManyToOne side →
      (l.endAt side).entity ≠ (l.endAt side.opposite).entity →
        (l.endAt side.opposite).entity ∈ o.placed ∧ (l.endAt side).entity ∈ o.placed ∧
          Before o.placed (l.endAt side.opposite).entity (l.endAt side).entity := by
  obtain ⟨o, ho, hsoft⟩ := exists_order_of_ofHistory
    (P := fun g entities o => o.PrefersSoft g entities) Graph.exists_prefersSoft s
  refine ⟨o, ho, fun l hl side hm hne => ?_⟩
  exact hsoft.hard_forward hac _ _ ⟨List.mem_range.2 (hr.entity_lt hl _),
    List.mem_range.2 (hr.entity_lt hl _), strength?_graph_of_isManyToOne hl hm hne⟩

/-- **Hard edges are kept unless they lead back**: a graph that a history leaves is sorted, and the
order prefers to give up soft edges; and in a schema whose hard edges do not lead back the target of
every many-to-one link stands before its owner. -/
theorem hard_edges_kept_unless_cyclic :
    (∀ (history : List Change) (entities : List Nat), ∃ o,
      (Graph.ofHistory history).sort entities = .ok o ∧
        o.PrefersSoft (Graph.ofHistory history) entities) ∧
    ∀ (es : List Entity) (rs : List Relationship) (s : Schema),
      (Schema.build es rs).outcome = .ok s → Acyclic (s.graph.JoinsHard s.ids) →
        ∃ o, s.order.outcome = .ok o ∧ ∀ l ∈ s.links, ∀ side, l.IsManyToOne side →
          (l.endAt side).entity ≠ (l.endAt side.opposite).entity →
            (l.endAt side.opposite).entity ∈ o.placed ∧ (l.endAt side).entity ∈ o.placed ∧
              Before o.placed (l.endAt side.opposite).entity (l.endAt side).entity :=
  ⟨Graph.exists_prefersSoft, fun _ _ _ hs hac =>
    Schema.exists_order_before (Schema.resolves_of_build hs) hac⟩

/-- Two hard edges in a row and two soft ones that lead back. -/
def Dependency.Change.rowWithSoftCycles : List Change :=
  [.add 0 1 .hard, .add 1 2 .hard, .add 2 0 .soft, .add 1 0 .soft]

/-- The hard edges in the row are kept. -/
theorem hard_edges_kept_in_soft_cycles :
    Acyclic ((Graph.ofHistory Change.rowWithSoftCycles).JoinsHard [2, 1, 0]) ∧
      ∃ o, (Graph.ofHistory Change.rowWithSoftCycles).sort [2, 1, 0] = .ok o ∧
        (∀ e ∈ o.broken, e.strength = .soft) ∧
          ∀ p c, (Graph.ofHistory Change.rowWithSoftCycles).JoinsHard [2, 1, 0] p c →
            p ∈ o.placed ∧ c ∈ o.placed ∧ Before o.placed p c := by
  have hup : ∀ p ∈ [2, 1, 0], ∀ c ∈ [2, 1, 0],
      (Graph.ofHistory Change.rowWithSoftCycles).strength? p c = some .hard → p < c := by decide
  have hac : Acyclic ((Graph.ofHistory Change.rowWithSoftCycles).JoinsHard [2, 1, 0]) :=
    @acyclic_of_rank _ _ id fun p c h => hup p h.1 c h.2.1 h.2.2
  obtain ⟨o, ho, hsoft⟩ := hard_edges_kept_unless_cyclic.1 Change.rowWithSoftCycles [2, 1, 0]
  exact ⟨hac, o, ho, hsoft.hard_kept hac, hsoft.hard_forward hac⟩

end EntityRelation
