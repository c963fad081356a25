import EntityRelation.Proofs.Dependency.SoftFirst
import EntityRelation.Proofs.SortedByKey

/-!
# No hard edge is given up in vain

When all edges between waiting entities are hard, an edge into an entity with the fewest waiting
parents is given up. This entity then has fewer waiting parents than any other one (`Graph.Leads`),
and it keeps the lead: the edges that are given up next go into it as well, until none is left and
it is placed alone (`Graph.Rounds.before_of_leads`). Nothing else is placed in between, so the
parents of its edges are still waiting then, and they come after it
(`Graph.Rounds.before_of_hard`).
-/

namespace EntityRelation.Dependency

/-- Every hard edge that was given up runs against the order: both its entities are placed, and the
child stands before the parent. -/
def Order.NoneInVain (o : Order) : Prop :=
  ∀ e ∈ o.broken, e.strength = .hard →
    e.child ∈ o.placed ∧ e.parent ∈ o.placed ∧ Before o.placed e.child e.parent

namespace Graph

variable {g : Graph} {waiting : List Nat} {e : Edge} {p c d : Nat}

/-! ### Counting parents -/

/-- A removal leaves the parents of other entities. -/
theorem parentCount_remove_of_ne (h : d ≠ c) :
    (g.remove p c).parentCount waiting d = g.parentCount waiting d := by
  refine List.countP_congr fun x _ => ?_
  rw [joins_remove_iff]
  exact and_iff_left fun hx => h hx.2

/-- A removal takes a waiting parent away from the child. -/
theorem parentCount_remove_lt (hp : p ∈ waiting) (hj : g.joins p c = true) :
    (g.remove p c).parentCount waiting c < g.parentCount waiting c := by
  have hsub : (waiting.filter fun x => (g.remove p c).joins x c) =
      (waiting.filter fun x => g.joins x c).filter fun x => x != p := by
    rw [List.filter_filter]
    refine List.filter_congr fun x _ => ?_
    rw [Bool.eq_iff_iff, joins_remove_iff]
    simp [and_comm]
  rw [parentCount, parentCount, List.countP_eq_length_filter, List.countP_eq_length_filter, hsub,
    List.length_filter_lt_length_iff_exists]
  exact ⟨p, List.mem_filter.2 ⟨hp, hj⟩, by simp⟩

/-- Roots have no waiting parents. -/
theorem parentCount_of_mem_roots (hg : ∀ p, g.strength? p p = none) (h : c ∈ g.roots waiting) :
    g.parentCount waiting c = 0 := by
  refine List.countP_eq_zero.2 fun p hp hj => ?_
  obtain ⟨s, hs⟩ := joins_iff.1 hj
  rw [(mem_roots.1 h).2 p hp hj, hg] at hs
  cases hs

/-! ### The fewest parents -/

theorem pairwise_ranked (g : Graph) (waiting : List Nat) :
    (g.ranked waiting).Pairwise fun a b => g.parentCount waiting a ≤ g.parentCount waiting b :=
  pairwise_mergeSort_key (g.parentCount waiting) waiting

/-- Where nothing can be placed, an edge that is found by rank goes into an entity with the fewest
waiting parents. -/
theorem parentCount_child_le (hr : g.roots waiting = []) (h : g.anyEdge? waiting = some e) :
    ∀ d ∈ waiting, g.parentCount waiting e.child ≤ g.parentCount waiting d := by
  obtain ⟨before, c, after, hrank, hc, hnone⟩ := List.findSome?_eq_some_iff.1 h
  obtain ⟨p, hp, hpc⟩ := List.exists_of_findSome?_eq_some hc
  obtain ⟨s, -, rfl⟩ := Option.map_eq_some_iff.1 hpc
  -- every waiting entity has a waiting parent, so the search ends at the first one by rank
  have hfirst : before = [] := by
    refine List.eq_nil_iff_forall_not_mem.2 fun x hx => ?_
    have hxw : x ∈ waiting := mem_ranked.1 (hrank ▸ List.mem_append_left _ hx)
    obtain ⟨q, hq, hj, -⟩ := exists_parent_of_roots_eq_nil hr hxw
    obtain ⟨t, ht⟩ := joins_iff.1 hj
    have hq := List.findSome?_eq_none_iff.1 (hnone x hx) q hq
    rw [ht] at hq
    cases hq
  have hsorted := g.pairwise_ranked waiting
  rw [hrank, hfirst, List.nil_append, List.pairwise_cons] at hsorted
  intro d hd
  have hmem : d ∈ g.ranked waiting := mem_ranked.2 hd
  rw [hrank, hfirst, List.nil_append] at hmem
  rcases List.mem_cons.1 hmem with rfl | hd
  · exact Nat.le_refl _
  · exact hsorted.1 d hd

/-! ### The lead -/

/-- All edges between waiting entities are hard, and one entity has fewer waiting parents than any
other. -/
structure Leads (g : Graph) (waiting : List Nat) (c : Nat) : Prop where
  /-- The entity waits. -/
  waits : c ∈ waiting
  /-- No edge is soft. -/
  no_soft : g.softEdge? waiting = none
  /-- Any other entity has more waiting parents. -/
  fewest : ∀ d ∈ waiting, d ≠ c → g.parentCount waiting c < g.parentCount waiting d

theorem softEdge?_remove (h : g.softEdge? waiting = none) (p c : Nat) :
    (g.remove p c).softEdge? waiting = none := by
  rw [softEdge?_eq_none_iff] at h ⊢
  intro p' hp' c' hc' hs
  rw [strength?_remove] at hs
  split at hs
  case isTrue => cases hs
  case isFalse => exact h p' hp' c' hc' hs

/-- An edge that is given up where no edge is soft gives its child the lead. -/
theorem leads_remove (hr : g.roots waiting = []) (hn : g.softEdge? waiting = none)
    (h : g.anyEdge? waiting = some e) : (g.remove e.parent e.child).Leads waiting e.child where
  waits := (anyEdge?_spec h).2.1
  no_soft := softEdge?_remove hn _ _
  fewest d hd hne := by
    obtain ⟨hp, -, hs⟩ := anyEdge?_spec h
    calc (g.remove e.parent e.child).parentCount waiting e.child
        < g.parentCount waiting e.child := parentCount_remove_lt hp (joins_iff.2 ⟨_, hs⟩)
      _ ≤ g.parentCount waiting d := parentCount_child_le hr h d hd
      _ = (g.remove e.parent e.child).parentCount waiting d := (parentCount_remove_of_ne hne).symm

/-- The entity in the lead is the child of the next edge that is given up. -/
theorem Leads.child_eq (hc : g.Leads waiting c) (hr : g.roots waiting = [])
    (h : g.anyEdge? waiting = some e) : e.child = c := by
  by_contra hne
  have hlt := hc.fewest e.child (anyEdge?_spec h).2.1 hne
  have hle := parentCount_child_le hr h c hc.waits
  omega

/-- Only the entity in the lead can be placed. -/
theorem Leads.eq_of_mem_roots (hg : ∀ p, g.strength? p p = none) (hc : g.Leads waiting c)
    (hd : d ∈ g.roots waiting) : d = c := by
  by_contra hne
  have hlt := hc.fewest d (mem_roots.1 hd).1 hne
  rw [parentCount_of_mem_roots hg hd] at hlt
  exact Nat.not_lt_zero _ hlt

/-! ### All rounds -/

variable {n : Nat} {o : Order}

/-- The entity in the lead is placed before all others. -/
theorem Rounds.before_of_leads (h : Rounds n g waiting o) (hg : ∀ p, g.strength? p p = none)
    (hc : g.Leads waiting c) : ∀ d ∈ waiting, d ≠ c → Before o.placed c d := by
  induction h with
  | done => exact absurd hc.waits List.not_mem_nil
  | @place n g waiting o hr hrest _ =>
    intro d _ hne
    obtain ⟨r, hroot⟩ := List.exists_mem_of_ne_nil _ hr
    obtain rfl : r = c := hc.eq_of_mem_roots hg hroot
    refine Before.append_left (fun hd => hne (hc.eq_of_mem_roots hg hd)) (before_of_not_mem ?_)
    intro hlater
    exact (mem_others.1 ((hrest.respects hg).placed_perm.mem_iff.1 hlater)).2 hroot
  | giveUp hw hr he _ ih =>
    rcases edgeToBreak?_cases he with hs | ⟨-, ha⟩
    · exact absurd (softEdge?_eq_none_iff.1 hc.no_soft _ (edgeToBreak?_spec he).1 _
        (edgeToBreak?_spec he).2.1) (fun h => h (hs ▸ (edgeToBreak?_spec he).2.2))
    · obtain rfl := hc.child_eq hr ha
      exact ih (strength?_remove_self hg _ _) (leads_remove hr hc.no_soft ha)

/-- The child of a hard edge that is given up is placed before the parent. -/
theorem Rounds.before_of_hard (h : Rounds n g waiting o) (hg : ∀ p, g.strength? p p = none) :
    ∀ e ∈ o.broken, e.strength = .hard → Before o.placed e.child e.parent := by
  induction h with
  | done => exact fun _ h => absurd h List.not_mem_nil
  | place hr hrest ih =>
    intro e he hs
    obtain ⟨hp, -, -⟩ := (hrest.respects hg).mem_broken e he
    exact Before.append_left (mem_others.1 hp).2 (ih hg e he hs)
  | @giveUp n g waiting e o hw hr he hrest ih =>
    have hg' := strength?_remove_self hg e.parent e.child
    refine List.forall_mem_cons.2 ⟨fun hs => ?_, ih hg'⟩
    rcases edgeToBreak?_cases he with hsoft | ⟨hn, ha⟩
    · rw [hs] at hsoft
      cases hsoft
    · obtain ⟨hp, -, hj⟩ := anyEdge?_spec ha
      refine hrest.before_of_leads hg' (leads_remove hr hn ha) e.parent hp fun hpc => ?_
      rw [hpc, hg] at hj
      cases hj

/-- Every graph that a history leaves is sorted, and no hard edge is given up in vain. -/
theorem exists_noneInVain (history : List Change) (entities : List Nat) :
    ∃ o, (ofHistory history).sort entities = .ok o ∧ o.NoneInVain := by
  obtain ⟨n, o, h, -⟩ := exists_rounds (ofHistory history) entities
  have hg := strength?_ofHistory_self history
  have hresp := h.respects hg
  refine ⟨o, h.sort_eq, fun e he hs => ?_⟩
  obtain ⟨hp, hc, -⟩ := hresp.mem_broken e he
  exact ⟨hresp.placed_perm.mem_iff.2 hc, hresp.placed_perm.mem_iff.2 hp,
    h.before_of_hard hg e he hs⟩

end Graph

end EntityRelation.Dependency
