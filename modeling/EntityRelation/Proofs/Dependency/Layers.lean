import EntityRelation.Proofs.Cycle
import EntityRelation.Proofs.Dependency.Respect
import EntityRelation.Proofs.SortedByKey
import Mathlib.Data.Set.Finite.Lattice
import Mathlib.Order.Lattice.Nat

/-!
# Graphs that do not lead back are sorted by depth

If the edges between the listed entities do not lead back, nothing has to be given up, and a sort
places the entities layer by layer. The layer of an entity is its depth, the length of the longest
chain of edges through listed entities that ends at it (`Graph.IsDepth`).
**`Graph.sort_by_depth`**: for every graph that a history of changes leaves and every list of
entities, an edge is given up exactly if the edges between them lead back; and if they do not, the
order is the list in a stable sort by depth.

Depths exist because chains cannot grow for ever in a finite list without a cycle
(`Graph.exists_isDepth`). An entity has a greater depth than its parents, and one of its parents has
a depth just below its own, so the roots among the entities of depth `k` or more are those of depth
`k` (`Graph.roots_eq_filter`), which is the step from one round to the next. Entities that are not
listed have no part in a chain, and their edges are never asked for.
-/

namespace EntityRelation.Dependency

namespace Graph

/-- An edge goes from one listed entity to another. -/
def JoinsWithin (g : Graph) (entities : List Nat) (p c : Nat) : Prop :=
  p ∈ entities ∧ c ∈ entities ∧ g.joins p c = true

/-- A chain of so many edges through listed entities ends at an entity. -/
inductive Chain (g : Graph) (entities : List Nat) : Nat → Nat → Prop where
  /-- The entity alone. -/
  | single {e : Nat} : e ∈ entities → Chain g entities 0 e
  /-- A chain and one more edge. -/
  | extend {n p c : Nat} : Chain g entities n p → g.JoinsWithin entities p c →
      Chain g entities (n + 1) c

/-- The depth of every listed entity is the length of the longest chain that ends at it. -/
def IsDepth (g : Graph) (entities : List Nat) (depth : Nat → Nat) : Prop :=
  ∀ e ∈ entities, IsGreatest {n | g.Chain entities n e} (depth e)

end Graph

/-- Edges are given up only if they lead back, and if they do not, the entities are placed in a
stable sort by their depth. -/
structure Order.SortsByDepth (o : Order) (g : Graph) (entities : List Nat) : Prop where
  /-- Nothing is given up exactly if no cycle of edges joins listed entities. -/
  broken_eq_nil_iff : o.broken = [] ↔ Acyclic (g.JoinsWithin entities)
  /-- Without a cycle the list is sorted by depth. -/
  placed_eq : Acyclic (g.JoinsWithin entities) → ∃ depth, g.IsDepth entities depth ∧
    o.placed = entities.mergeSort fun a b => depth a ≤ depth b

namespace Graph

variable {g : Graph} {entities waiting : List Nat} {depth : Nat → Nat} {p c k : Nat}

/-! ### Depths -/

/-- An entity is deeper than its parents. -/
theorem IsDepth.lt (hd : g.IsDepth entities depth) (h : g.JoinsWithin entities p c) :
    depth p < depth c :=
  (hd c h.2.1).2 (.extend (hd p h.1).1 h)

/-- An entity that is not at the top has a parent in the layer above. -/
theorem IsDepth.exists_parent (hd : g.IsDepth entities depth) (hc : c ∈ entities)
    (h : depth c ≠ 0) : ∃ p, g.JoinsWithin entities p c ∧ depth c = depth p + 1 := by
  have hchain : g.Chain entities (depth c) c := (hd c hc).1
  generalize hn : depth c = n at hchain
  cases hchain with
  | single => exact absurd hn h
  | @extend n p _ hp hj =>
    have hle : n ≤ depth p := (hd p hj.1).2 hp
    have hlt : depth p < depth c := hd.lt hj
    exact ⟨p, hj, by omega⟩

/-- If the chains that end at the parents are bounded, so are the chains that end at the child. -/
theorem bddAbove_chain (h : ∀ p, g.JoinsWithin entities p c → BddAbove {n | g.Chain entities n p}) :
    BddAbove {n | g.Chain entities n c} := by
  have hfin : {p | g.JoinsWithin entities p c}.Finite :=
    (List.finite_toSet entities).subset fun p hp => hp.1
  obtain ⟨b, hb⟩ := hfin.bddAbove_biUnion.2 h
  refine ⟨b + 1, fun n hn => ?_⟩
  cases hn with
  | single => exact Nat.zero_le _
  | extend hp hj => exact Nat.succ_le_succ (hb (Set.mem_biUnion hj hp))

/-- Where the edges do not lead back, listed entities have depths. -/
theorem exists_isDepth (hac : Acyclic (g.JoinsWithin entities)) :
    ∃ depth, g.IsDepth entities depth := by
  classical
  have hbdd : ∀ e ∈ entities, BddAbove {n | g.Chain entities n e} := by
    by_contra hn
    -- the first of the entities with unbounded chains has parents with bounded chains only
    have hne : entities.filter (fun e => ¬ BddAbove {n | g.Chain entities n e}) ≠ [] :=
      fun hnil => hn fun e he => by simpa using List.filter_eq_nil_iff.1 hnil e he
    obtain ⟨c, hc, hfirst⟩ := hac.exists_first hne
    obtain ⟨hc, hcn⟩ := List.mem_filter.1 hc
    refine (of_decide_eq_true hcn) (bddAbove_chain fun p hp => ?_)
    by_contra hpn
    exact hfirst p (List.mem_filter.2 ⟨hp.1, decide_eq_true hpn⟩) hp
  refine ⟨fun e => sSup {n | g.Chain entities n e}, fun e he => ⟨?_, fun n hn => ?_⟩⟩
  · exact Nat.sSup_mem ⟨0, .single he⟩ (hbdd e he)
  · exact le_csSup (hbdd e he) hn

/-! ### Layers -/

/-- From depth `k` on the listed entities wait. -/
def WaitFrom (entities : List Nat) (depth : Nat → Nat) (k : Nat) (waiting : List Nat) : Prop :=
  ∀ e, e ∈ waiting ↔ e ∈ entities ∧ k ≤ depth e

/-- The roots are the waiting entities of the least depth. -/
theorem mem_roots_iff_of_waitFrom (hd : g.IsDepth entities depth)
    (hw : WaitFrom entities depth k waiting) (hc : c ∈ waiting) :
    c ∈ g.roots waiting ↔ depth c = k := by
  obtain ⟨hce, hk⟩ := (hw c).1 hc
  rw [mem_roots, and_iff_right hc]
  constructor
  · intro hroot
    by_contra hne
    obtain ⟨p, hp, hdp⟩ := hd.exists_parent hce (by omega)
    have hpc : p = c := hroot p ((hw p).2 ⟨hp.1, by omega⟩) hp.2.2
    rw [hpc] at hdp
    omega
  · intro hck p hp hj
    obtain ⟨hpe, hpk⟩ := (hw p).1 hp
    have hlt : depth p < depth c := hd.lt ⟨hpe, hce, hj⟩
    omega

theorem roots_eq_filter (hd : g.IsDepth entities depth) (hw : WaitFrom entities depth k waiting) :
    g.roots waiting = waiting.filter (depth · == k) := by
  rw [roots]
  refine List.filter_congr fun c hc => ?_
  have h := mem_roots_iff_of_waitFrom hd hw hc
  rw [roots, List.mem_filter, and_iff_right hc] at h
  rw [Bool.eq_iff_iff, h, beq_iff_eq]

/-- After a round the entities of greater depth wait. -/
theorem others_eq_filter (hd : g.IsDepth entities depth) (hw : WaitFrom entities depth k waiting) :
    others waiting (g.roots waiting) = waiting.filter fun e => k + 1 ≤ depth e := by
  rw [others]
  refine List.filter_congr fun c hc => ?_
  have hk : k ≤ depth c := ((hw c).1 hc).2
  rw [Bool.eq_iff_iff, Bool.not_eq_true', ← Bool.not_eq_true, List.contains_iff_mem,
    mem_roots_iff_of_waitFrom hd hw hc, decide_eq_true_iff]
  omega

theorem WaitFrom.filter (hw : WaitFrom entities depth k waiting) :
    WaitFrom entities depth (k + 1) (waiting.filter fun e => k + 1 ≤ depth e) := by
  intro e
  rw [List.mem_filter, hw e, decide_eq_true_iff, and_assoc]
  refine and_congr_right fun _ => ?_
  omega

/-- Where the edges do not lead back, something can be placed. -/
theorem roots_ne_nil (hac : Acyclic (g.JoinsWithin entities)) (hsub : ∀ e ∈ waiting, e ∈ entities)
    (hw : waiting ≠ []) : g.roots waiting ≠ [] := by
  obtain ⟨c, hc, hfirst⟩ := hac.exists_first hw
  refine List.ne_nil_of_mem (mem_roots.2 ⟨hc, fun p hp hj => ?_⟩)
  exact absurd ⟨hsub p hp, hsub c hc, hj⟩ (hfirst p hp)

/-- The rounds from a depth on place the entities sorted by depth, and give nothing up. -/
theorem Rounds.eq_of_waitFrom {n : Nat} {o : Order} (h : Rounds n g waiting o)
    (hac : Acyclic (g.JoinsWithin entities)) (hd : g.IsDepth entities depth)
    (hw : WaitFrom entities depth k waiting) :
    o = ⟨waiting.mergeSort fun a b => depth a ≤ depth b, []⟩ := by
  induction h generalizing k with
  | done => simp
  | @place n g waiting o _ _ ih =>
    have hdeeper := ih hac hd (k := k + 1) (by rw [others_eq_filter hd hw]; exact hw.filter)
    have hk : ∀ e ∈ waiting, k ≤ depth e := fun e he => ((hw e).1 he).2
    rw [hdeeper, others_eq_filter hd hw, roots_eq_filter hd hw, mergeSort_key_eq_append hk]
  | giveUp hne hr _ _ _ =>
    exact absurd hr (roots_ne_nil hac (fun e he => ((hw e).1 he).1) hne)

/-! ### Cycles -/

/-- If nothing is given up, the order shows that no edges lead back. -/
theorem acyclic_of_broken_eq_nil {o : Order} (h : o.Respects g entities) (hb : o.broken = []) :
    Acyclic (g.JoinsWithin entities) := by
  refine @acyclic_of_rank _ _ (o.placed.idxOf ·) fun p c ⟨hp, hc, hj⟩ => ?_
  have hbefore : Before o.placed p c := h.before p hp c hc hj (by rw [hb]; exact List.not_mem_nil)
  exact hbefore _ _ (List.getElem?_idxOf (h.placed_perm.mem_iff.2 hp))
    (List.getElem?_idxOf (h.placed_perm.mem_iff.2 hc))

theorem Rounds.sortsByDepth {n : Nat} {o : Order} (h : Rounds n g entities o)
    (hg : ∀ p, g.strength? p p = none) : o.SortsByDepth g entities := by
  have hsorted : Acyclic (g.JoinsWithin entities) → ∃ depth, g.IsDepth entities depth ∧
      o = ⟨entities.mergeSort fun a b => depth a ≤ depth b, []⟩ := fun hac => by
    obtain ⟨depth, hd⟩ := exists_isDepth hac
    exact ⟨depth, hd, h.eq_of_waitFrom (k := 0) hac hd fun e => by simp⟩
  refine ⟨⟨acyclic_of_broken_eq_nil (h.respects hg), fun hac => ?_⟩, fun hac => ?_⟩
  · obtain ⟨depth, -, rfl⟩ := hsorted hac
    rfl
  · obtain ⟨depth, hd, rfl⟩ := hsorted hac
    exact ⟨depth, hd, rfl⟩

/-- **Graphs that do not lead back are sorted by depth**: a graph that a history leaves is sorted,
nothing is given up exactly if the edges between the listed entities do not lead back, and in that
case the order is the list in a stable sort by depth. -/
theorem sort_by_depth (history : List Change) (entities : List Nat) :
    ∃ o, (ofHistory history).sort entities = .ok o ∧
      o.SortsByDepth (ofHistory history) entities := by
  obtain ⟨n, o, h, -⟩ := exists_rounds (ofHistory history) entities
  exact ⟨o, h.sort_eq, h.sortsByDepth (strength?_ofHistory_self history)⟩

-- `2` is behind `1` and not beside it, although `0` is its parent as well; `3` has no parents
example : (ofHistory [.add 0 1 .hard, .add 1 2 .soft, .add 0 2 .hard]).sort [2, 1, 3, 0] =
    .ok ⟨[3, 0, 1, 2], []⟩ := by cbv

end Graph

end EntityRelation.Dependency
