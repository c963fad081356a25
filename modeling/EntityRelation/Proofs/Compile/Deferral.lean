import EntityRelation.Proofs.Compile.Realisation
import EntityRelation.Proofs.Dependency.FewestParents

/-!
# Keys that wait for their class

The key of a many-to-one link between two entities names a class that may stand below its own. It is
then written with a field class of its own, and `ModulePlan.DefersIfBroken` says that this happens
exactly if the edge from the target to the owner was given up for the order. One direction holds in
any order that respects the graph: an edge that was kept has the target above. The other one is what
`Order.NoneInVain` adds: an edge that was given up has the target below. **`no_hard_edge_in_vain`**:
the orders of all graphs that a history leaves are of this kind, and so are all modules that are
compiled.
-/

namespace EntityRelation

open Dependency

/-- The key of a link at a side is in the plan once, it refers to the entity at the other side, and
it is deferred exactly if the edge between the two was given up. -/
structure ModulePlan.DefersIfBroken (m : ModulePlan) (s : Schema) (broken : List Edge) (l : Link)
    (side : Side) (c : ClassPlan) (k : ForeignKey) : Prop where
  /-- One key comes from the link. -/
  once : (m.classes.flatMap (·.keys)).filter (·.link == l.id) = [k]
  /-- It stands in a class of the module. -/
  inClass : c ∈ m.classes ∧ k ∈ c.keys
  /-- The class is that of the entity at the side. -/
  declares : k.owner = (l.endAt side).entity ∧ c.Declares s k.owner
  /-- The key refers to the entity at the other side. -/
  target : k.target = (l.endAt side.opposite).entity
  /-- Its line is a line of the class. -/
  line : ∀ docStrings, k.entry s ∈ c.outline s docStrings
  /-- It is deferred exactly if the edge was given up. -/
  deferred : (k.call s).callee = "DeferredForeignKey" ↔
    (k.target, k.owner) ∈ broken.map Edge.ends

/-- A key is deferred exactly if its target comes later. -/
theorem ForeignKey.callee_eq_deferred_iff {s : Schema} {k : ForeignKey} :
    (k.call s).callee = "DeferredForeignKey" ↔ k.reach = .ahead := by
  cases h : k.reach <;> simp [call, base, h]

namespace Schema

variable {s : Schema} {es : List Entity} {rs : List Relationship} {o : Order} {l : Link}
variable {side : Side} {above below : List Nat}

/-- A key at a many end refers ahead exactly if its edge was given up. -/
theorem reach_eq_ahead_iff (hr : s.Resolves es rs) (ho : o.Respects s.graph s.ids)
    (hv : o.NoneInVain) (hp : o.placed = above ++ (l.endAt side).entity :: below)
    (hl : l ∈ s.links) (hm : l.IsManyToOne side)
    (hne : (l.endAt side).entity ≠ (l.endAt side.opposite).entity) :
    (keyAt (s.planClasses {} above).2 l side).reach = .ahead ↔
      ((l.endAt side.opposite).entity, (l.endAt side).entity) ∈ o.broken.map Edge.ends := by
  have hwritten := @isWritten_planClasses_iff s above _ (hr.entity_lt hl side.opposite)
  have hreach : (keyAt (s.planClasses {} above).2 l side).reach = .ahead ↔
      (l.endAt side.opposite).entity ∉ above := by
    simp [keyAt, hne, ← hwritten]
  rw [hreach]
  constructor
  · intro hw
    exact (broken_or_isEven hr ho hp hl (s.keyPlace_of_isManyToOne hm) hne hw).resolve_right
      hm.not_isEven
  · intro hb
    obtain ⟨e, he, hends⟩ := List.mem_map.1 hb
    obtain ⟨hparent, hchild⟩ := Prod.mk.inj hends
    obtain ⟨-, -, hs⟩ := ho.mem_broken e he
    rw [hparent, hchild, strength?_graph_of_isManyToOne hl hm hne] at hs
    obtain ⟨-, -, hbefore⟩ := hv e he (Option.some.inj hs).symm
    rw [hparent, hchild, hp] at hbefore
    exact hbefore.notMem_left

/-- The keys of many-to-one links are deferred exactly if their edges were given up. -/
theorem exists_defersIfBroken (hr : s.Resolves es rs) (ho : o.Respects s.graph s.ids)
    (hv : o.NoneInVain) (hl : l ∈ s.links) (hm : l.IsManyToOne side)
    (hne : (l.endAt side).entity ≠ (l.endAt side.opposite).entity) :
    ∃ c k, (s.plan o.placed).DefersIfBroken s o.broken l side c k := by
  have hk := s.keyPlace_of_isManyToOne hm
  have hko := s.keyPlace_opposite_of_isManyToOne hm
  obtain ⟨p, honce, c, hc, hkeys, hdecl⟩ := filter_keys_plan_of_here hr ho.placed_perm hl hk hko
  have hkc := mem_of_filter_eq_singleton hkeys
  refine ⟨c, _, honce, ⟨hc, hkc⟩, ⟨rfl, hdecl⟩, rfl, ClassPlan.entry_mem_outline hkc, ?_⟩
  -- the class was planned after the classes of the entities above
  obtain ⟨as, bs, hsplit⟩ := List.append_of_mem hc
  obtain ⟨ys, id, zs, t, hp, -, -, rfl, -⟩ := exists_of_planClasses_eq hsplit
  obtain ⟨l', hl', side', rfl, hk', heq⟩ := mem_keys_planClass.1 hkc
  obtain rfl : l' = l :=
    List.inj_on_of_nodup_map hr.nodup_ids hl' hl (congrArg ForeignKey.link heq)
  obtain rfl : side' = side := by
    rcases side.eq_or_eq_opposite side' with h | rfl
    · exact h
    · rw [hko] at hk'
      cases hk'
  rw [← heq, ForeignKey.callee_eq_deferred_iff]
  exact reach_eq_ahead_iff hr ho hv hp hl hm hne

end Schema

/-- No hard edge of a schema is given up in vain. -/
theorem Stages.noneInVain {c : Catalog} {package : String} {opts : Options} {es : List Entity}
    {s : Schema} {o : Order} {m : TableModule} (h : Stages c package opts es s o m) :
    o.NoneInVain := by
  obtain ⟨o', ho, hv⟩ := Schema.exists_order_of_ofHistory (P := fun _ _ o => o.NoneInVain)
    Graph.exists_noneInVain s
  obtain rfl : o' = o := Except.ok.inj (ho.symm.trans h.order)
  exact hv

/-- **No hard edge is given up in vain**: a graph that a history leaves is sorted, and the child of
every hard edge that was given up stands before the parent; and in a module that is compiled the key
of a many-to-one link to another entity is deferred exactly if its edge was given up. -/
theorem no_hard_edge_in_vain :
    (∀ (history : List Change) (entities : List Nat), ∃ o,
      (Graph.ofHistory history).sort entities = .ok o ∧ o.NoneInVain) ∧
    ∀ (c : Catalog) (package : String) (opts : Options) (m : TableModule),
      (compile c package opts).outcome = .ok m → ∃ es s o, Stages c package opts es s o m ∧
        (∃ file handle, m.lines = Outline.lines opts.indentUnit
          (TableModule.preamble file handle ++
            ((s.plan o.placed).classes.flatMap (·.outline s opts.docStrings) ++
              (s.plan o.placed).junctions.flatMap (·.outline s)))) ∧
        ∀ l ∈ s.links, ∀ side, l.IsManyToOne side →
          (l.endAt side).entity ≠ (l.endAt side.opposite).entity →
            ∃ d k, (s.plan o.placed).DefersIfBroken s o.broken l side d k := by
  refine ⟨Graph.exists_noneInVain, fun c package opts m h => ?_⟩
  obtain ⟨es, s, o, hs⟩ := compile_eq_ok_iff.1 h
  obtain ⟨file, handle, -, -, hlines⟩ := hs.lines_eq
  exact ⟨es, s, o, hs, ⟨file, handle, hlines⟩, fun l hl side hm hne =>
    Schema.exists_defersIfBroken hs.resolves hs.respects hs.noneInVain hl hm hne⟩

/-- The first link of the tangled diagram has such a key. -/
theorem no_hard_edge_in_vain_of_tangled :
    ∃ m, (compile ⟨.tangled⟩ "p" .complete).outcome = .ok m ∧
      ∃ es s o, Stages ⟨.tangled⟩ "p" .complete es s o m ∧ ∃ l ∈ s.links, l.IsManyToOne .first ∧
        ∃ d k, (s.plan o.placed).DefersIfBroken s o.broken l .first d k := by
  obtain ⟨m, hm⟩ := @exists_compile_eq_ok ⟨.tangled⟩ "p" .complete _ _ rfl rfl rfl
  obtain ⟨es, s, o, hs, -, h⟩ := no_hard_edge_in_vain.2 _ _ _ m hm
  obtain rfl := Except.ok.inj hs.entities
  obtain rfl := Except.ok.inj hs.schema
  exact ⟨m, hm, _, _, o, hs, _, List.mem_cons_self, ⟨rfl, rfl⟩,
    h _ List.mem_cons_self .first ⟨rfl, rfl⟩ (by decide)⟩

end EntityRelation
