import EntityRelation.Proofs.Dependency.Answers
import EntityRelation.Proofs.Module.Plan

/-!
# Schemas with the same keys

What is written for a link is told by the end that has its key and by the end that the key refers
to, not by the sides at which they stand. Two schemas with the same tables, whose links in turn are
the same junction or have their keys between the same ends (`Schema.SameKeys`), have the same
dependencies and so the same order (`SameKeys.outcome_order_eq`), classes with the same keys
(`SameKeys.classes`), the same junctions (`SameKeys.junctions_eq`), and the same module
(`SameKeys.outcome_write_eq`).
-/

namespace EntityRelation

open Dependency

/-- One link of a schema becomes what another one becomes: the same junction, or a key of the same
end that refers to the same end. -/
inductive Schema.BecomesSame (s : Schema) (l l' : Link) : Prop where
  /-- Both are the same link between two many ends. -/
  | junction (toMany : l.IsManyToMany) (same : l' = l)
  /-- One side of either has the key. -/
  | key (side side' : Side)
      (id : l'.id = l.id)
      (tags : l'.tags = l.tags)
      (here : s.keyPlace l side = .here)
      (opposite : s.keyPlace l side.opposite = .opposite)
      (here' : s.keyPlace l' side' = .here)
      (opposite' : s.keyPlace l' side'.opposite = .opposite)
      (owner : l'.endAt side' = l.endAt side)
      (target : l'.endAt side'.opposite = l.endAt side.opposite)

/-- Two schemas have the same tables, and their links become the same in turn. -/
structure Schema.SameKeys (s s' : Schema) : Prop where
  tables : s.tables = s'.tables
  links : List.Forall₂ s.BecomesSame s.links s'.links

/-- Two classes declare the same table with the same keys. -/
structure ClassPlan.DeclaresSame (c c' : ClassPlan) : Prop where
  table : c.table = c'.table
  keys : c.keys = c'.keys

namespace Schema

variable {s s' : Schema} {l l' : Link} {side side' : Side} {p q : Progress} {e : Edge}

/-! ### Schemas with the same tables -/

theorem eq_of_tables_eq (h : s.tables = s'.tables) : s' = ⟨s.tables, s'.links⟩ := by rw [h]

theorem keyPlace_congr (h : s.tables = s'.tables) : s.keyPlace = s'.keyPlace := by
  rw [eq_of_tables_eq h]
  rfl

theorem ofLink_congr (h : s.tables = s'.tables) : Junction.ofLink s = Junction.ofLink s' := by
  rw [eq_of_tables_eq h]
  rfl

theorem junctionOutline_congr (h : s.tables = s'.tables) :
    Junction.outline s = Junction.outline s' := by
  rw [eq_of_tables_eq h]
  rfl

/-- The lines of a class are told by its table and its keys. -/
theorem outline_congr (h : s.tables = s'.tables) {c c' : ClassPlan} (hc : c.DeclaresSame c')
    (docStrings : Bool) : c.outline s docStrings = c'.outline s' docStrings := by
  rw [eq_of_tables_eq h, ClassPlan.outline, ClassPlan.outline, ClassPlan.body, ClassPlan.body,
    hc.table, hc.keys]
  rfl

/-! ### Links that become the same -/

/-- A key is told by its ends and by the classes that have been written. -/
theorem keyAt_congr (hid : l'.id = l.id) (htags : l'.tags = l.tags)
    (ho : l'.endAt side' = l.endAt side) (ht : l'.endAt side'.opposite = l.endAt side.opposite)
    (hp : p.written = q.written) : keyAt p l side = keyAt q l' side' := by
  simp only [keyAt, Progress.isWritten, hid, htags, ho, ht, hp]

/-- How a key orders its entities is told by its ends. -/
theorem strength?_congr (ho : l'.endAt side' = l.endAt side)
    (ht : l'.endAt side'.opposite = l.endAt side.opposite) :
    l.strength? side = l'.strength? side' := by
  have hloop : l.isLoop = l'.isLoop := by
    rw [Bool.eq_iff_iff, l.isLoop_iff side, l'.isLoop_iff side', ho, ht]
  rw [Link.strength?, Link.strength?, hloop, ho, ht]

theorem BecomesSame.refl (s : Schema) (l : Link) : s.BecomesSame l l := by
  by_cases hm : l.IsManyToMany
  · exact .junction hm rfl
  · obtain ⟨side, hk, ho⟩ := s.exists_here hm
    exact .key side side rfl rfl hk ho hk ho rfl rfl

theorem BecomesSame.symm (h : s.BecomesSame l l') : s.BecomesSame l' l := by
  cases h with
  | junction hm he => exact .junction (he ▸ hm) he.symm
  | key side side' hid htags hk ho hk' ho' howner htarget =>
    exact .key side' side hid.symm htags.symm hk' ho' hk ho howner.symm htarget.symm

/-- Both links give a class the same keys. -/
theorem BecomesSame.keys_eq (h : s.BecomesSame l l') (hp : p.written = q.written) (id : Nat) :
    ((l.sidesAt id).filter fun side => s.keyPlace l side = .here).map (keyAt p l) =
      ((l'.sidesAt id).filter fun side => s.keyPlace l' side = .here).map (keyAt q l') := by
  cases h with
  | junction hm he =>
    subst he
    have hnil : (l'.sidesAt id).filter (fun side => s.keyPlace l' side = .here) = [] :=
      List.filter_eq_nil_iff.2 fun side _ => by simp [keyPlace_eq_junction_iff.2 hm]
    rw [hnil]
    rfl
  | key side side' hid htags hk ho hk' ho' howner htarget =>
    rw [filter_sidesAt_of_here hk ho, filter_sidesAt_of_here hk' ho', howner]
    split
    · exact congrArg ([·]) (keyAt_congr hid htags howner htarget hp)
    · rfl

/-- Both links are between two many ends, or none of them is. -/
theorem BecomesSame.isManyToMany_iff (h : s.BecomesSame l l') :
    l.IsManyToMany ↔ l'.IsManyToMany := by
  cases h with
  | junction _ he => rw [he]
  | key side side' _ _ hk _ hk' =>
    rw [← @keyPlace_eq_junction_iff s l side, ← @keyPlace_eq_junction_iff s l' side', hk, hk']

theorem BecomesSame.eq_of_isManyToMany (h : s.BecomesSame l l') (hm : l.IsManyToMany) :
    l = l' := by
  cases h with
  | junction _ he => exact he.symm
  | key side _ _ _ hk =>
    rw [keyPlace_eq_junction_iff.2 hm] at hk
    cases hk

/-- A dependency of one link is a dependency of the other. -/
theorem BecomesSame.exists_dependencyAt? (h : s.BecomesSame l l')
    (he : s.dependencyAt? l side = some e) : ∃ side', s.dependencyAt? l' side' = some e := by
  obtain ⟨hk, k, hs, rfl⟩ := dependencyAt?_eq_some_iff.1 he
  cases h with
  | junction _ he' => exact ⟨side, he' ▸ he⟩
  | key side₀ side' _ _ _ ho hk' _ howner htarget =>
    -- the key lives at one side only
    obtain rfl | rfl := side₀.eq_or_eq_opposite side
    · refine ⟨side', dependencyAt?_eq_some_iff.2 ⟨hk', k, ?_, by rw [howner, htarget]⟩⟩
      rw [← strength?_congr howner htarget, hs]
    · rw [ho] at hk
      cases hk

/-! ### Schemas -/

namespace SameKeys

/-- Both schemas have the same dependencies. -/
theorem mem_dependencies_iff (h : s.SameKeys s') : e ∈ s.dependencies ↔ e ∈ s'.dependencies := by
  have hdep : ∀ l side, s.dependencyAt? l side = s'.dependencyAt? l side :=
    fun _ _ => dependencyAt?_congr h.tables rfl rfl
  rw [mem_dependencies, mem_dependencies]
  simp only [← hdep]
  refine exists_mem_iff_of_forall₂ h.links fun l l' hl => ⟨?_, ?_⟩
  · exact fun ⟨side, he⟩ => hl.exists_dependencyAt? he
  · exact fun ⟨side, he⟩ => hl.symm.exists_dependencyAt? he

/-- Both schemas have the same order. -/
theorem outcome_order_eq (h : s.SameKeys s') : s.order.outcome = s'.order.outcome :=
  outcome_order_congr (by rw [size, size, h.tables]) fun _ => h.mem_dependencies_iff

/-- The class of an entity has the same keys in both schemas, after the same classes. -/
theorem declaresSame_planClass (h : s.SameKeys s') (hp : p.written = q.written) (id : Nat)
    (t : Table) : (s.planClass p id t).1.DeclaresSame (s'.planClass q id t).1 := by
  refine ⟨rfl, ?_⟩
  rw [keys_planClass_eq_flatMap, keys_planClass_eq_flatMap, ← keyPlace_congr h.tables]
  exact flatMap_eq_of_forall₂ h.links fun l l' hl => hl.keys_eq hp id

/-- The classes of an order have the same keys in both schemas. -/
theorem classes (h : s.SameKeys s') (hp : p.written = q.written) (xs : List Nat) :
    List.Forall₂ ClassPlan.DeclaresSame (s.planClasses p xs).1 (s'.planClasses q xs).1 := by
  induction xs generalizing p q with
  | nil => exact .nil
  | cons id xs ih =>
    cases ht : s.tables[id]? with
    | none =>
      rw [planClasses_cons_of_none ht, planClasses_cons_of_none (h.tables ▸ ht)]
      exact ih hp
    | some t =>
      rw [planClasses_cons_of_some ht, planClasses_cons_of_some (h.tables ▸ ht)]
      exact .cons (h.declaresSame_planClass hp id t) (ih (by simp [hp]))

variable {es : List Entity} {rs rs' : List Relationship} {xs : List Nat}

/-- The junctions of an order are the same in both schemas. -/
theorem junctions_eq (h : s.SameKeys s') (hr : s.Resolves es rs) (hr' : s'.Resolves es rs')
    (hxs : ∀ id ∈ xs, id < s.size) : (s.plan xs).junctions = (s'.plan xs).junctions := by
  have hlinks : (s.links.filter fun l => l.IsManyToMany) =
      s'.links.filter fun l => l.IsManyToMany := by
    rw [← List.map_id (s.links.filter _), ← List.map_id (s'.links.filter _)]
    refine map_filter_of_forall₂ h.links (fun l l' hl => ?_) fun l l' hl hm => ?_
    · exact decide_eq_decide.2 hl.isManyToMany_iff
    · exact hl.eq_of_isManyToMany (of_decide_eq_true hm)
  have hsize : s.size = s'.size := by rw [size, size, h.tables]
  rw [junctions_plan hr hxs, junctions_plan hr' (hsize ▸ hxs), hlinks,
    ofLink_congr h.tables]

/-- The module of an order is the same for both schemas. -/
theorem outcome_write_eq (h : s.SameKeys s') (hr : s.Resolves es rs) (hr' : s'.Resolves es rs')
    (hxs : ∀ id ∈ xs, id < s.size) (opts : Options) :
    (TableModule.write opts s xs).outcome = (TableModule.write opts s' xs).outcome := by
  have hclasses : List.Forall₂ ClassPlan.DeclaresSame (s.plan xs).classes (s'.plan xs).classes :=
    h.classes rfl xs
  have hcolumns := flatMap_eq_of_forall₂ hclasses fun c c' hc =>
    congrArg (·.columns) hc.table
  have hentries : TableModule.classEntries s opts.docStrings (s.plan xs) =
      TableModule.classEntries s' opts.docStrings (s'.plan xs) := by
    rw [TableModule.classEntries, TableModule.classEntries, h.junctions_eq hr hr' hxs,
      junctionOutline_congr h.tables,
      flatMap_eq_of_forall₂ hclasses fun c c' hc => outline_congr h.tables hc opts.docStrings]
  rw [TableModule.outcome_write, TableModule.outcome_write, hentries, hcolumns]

end SameKeys

end Schema

end EntityRelation
