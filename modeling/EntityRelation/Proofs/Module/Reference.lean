import EntityRelation.Proofs.Dependency.OfSchema
import EntityRelation.Proofs.Module.Plan

/-!
# Keys refer to classes that are there

A line of a module that declares a key names a class, and the class has to be there when the line
is read. `ForeignKey.Refers` says what that means for a key with some classes above its own and
some below: the class itself is called `'self'`, a class above is called by its name, and a class
below is called by its name in quotes and resolved later. **`Schema.keys_refer_soundly`**: in the
module of any schema every key refers soundly and both keys of every junction have lines in its
class and name classes above it; and a key refers to a class below only if the edge between the two
entities was given up for the order, or if the two ends of its link have the same cardinality, so
that there was no edge.

The last part needs the order: a key that orders its entities is an edge of the graph
(`joins_graph_iff`), and if it was not given up, the target stands before the owner and has been
written (`broken_or_isEven`).
-/

namespace EntityRelation

open Dependency

/-- The class declares the entity with a number. -/
def ClassPlan.Declares (s : Schema) (c : ClassPlan) (id : Nat) : Prop :=
  s.tables[id]? = some c.table

/-- The line of a key. -/
def ForeignKey.entry (s : Schema) (k : ForeignKey) : Entry :=
  ⟨1, assignment k.fieldName (k.call s).text⟩

/-- The line of a key of a junction. -/
def JunctionField.entry (s : Schema) (f : JunctionField) : Entry :=
  ⟨1, assignment f.fieldName (f.call s).text⟩

/-- How the key of a class refers to its target when the classes `above` stand above this class and
the classes `below` stand below it, and the edges `broken` were given up for the order. -/
inductive ForeignKey.Refers (s : Schema) (broken : List Edge) (above below : List ClassPlan)
    (k : ForeignKey) : Prop where
  /-- The target is the entity that has the key. -/
  | itself (same : k.target = k.owner)
      (call : k.call s = ⟨"ForeignKeyField", .positional "'self'" :: k.options⟩)
  /-- The class of the target stands above. -/
  | direct (other : k.target ≠ k.owner) (declared : ∃ d ∈ above, d.Declares s k.target)
      (call : k.call s = ⟨"ForeignKeyField", .positional (s.nameOf k.target) :: k.options⟩)
  /-- The class of the target stands below, because the edge was given up or there was none. -/
  | ahead (other : k.target ≠ k.owner) (declared : ∃ d ∈ below, d.Declares s k.target)
      (call : k.call s = ⟨"DeferredForeignKey",
        .positional (Text.Quoted.literal (s.nameOf k.target)) :: k.options⟩)
      (reason : (k.target, k.owner) ∈ broken.map Edge.ends ∨
        ∃ l ∈ s.links, l.id = k.link ∧ l.IsEven)

/-- All keys of a plan refer to classes that are there. -/
structure ModulePlan.RefersSoundly (m : ModulePlan) (s : Schema) (broken : List Edge) :
    Prop where
  /-- There is one class for every entity. -/
  classes : (m.classes.map (·.table)).Perm s.tables
  /-- Every key stands in the class of its owner and refers to a class of the module. -/
  keys : ∀ above c below, m.classes = above ++ c :: below → ∀ k ∈ c.keys,
    c.Declares s k.owner ∧ (∀ docStrings, k.entry s ∈ c.outline s docStrings) ∧
      k.Refers s broken above below
  /-- Both keys of every junction stand in its class and name classes of entities. -/
  junctions : ∀ j ∈ m.junctions, ∀ f ∈ [j.first, j.second], f.entry s ∈ j.outline s ∧
    (∃ d ∈ m.classes, d.Declares s f.entity) ∧
    f.call s = ⟨"ForeignKeyField", [.positional (s.nameOf f.entity),
      .keyword "backref" (Text.Quoted.literal f.backref)]⟩

/-- The class that declares an entity has its name. -/
theorem ClassPlan.Declares.name_eq {s : Schema} {c : ClassPlan} {id : Nat} (h : c.Declares s id) :
    c.table.entity.name = s.nameOf id := by
  have h : s.tables[id]? = some c.table := h
  rw [Schema.nameOf, h]
  rfl

namespace ForeignKey

variable {s : Schema} {k : ForeignKey}

theorem call_of_itself (h : k.reach = .itself) :
    k.call s = ⟨"ForeignKeyField", .positional "'self'" :: k.options⟩ := by
  rw [call, base, h]
  rfl

theorem call_of_direct (h : k.reach = .direct) :
    k.call s = ⟨"ForeignKeyField", .positional (s.nameOf k.target) :: k.options⟩ := by
  rw [call, base, h]
  rfl

theorem call_of_ahead (h : k.reach = .ahead) : k.call s = ⟨"DeferredForeignKey",
    .positional (Text.Quoted.literal (s.nameOf k.target)) :: k.options⟩ := by
  rw [call, base, h]
  rfl

end ForeignKey

/-- The line of a key of a class is a line of the class. -/
theorem ClassPlan.entry_mem_outline {s : Schema} {c : ClassPlan} {k : ForeignKey}
    (hk : k ∈ c.keys) (docStrings : Bool) : k.entry s ∈ c.outline s docStrings := by
  have hb : ⟨0, assignment k.fieldName (k.call s).text⟩ ∈ c.body s docStrings := by
    refine List.mem_append_left _ (List.mem_append_right _ ?_)
    exact List.mem_flatMap.2 ⟨k, hk, List.mem_singleton.2 rfl⟩
  have hd : k.entry s = Entry.deeper ⟨0, assignment k.fieldName (k.call s).text⟩ := rfl
  rw [hd]
  refine List.mem_append_left _ (List.mem_append_right _ (List.mem_map_of_mem ?_))
  split
  · exact hb
  · exact List.mem_append_left _ hb

/-- The class of a junction is its heading with the lines of its two keys below it. -/
theorem Junction.outline_eq_entries (s : Schema) (j : Junction) : j.outline s =
    [⟨0, classHeading j.name⟩, j.first.entry s, j.second.entry s] ++ Outline.blanks 2 := rfl

namespace Schema

variable {s : Schema} {p : Progress} {xs : List Nat} {id : Nat}

/-- An entity of the order has a class. -/
theorem exists_declares (h : id ∈ xs) (hlt : id < s.size) :
    ∃ d ∈ (s.planClasses p xs).1, d.Declares s id := by
  have hm : s.tables[id] ∈ (s.planClasses p xs).1.map (·.table) := by
    rw [map_table_planClasses]
    exact List.mem_filterMap.2 ⟨id, h, List.getElem?_eq_getElem hlt⟩
  obtain ⟨d, hd, ht⟩ := List.mem_map.1 hm
  exact ⟨d, hd, (List.getElem?_eq_getElem hlt).trans (congrArg some ht.symm)⟩

/-- There is one class for every entity. -/
theorem tables_plan_perm (h : xs.Perm s.ids) :
    ((s.plan xs).classes.map (·.table)).Perm s.tables := by
  have hm : (s.plan xs).classes.map (·.table) = xs.filterMap (s.tables[·]?) :=
    map_table_planClasses s {} xs
  rw [hm]
  exact (h.filterMap _).trans (.of_eq (filterMap_getElem?_range s.tables))

variable {es : List Entity} {rs : List Relationship} {o : Order} {l : Link} {side : Side}
variable {above below : List Nat}

/-- A key that points ahead is not an edge that was kept. -/
theorem broken_or_isEven (hr : s.Resolves es rs) (ho : o.Respects s.graph s.ids)
    (hp : o.placed = above ++ (l.endAt side).entity :: below) (hl : l ∈ s.links)
    (hk : s.keyPlace l side = .here)
    (hne : (l.endAt side).entity ≠ (l.endAt side.opposite).entity)
    (hw : (l.endAt side.opposite).entity ∉ above) :
    ((l.endAt side.opposite).entity, (l.endAt side).entity) ∈ o.broken.map Edge.ends ∨
      l.IsEven := by
  by_contra h
  obtain ⟨hb, he⟩ := not_or.1 h
  have hs : (l.strength? side).isSome = true := by
    rw [Option.isSome_iff_ne_none, Ne, Link.strength?_eq_none_iff (isMany_opposite_of_here hk),
      l.isLoop_iff side]
    exact fun h => h.elim hne he
  have hj : s.graph.joins (l.endAt side.opposite).entity (l.endAt side).entity = true :=
    joins_graph_iff.2 ⟨hne.symm, l, hl, side, hk, hs, rfl, rfl⟩
  have hmem : ∀ side, (l.endAt side).entity ∈ s.ids := fun side =>
    List.mem_range.2 (hr.entity_lt hl side)
  have hbefore := ho.before _ (hmem side.opposite) _ (hmem side) hj hb
  have hplaced := ho.placed_perm.mem_iff.2 (hmem side.opposite)
  rw [hp] at hbefore hplaced
  exact hw (hbefore.mem_left hplaced)

/-- A key on its own side of a link refers to a class of the module. -/
theorem refers_of_here (hr : s.Resolves es rs) (ho : o.Respects s.graph s.ids)
    (hp : o.placed = above ++ (l.endAt side).entity :: below) (hl : l ∈ s.links)
    (hk : s.keyPlace l side = .here) (q : Progress) :
    (keyAt (s.planClasses {} above).2 l side).Refers s o.broken (s.planClasses {} above).1
      (s.planClasses q below).1 := by
  have hlt := hr.entity_lt hl side.opposite
  have hplaced : (l.endAt side.opposite).entity ∈ o.placed :=
    ho.placed_perm.mem_iff.2 (List.mem_range.2 hlt)
  have hwritten := @isWritten_planClasses_iff s above _ hlt
  by_cases hne : (l.endAt side).entity = (l.endAt side.opposite).entity
  · exact .itself hne.symm (ForeignKey.call_of_itself (if_pos hne))
  by_cases hw : (l.endAt side.opposite).entity ∈ above
  · refine .direct (Ne.symm hne) (exists_declares hw hlt) (ForeignKey.call_of_direct ?_)
    exact (if_neg hne).trans (if_pos (hwritten.2 hw))
  · have hbelow : (l.endAt side.opposite).entity ∈ below := by
      rw [hp, List.mem_append, List.mem_cons] at hplaced
      exact (hplaced.resolve_left hw).resolve_left (Ne.symm hne)
    refine .ahead (Ne.symm hne) (exists_declares hbelow hlt) (ForeignKey.call_of_ahead ?_) ?_
    · exact (if_neg hne).trans (if_neg (mt hwritten.1 hw))
    · exact (broken_or_isEven hr ho hp hl hk hne hw).imp_right fun he => ⟨l, hl, rfl, he⟩

/-- The entities that the keys of a junction refer to have classes. -/
theorem exists_declares_of_mem_junctions (hr : s.Resolves es rs) (hxs : xs.Perm s.ids)
    {j : Junction} (hj : j ∈ (s.plan xs).junctions) {f : JunctionField}
    (hf : f ∈ [j.first, j.second]) : ∃ d ∈ (s.plan xs).classes, d.Declares s f.entity := by
  have hids : ∀ id ∈ xs, id < s.size := fun id h => List.mem_range.1 (hxs.mem_iff.1 h)
  rw [junctions_plan hr hids] at hj
  obtain ⟨l, hl, rfl⟩ := List.mem_map.1 hj
  have hl : l ∈ s.links := (List.mem_filter.1 (mem_met.1 hl).1).1
  obtain ⟨side, hside⟩ : ∃ side, (l.endAt side).entity = f.entity := by
    rcases List.mem_pair.1 hf with rfl | rfl
    · exact ⟨.first, rfl⟩
    · exact ⟨.second, rfl⟩
  have hlt := hr.entity_lt hl side
  rw [hside] at hlt
  exact exists_declares (hxs.mem_iff.2 (List.mem_range.2 hlt)) hlt

/-- In an order that respects the graph all keys refer soundly. -/
theorem refersSoundly_plan (hr : s.Resolves es rs) (ho : o.Respects s.graph s.ids) :
    (s.plan o.placed).RefersSoundly s o.broken where
  classes := tables_plan_perm ho.placed_perm
  keys := by
    intro above c below h k hk
    obtain ⟨ys, id, zs, t, hp, ht, rfl, rfl, rfl⟩ := exists_of_planClasses_eq h
    obtain ⟨l, hl, side, rfl, hkp, rfl⟩ := mem_keys_planClass.1 hk
    exact ⟨ht, ClassPlan.entry_mem_outline hk, refers_of_here hr ho hp hl hkp _⟩
  junctions := by
    intro j hj f hf
    refine ⟨?_, exists_declares_of_mem_junctions hr ho.placed_perm hj hf, rfl⟩
    rw [Junction.outline_eq_entries]
    exact List.mem_append_left _ (List.mem_cons_of_mem _ (List.mem_map_of_mem hf))

/-- **Keys refer to classes that are there**: the module of a schema that was built declares its
classes in an order in which every key refers soundly. -/
theorem keys_refer_soundly (h : (build es rs).outcome = .ok s) {opts : Options}
    {file handle : String} (hf : opts.requireFile = .ok file)
    (hh : opts.requireHandle = .ok handle) :
    ∃ o m, s.order.outcome = .ok o ∧ (TableModule.write opts s o.placed).outcome = .ok m ∧
      m.lines = Outline.lines opts.indentUnit (TableModule.preamble file handle ++
        ((s.plan o.placed).classes.flatMap (·.outline s opts.docStrings) ++
          (s.plan o.placed).junctions.flatMap (·.outline s))) ∧
      (s.plan o.placed).RefersSoundly s o.broken := by
  obtain ⟨o, ho, hresp⟩ := exists_order s
  have hr := resolves_of_build h
  exact ⟨o, _, ho, TableModule.outcome_write_of_resolves hr hf hh o.placed, rfl,
    refersSoundly_plan hr hresp⟩

/-- Two entities that refer to each other, and one of them to itself. -/
theorem keys_refer_soundly_in_cycle :
    ∃ s, (build [{ name := "A" }, { name := "B" }]
        [{ first := { reference := "A", cardinality := "*" },
           second := { reference := "B", cardinality := "1" } },
         { first := { reference := "B", cardinality := "0..*" },
           second := { reference := "A", cardinality := "1" } },
         { first := { reference := "B", cardinality := "1" },
           second := { reference := "B", cardinality := "0..1", name := some "next" } }]).outcome =
          .ok s ∧
      ∃ o m, s.order.outcome = .ok o ∧
        (TableModule.write { databaseFile := some "f", databaseHandle := some "db" } s
          o.placed).outcome = .ok m ∧
        m.lines = Outline.lines (Options.indentUnit {}) (TableModule.preamble "f" "db" ++
          ((s.plan o.placed).classes.flatMap (·.outline s true) ++
            (s.plan o.placed).junctions.flatMap (·.outline s))) ∧
        (s.plan o.placed).RefersSoundly s o.broken :=
  Exists.imp (fun _ h => ⟨h, keys_refer_soundly h rfl rfl⟩) ⟨_, rfl⟩

end Schema

end EntityRelation
