import EntityRelation.Proofs.Compile.Realisation
import EntityRelation.Proofs.Module.Blocks

/-!
# When the classes of a module have different names

A module has a class for the base, one for every entity and one for every junction, and a class
takes the place of one with the same name above it. The names of the entities differ since the
diagram was checked. The names of the junctions are made later, from the names of relationships,
ends and entities, and nothing compares them. `Catalog.classNames` tells all names in the words of
the diagram, and `Catalog.NamesDiffer` what the diagram has to satisfy. **`class_names_differ_iff`**:
the classes of a module that is compiled have different names exactly then. Two unnamed
relationships between the same many ends are enough for a name that is there twice
(`class_names_repeat`).
-/

namespace EntityRelation

open Dependency

/-! ### Names in the words of the diagram -/

instance (e : End) : Decidable e.IsMany := inferInstanceAs (Decidable (_ ∈ _))

/-- The given name of the end, or the name of its entity. -/
def End.label (e : End) : String := e.givenName.getD e.reference

namespace Relationship

/-- Both ends of a relationship are many. -/
def IsManyToMany (r : Relationship) : Prop := r.first.IsMany ∧ r.second.IsMany

instance (r : Relationship) : Decidable r.IsManyToMany := inferInstanceAs (Decidable (_ ∧ _))

/-- The name of the class that a relationship between two many ends becomes: its own name, or the
labels of its ends with a low line between them. -/
def junctionClass (r : Relationship) : String :=
  (r.name.filter Text.hasText).getD (junctionName r.first.label r.second.label)

end Relationship

namespace Catalog

/-- The relationships between some entities that become junctions, as they stand in the diagram. -/
def junctionsOf (c : Catalog) (es : List Entity) : List Relationship :=
  c.diagram.relationships.filter fun r =>
    inside (es.map (·.name)) r && decide r.IsManyToMany

/-- The names of the classes for some entities: the base, the entities and the junctions. -/
def classNames (c : Catalog) (es : List Entity) : List String :=
  baseClass :: (es.map (·.name) ++ (c.junctionsOf es).map (·.junctionClass))

/-- The names of the classes for some entities with different names differ. -/
structure NamesDiffer (c : Catalog) (es : List Entity) : Prop where
  /-- No entity has the name of the base. -/
  entity_ne_base : ∀ e ∈ es, e.name ≠ baseClass
  /-- No junction has the name of the base. -/
  junction_ne_base : ∀ r ∈ c.junctionsOf es, r.junctionClass ≠ baseClass
  /-- No junction has the name of an entity. -/
  junction_ne_entity : ∀ r ∈ c.junctionsOf es, ∀ e ∈ es, r.junctionClass ≠ e.name
  /-- No two junctions have the same name. -/
  junctions : (c.junctionsOf es).Pairwise fun a b => a.junctionClass ≠ b.junctionClass

variable {c : Catalog} {es : List Entity}

theorem nodup_classNames_iff (h : (es.map (·.name)).Nodup) :
    (c.classNames es).Nodup ↔ c.NamesDiffer es := by
  rw [classNames, List.nodup_cons, List.nodup_append, List.mem_append, not_or]
  simp only [List.mem_map, not_exists, not_and]
  constructor
  · rintro ⟨⟨he, hj⟩, -, hn, hd⟩
    exact ⟨he, hj, fun r hr e hm => (hd _ ⟨e, hm, rfl⟩ _ ⟨r, hr, rfl⟩).symm,
      List.pairwise_map.1 hn⟩
  · intro hd
    refine ⟨⟨hd.entity_ne_base, hd.junction_ne_base⟩, h, List.pairwise_map.2 hd.junctions, ?_⟩
    rintro _ ⟨e, he, rfl⟩ _ ⟨r, hr, rfl⟩
    exact (hd.junction_ne_entity r hr e he).symm

/-- The relationships between some entities are those inside, in another order. -/
theorem map_fst_between_perm (c : Catalog) (es : List Entity) :
    ((c.between es).map (·.1)).Perm
      (c.diagram.relationships.filter (inside (es.map (·.name)))) := by
  rw [map_fst_between]
  refine (met_perm _ _ _).trans (.of_eq (List.filter_eq_self.2 fun r hr => ?_))
  exact any_touches_of_inside (List.mem_filter.1 hr).2

end Catalog

/-! ### Names of a module -/

/-- The names of the classes of a module in their order. -/
def ModulePlan.classNames (m : ModulePlan) : List String :=
  baseClass :: (m.classes.map (·.table.entity.name) ++ m.junctions.map (·.name))

open Outline

/-- What stands unindented in the classes are their headings. -/
theorem headings_classEntries (s : Schema) (docStrings : Bool) (p : ModulePlan) :
    headings (TableModule.classEntries s docStrings p) = p.classNames.tail.map classHeading := by
  rw [TableModule.headings_classEntries_eq, ModulePlan.blocks, ModulePlan.classNames,
    List.tail_cons, List.map_append, List.map_append, List.map_map, List.map_map, List.map_map,
    List.map_map]
  rfl

/-- The heading of the base class stands unindented before the classes. -/
theorem baseHeading_mem_headings_preamble (file handle : String) :
    "class " ++ baseClass ++ "(Model):" ∈ headings (TableModule.preamble file handle) := by
  have hne : "class " ++ baseClass ++ "(Model):" ≠ "" := by decide
  simp [TableModule.preamble, hne]

/-! ### Names of a module in the words of the diagram -/

/-- A link between two many ends becomes a class with the name that its relationship asks for. -/
theorem Schema.LinkOf.name_ofLink {s : Schema} {n : Nat} {r : Relationship} {l : Link}
    (h : LinkOf s.idOf? n r l) (hn : ∀ side, s.nameOf (l.endAt side).entity =
      (r.endAt side).reference) : (Junction.ofLink s l).name = r.junctionClass := by
  have hl : ∀ side, Junction.label s (l.endAt side) = (r.endAt side).label := fun side => by
    rw [Junction.label, (h.endAt side).givenName, hn side]
    rfl
  have h₁ := hl .first
  have h₂ := hl .second
  simp only [Link.endAt, Relationship.endAt] at h₁ h₂
  rw [Junction.ofLink, Relationship.junctionClass, h.name, h₁, h₂]

namespace Stages

variable {c : Catalog} {package : String} {opts : Options} {es : List Entity} {s : Schema}
variable {o : Order} {m : TableModule}

/-- The links between two many ends become classes with the names that their relationships ask
for. -/
theorem map_name_ofLink (h : Stages c package opts es s o m) :
    (s.links.filter fun l => l.IsManyToMany).map (fun l => (Junction.ofLink s l).name) =
      (((c.between es).map (·.1)).filter fun r => r.IsManyToMany).map (·.junctionClass) := by
  have hplaces : ∀ rs : List Relationship,
      (rs.zipIdx.filter fun x => x.1.IsManyToMany).map (·.1.junctionClass) =
        (rs.filter fun r => r.IsManyToMany).map (·.junctionClass) := fun rs => by
    conv_rhs => rw [← List.zipIdx_map_fst 0 rs, List.filter_map, List.map_map]
    simp only [Function.comp_def]
  rw [← hplaces]
  refine (map_filter_of_forall₂ h.links (fun x l hx => ?_) fun x l hx _ => ?_).symm
  · exact decide_eq_decide.2 hx.isManyToMany_iff.symm
  · have hl : Schema.LinkOf s.idOf? l.id x.1 l := by
      rw [hx.id]
      exact hx
    exact (hl.name_ofLink (h.nameOf_endAt hl)).symm

/-- The names of the junctions are those of the relationships, in another order. -/
theorem map_name_junctions_perm (h : Stages c package opts es s o m) :
    ((s.plan o.placed).junctions.map (·.name)).Perm
      ((c.junctionsOf es).map (·.junctionClass)) := by
  have hp := h.respects.placed_perm
  have hids : ∀ id ∈ o.placed, id < s.size := fun id hid => List.mem_range.1 (hp.mem_iff.1 hid)
  have hmet := (Schema.met_links_perm h.resolves hp).map fun l => (Junction.ofLink s l).name
  have hin := ((Catalog.map_fst_between_perm c es).filter fun r => r.IsManyToMany).map
    (·.junctionClass)
  have hj : c.junctionsOf es = (c.diagram.relationships.filter
      (Catalog.inside (es.map (·.name)))).filter fun r => r.IsManyToMany := by
    rw [Catalog.junctionsOf, List.filter_filter]
    exact List.filter_congr fun r _ => Bool.and_comm _ _
  rw [Schema.junctions_plan h.resolves hids, List.map_map, hj]
  rw [h.map_name_ofLink] at hmet
  exact hmet.trans hin

/-- The classes have the names that the diagram asks for, in another order. -/
theorem classNames_perm (h : Stages c package opts es s o m) :
    (s.plan o.placed).classNames.Perm (c.classNames es) := by
  have hp := h.respects.placed_perm
  have he : ((s.plan o.placed).classes.map (·.table.entity.name)).Perm (es.map (·.name)) := by
    have ht := (Schema.tables_plan_perm hp).map (·.entity.name)
    rw [List.map_map] at ht
    rwa [← Schema.map_entity_of_tables h.resolves.tables, List.map_map]
  exact (he.append h.map_name_junctions_perm).cons _

end Stages

/-! ### Modules with different names -/

/-- **When the classes of a module have different names**: below the base class, what stands
unindented in a module are the headings of its classes; the names of the classes are those that the
diagram asks for, and they differ exactly if the diagram lets them. The names of the entities always
differ. -/
theorem class_names_differ_iff {c : Catalog} {package : String} {opts : Options} {m : TableModule}
    (h : (compile c package opts).outcome = .ok m) :
    ∃ es s o, Stages c package opts es s o m ∧
      (∃ file handle, m.lines = Outline.lines opts.indentUnit (TableModule.preamble file handle ++
          TableModule.classEntries s opts.docStrings (s.plan o.placed)) ∧
        "class " ++ baseClass ++ "(Model):" ∈ headings (TableModule.preamble file handle)) ∧
      headings (TableModule.classEntries s opts.docStrings (s.plan o.placed)) =
        (s.plan o.placed).classNames.tail.map classHeading ∧
      (s.plan o.placed).classNames.Perm (c.classNames es) ∧ (es.map (·.name)).Nodup ∧
      ((s.plan o.placed).classNames.Nodup ↔ c.NamesDiffer es) := by
  obtain ⟨es, s, o, hs⟩ := compile_eq_ok_iff.1 h
  obtain ⟨file, handle, -, -, hlines⟩ := hs.lines_eq
  have hnames : (es.map (·.name)).Nodup := hs.resolves.sound.distinct
  refine ⟨es, s, o, hs, ⟨file, handle, hlines, baseHeading_mem_headings_preamble file handle⟩,
    headings_classEntries _ _ _, hs.classNames_perm, hnames, ?_⟩
  rw [hs.classNames_perm.nodup_iff, Catalog.nodup_classNames_iff hnames]

/-- The tangled diagram has one junction, and its classes have different names. -/
theorem class_names_differ_in_tangled :
    ∃ m, (compile ⟨.tangled⟩ "p" .complete).outcome = .ok m ∧
      ∃ es s o, Stages ⟨.tangled⟩ "p" .complete es s o m ∧
        (s.plan o.placed).classNames.Perm ["BaseModel", "A", "B", "B_A"] ∧
          (s.plan o.placed).classNames.Nodup := by
  obtain ⟨m, hm⟩ := @exists_compile_eq_ok ⟨.tangled⟩ "p" .complete _ _ rfl rfl rfl
  obtain ⟨es, s, o, hs, -, -, hperm, -, hiff⟩ := class_names_differ_iff hm
  obtain rfl := Except.ok.inj hs.entities
  have hnames : Catalog.classNames ⟨.tangled⟩ [{ name := "A" }, { name := "B" }] =
      ["BaseModel", "A", "B", "B_A"] := by decide +kernel
  refine ⟨m, hm, _, s, o, hs, hnames ▸ hperm, hiff.2 ?_⟩
  exact (Catalog.nodup_classNames_iff (by decide)).1 (hnames ▸ by decide)

/-- Two relationships between students and courses that nothing tells apart. -/
def Diagram.doubled : Diagram where
  packages := [{ name := "Lib", entities := [{ name := "Student" }, { name := "Course" }] }]
  relationships :=
    [{ first := { reference := "Student", cardinality := "0..*" }
       second := { reference := "Course", cardinality := "0..*" } },
     { first := { reference := "Student", cardinality := "0..*" }
       second := { reference := "Course", cardinality := "0..*" } }]

/-- The doubled diagram passes its check and compiles, and its module has two classes of one name. -/
theorem class_names_repeat : Catalog.ofDiagram .doubled = .ok ⟨.doubled⟩ ∧
    ∃ m, (compile ⟨.doubled⟩ "Lib" .complete).outcome = .ok m ∧
      m.lines.count (classHeading "Student_Course") = 2 ∧
      ∃ es s o, Stages ⟨.doubled⟩ "Lib" .complete es s o m ∧
        ¬ (s.plan o.placed).classNames.Nodup := by
  obtain ⟨m, hm⟩ := @exists_compile_eq_ok ⟨.doubled⟩ "Lib" .complete _ _ rfl rfl rfl
  have hcount : ((compile ⟨.doubled⟩ "Lib" .complete).outcome.map fun m =>
      m.lines.count (classHeading "Student_Course")) = .ok 2 := by decide +kernel
  rw [hm] at hcount
  obtain ⟨es, s, o, hs⟩ := compile_eq_ok_iff.1 hm
  obtain rfl := Except.ok.inj hs.entities
  have hrepeat : ¬ (Catalog.classNames ⟨.doubled⟩
      [{ name := "Student" }, { name := "Course" }]).Nodup := by decide +kernel
  exact ⟨rfl, m, hm, Except.ok.inj hcount, _, s, o, hs,
    mt hs.classNames_perm.nodup_iff.1 hrepeat⟩

end EntityRelation
