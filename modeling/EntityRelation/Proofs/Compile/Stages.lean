import EntityRelation.Compile
import EntityRelation.Proofs.Catalog.Between
import EntityRelation.Proofs.Dependency.OfSchema
import EntityRelation.Proofs.Module.Plan
import EntityRelation.Proofs.Schema.Ends

/-!
# The stages of a compilation

A package that compiles goes through valid options, its entities, their schema, an order of the
schema and the module that is written in this order. `Stages` holds what every stage answers. The
relationships that are resolved are those between the entities, none of them leaves the package, and
so each of them becomes a link (`Stages.exists_link`).
-/

namespace EntityRelation

open Dependency

/-! ### Options -/

/-- Options are valid exactly if both required options have text and lines are indented. -/
theorem Options.validate_eq_ok_iff {opts : Options} : opts.validate = .ok () ↔
    (∃ file, opts.requireFile = .ok file) ∧ (∃ handle, opts.requireHandle = .ok handle) ∧
      (opts.useTab = true ∨ opts.indentSpaces ≠ 0) := by
  unfold validate
  cases opts.requireFile <;> cases opts.requireHandle <;> cases opts.useTab <;>
    simp [discard, Functor.mapConst, Except.map, bind, Except.bind]

/-! ### Relationships inside a package -/

/-- The relationships between some entities are all inside. -/
theorem Catalog.filter_isInside_between (c : Catalog) (es : List Entity) :
    ((c.between es).map (·.1)).filter (Schema.isInside (Schema.numberIn es)) =
      (c.between es).map (·.1) := by
  refine List.filter_eq_self.2 fun r hr => ?_
  obtain ⟨⟨x, i⟩, hx, rfl⟩ := List.mem_map.1 hr
  rw [Schema.isInside_numberIn]
  exact (mem_between_iff.1 hx).2

/-- The relationship with a number between some entities becomes the link with this number. -/
theorem Schema.Resolves.exists_link_between {s : Schema} {es : List Entity} {c : Catalog}
    (h : s.Resolves es ((c.between es).map (·.1))) {n i : Nat} {r : Relationship}
    (hn : (c.between es)[n]? = some (r, i)) : ∃ l ∈ s.links, LinkOf s.idOf? n r l := by
  refine h.exists_linkOf ?_
  rw [idOf?_eq_numberIn h.tables, c.filter_isInside_between, List.getElem?_map, hn]
  rfl

/-! ### Stages -/

/-- What the stages answer when a package compiles. -/
structure Stages (c : Catalog) (package : String) (opts : Options) (es : List Entity) (s : Schema)
    (o : Order) (m : TableModule) : Prop where
  /-- The options are valid. -/
  valid : opts.validate = .ok ()
  /-- The entities of the package. -/
  entities : c.entitiesOf package = .ok es
  /-- Their schema. -/
  schema : (Schema.build es ((c.between es).map (·.1))).outcome = .ok s
  /-- The order of the schema. -/
  order : s.order.outcome = .ok o
  /-- The module that declares the tables in this order. -/
  written : (TableModule.write opts s o.placed).outcome = .ok m

theorem outcome_compile (c : Catalog) (package : String) (opts : Options) :
    (compile c package opts).outcome = opts.validate >>= fun _ => c.entitiesOf package >>= fun es =>
      (Schema.build es ((c.between es).map (·.1))).outcome >>= fun s => s.order.outcome >>= fun o =>
        (TableModule.write opts s o.placed).outcome := by
  simp only [compile, Logged.outcome_bind, Logged.outcome_liftM]
  rfl

/-- A package compiles exactly if there are stages. -/
theorem compile_eq_ok_iff {c : Catalog} {package : String} {opts : Options} {m : TableModule} :
    (compile c package opts).outcome = .ok m ↔ ∃ es s o, Stages c package opts es s o m := by
  rw [outcome_compile]
  simp only [bind_eq_ok_iff]
  constructor
  · rintro ⟨⟨⟩, hv, es, he, s, hs, o, ho, hm⟩
    exact ⟨es, s, o, hv, he, hs, ho, hm⟩
  · rintro ⟨es, s, o, h⟩
    exact ⟨(), h.valid, es, h.entities, s, h.schema, o, h.order, h.written⟩

/-- Once there is a schema, nothing can fail. -/
theorem exists_compile_eq_ok {c : Catalog} {package : String} {opts : Options} {es : List Entity}
    {s : Schema} (hv : opts.validate = .ok ()) (he : c.entitiesOf package = .ok es)
    (hs : (Schema.build es ((c.between es).map (·.1))).outcome = .ok s) :
    ∃ m, (compile c package opts).outcome = .ok m := by
  obtain ⟨o, ho, -⟩ := s.exists_order
  obtain ⟨⟨file, hf⟩, ⟨handle, hh⟩, -⟩ := Options.validate_eq_ok_iff.1 hv
  exact ⟨_, compile_eq_ok_iff.2 ⟨es, s, o, hv, he, hs, ho,
    TableModule.outcome_write_of_resolves (Schema.resolves_of_build hs) hf hh o.placed⟩⟩

namespace Stages

variable {c : Catalog} {package : String} {opts : Options} {es : List Entity} {s : Schema}
variable {o : Order} {m : TableModule}

theorem resolves (h : Stages c package opts es s o m) :
    s.Resolves es ((c.between es).map (·.1)) :=
  Schema.resolves_of_build h.schema

theorem respects (h : Stages c package opts es s o m) : o.Respects s.graph s.ids := by
  obtain ⟨o', ho, hr⟩ := s.exists_order
  obtain rfl : o' = o := Except.ok.inj (ho.symm.trans h.order)
  exact hr

/-- The lines of the module: what stands before the classes, the classes of the entities, and the
classes of the junctions. -/
theorem lines_eq (h : Stages c package opts es s o m) :
    ∃ file handle, opts.requireFile = .ok file ∧ opts.requireHandle = .ok handle ∧
      m.lines = Outline.lines opts.indentUnit (TableModule.preamble file handle ++
        ((s.plan o.placed).classes.flatMap (·.outline s opts.docStrings) ++
          (s.plan o.placed).junctions.flatMap (·.outline s))) := by
  obtain ⟨⟨file, hf⟩, ⟨handle, hh⟩, -⟩ := Options.validate_eq_ok_iff.1 h.valid
  have hm := h.written
  rw [TableModule.outcome_write_of_resolves h.resolves hf hh] at hm
  cases hm
  exact ⟨file, handle, hf, hh, rfl⟩

/-- Every relationship between the entities becomes the link with its number. -/
theorem links (h : Stages c package opts es s o m) :
    List.Forall₂ (fun x l => Schema.LinkOf s.idOf? x.2 x.1 l)
      ((c.between es).map (·.1)).zipIdx s.links :=
  h.resolves.links_of_inside (c.filter_isInside_between es)

/-- A relationship of the diagram that is inside becomes a link. -/
theorem exists_link (h : Stages c package opts es s o m) {i : Nat} {r : Relationship}
    (hr : c.diagram.relationships[i]? = some r)
    (hin : Catalog.inside (es.map (·.name)) r = true) :
    ∃ l, (c.between es)[l.id]? = some (r, i) ∧ l ∈ s.links ∧ Schema.LinkOf s.idOf? l.id r l := by
  obtain ⟨n, hn⟩ := List.getElem?_of_mem (Catalog.mem_between_iff.2 ⟨hr, hin⟩)
  obtain ⟨l, hl, hrl⟩ := h.resolves.exists_link_between hn
  obtain rfl : l.id = n := hrl.id
  exact ⟨l, hn, hl, hrl⟩

end Stages

/-! ### A package -/

/-- Two entities with two links between them that have one owner each, a link from the second one to
itself, and a link between two many ends. -/
def Diagram.tangled : Diagram where
  packages := [{ name := "p", entities := [{ name := "A" }, { name := "B" }] }]
  relationships :=
    [{ first := { reference := "A", cardinality := "*", name := some " owner " }
       second := { reference := "B", cardinality := "0..1" } },
     { first := { reference := "B", cardinality := "1" }
       second := { reference := "A", cardinality := "1", name := some "x" } },
     { first := { reference := "B", cardinality := "*" }
       second := { reference := "B", cardinality := "1" } },
     { first := { reference := "B", cardinality := "*" }
       second := { reference := "A", cardinality := "0..*" } }]

/-- Options in which nothing is missing. -/
def Options.complete : Options where
  databaseFile := some "f"
  databaseHandle := some "db"

end EntityRelation
