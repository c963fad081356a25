import EntityRelation.Compile
import EntityRelation.Proofs.Catalog.Acceptance
import EntityRelation.Proofs.Catalog.Between
import EntityRelation.Proofs.Dependency.Rearranged

/-!
# Packages are compiled independently

What a package becomes is told by a part of the diagram: the entities of the first package of that
name, and the relationships with both ends among them, in their order (`Diagram.Holds`). Other
packages, their entities and all relationships that leave the package or never touch it can be there
or not, before the relationships of the package, between them and after them.
**`compile_independent`**: two checked diagrams that hold the same package compile it in the same
way, to the same module or with the same failure, and they report the same events on the way.

The relationships reach the compilation with their places in the diagram, and these do differ
between the two diagrams. But the places serve only to find out which relationships are there
already, and what is left without them is what the entities meet of the relationships inside
(`Catalog.map_fst_between`).
-/

namespace EntityRelation

/-- What a diagram holds of a package: its entities, and the relationships between them. -/
structure Diagram.Holds (d : Diagram) (package : String) (es : List Entity)
    (rs : List Relationship) : Prop where
  /-- The first package with the name has these entities. -/
  entities : ∃ i p, IsFirst (·.name = package) d.packages i p ∧ p.entities = es
  /-- These are the relationships with both ends among the entities, in their order. -/
  relationships : d.relationships.filter (Catalog.inside (es.map (·.name))) = rs

/-- A computation that answers without events is left out. -/
theorem Logged.liftM_ok_bind {α β : Type} (a : α) (f : α → Logged β) :
    (liftM (Except.ok a : Except Failure α) : Logged α) >>= f = f a := rfl

namespace Catalog

variable {c : Catalog} {package : String} {es : List Entity} {rs : List Relationship}

theorem entitiesOf_of_holds (h : c.diagram.Holds package es rs) :
    c.entitiesOf package = .ok es := by
  obtain ⟨i, p, hp, rfl⟩ := h.entities
  rw [entitiesOf, package_eq_ok_iff.2 ⟨i, hp⟩]
  rfl

/-- The compilation of a package sees what the diagram holds of it. -/
theorem compile_of_holds (h : c.diagram.Holds package es rs) (opts : Options) :
    compile c package opts = (do
      opts.validate
      let s ← Schema.build es (met (fun name r => r.touches name) (es.map (·.name)) rs)
      let o ← s.order
      Logged.report (.packageCompiled package s.size s.links.length o.broken.length)
      TableModule.write opts s o.placed) := by
  rw [compile, entitiesOf_of_holds h, Logged.liftM_ok_bind, map_fst_between, h.relationships]

end Catalog

/-- **Packages are compiled independently**: what a package becomes, and what is reported about it,
is the same for all checked diagrams that hold the same of it. -/
theorem compile_independent {d d' : Diagram} {c c' : Catalog} (hc : Catalog.ofDiagram d = .ok c)
    (hc' : Catalog.ofDiagram d' = .ok c') {package : String} {es : List Entity}
    {rs : List Relationship} (h : d.Holds package es rs) (h' : d'.Holds package es rs)
    (opts : Options) : compile c package opts = compile c' package opts := by
  rw [← Catalog.diagram_of_ofDiagram hc] at h
  rw [← Catalog.diagram_of_ofDiagram hc'] at h'
  rw [Catalog.compile_of_holds h, Catalog.compile_of_holds h']

/-- A package alone. -/
def Diagram.lonely : Diagram where
  packages := [{ name := "p", entities := [{ name := "A" }, { name := "B" }] }]
  relationships := [.plain "A" "*" "B" "1", .plain "B" "*" "A" "*"]

/-- The same package after another one and before one of the same name, with a relationship that
leaves it in front of its own and two that do not touch it between them. -/
def Diagram.crowded : Diagram where
  packages :=
    [{ name := "q", entities := [{ name := "C" }] },
     { name := "p", entities := [{ name := "A" }, { name := "B" }] },
     { name := "p", entities := [{ name := "D" }] }]
  relationships :=
    [.plain "C" "1" "A" "0..1", .plain "A" "*" "B" "1", .plain "C" "1" "D" "*",
     .plain "C" "?" "C" "1", .plain "B" "*" "A" "*"]

/-- Both diagrams compile the package to the same module. -/
theorem compile_independent_of_crowd :
    Catalog.ofDiagram .lonely = .ok ⟨.lonely⟩ ∧ Catalog.ofDiagram .crowded = .ok ⟨.crowded⟩ ∧
      (∃ es rs, Diagram.lonely.Holds "p" es rs ∧ Diagram.crowded.Holds "p" es rs) ∧
      ∀ opts, compile ⟨.lonely⟩ "p" opts = compile ⟨.crowded⟩ "p" opts := by
  have h : Diagram.lonely.Holds "p" _ _ :=
    ⟨⟨0, _, IsFirst.cons_zero_iff.2 ⟨rfl, rfl⟩, rfl⟩, rfl⟩
  have h' : Diagram.crowded.Holds "p" [{ name := "A" }, { name := "B" }]
      [.plain "A" "*" "B" "1", .plain "B" "*" "A" "*"] :=
    ⟨⟨1, _, IsFirst.cons_succ_iff.2 ⟨by decide, IsFirst.cons_zero_iff.2 ⟨rfl, rfl⟩⟩, rfl⟩,
      by decide⟩
  exact ⟨rfl, rfl, ⟨_, _, h, h'⟩, compile_independent rfl rfl h h'⟩

end EntityRelation
