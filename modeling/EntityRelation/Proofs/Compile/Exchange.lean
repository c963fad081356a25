import EntityRelation.Proofs.Catalog.Acceptance
import EntityRelation.Proofs.Compile.Stages
import EntityRelation.Proofs.Dependency.Rearranged
import EntityRelation.Proofs.Schema.Exchange

/-!
# Diagrams written the other way round

Two diagrams that differ in which end of some relationships is the first one, where each of these
relationships has a to-one end, have the same modules. **`compile_rewritten`**: a package compiles to
a module with the one diagram exactly if it does with the other, and every relationship inside the
package becomes a key of the same end, or the same junction, with both.

The entities gather the same relationships, in the same order (`Catalog.forall₂_between`). What they
are resolved to has the same keys (`Schema.sameKeys_of_rewritten`), and so the same order and the
same module.
-/

namespace EntityRelation

open Dependency

/-- Two diagrams differ only in that some relationships are written the other way round. -/
structure Diagram.Rewritten (d d' : Diagram) : Prop where
  name : d.name = d'.name
  packages : d.packages = d'.packages
  relationships : List.Forall₂ Relationship.Rewritten d.relationships d'.relationships

/-- The relationships of two catalogs between some entities become the same in two schemas. -/
structure Catalog.LinkSame (c c' : Catalog) (es : List Entity) (s s' : Schema) : Prop where
  /-- The entities have the same tables. -/
  tables : s.tables = s'.tables
  /-- What stands at one place becomes the same junction, or a key of the same end. -/
  links : ∀ (i : Nat) (r r' : Relationship), c.diagram.relationships[i]? = some r →
    c'.diagram.relationships[i]? = some r' → inside (es.map (·.name)) r = true →
      ∃ l ∈ s.links, ∃ l' ∈ s'.links,
        Schema.LinkOf s.idOf? l.id r l ∧ Schema.LinkOf s'.idOf? l'.id r' l' ∧ s.BecomesSame l l'

/-- A package becomes the same with two catalogs. -/
structure Catalog.CompileSame (c c' : Catalog) (package : String) (opts : Options) : Prop where
  /-- It compiles to the same module, if at all. -/
  modules : ∀ m, (compile c package opts).outcome = .ok m ↔ (compile c' package opts).outcome = .ok m
  /-- Its relationships become the same. -/
  links : ∀ es s s', c.entitiesOf package = .ok es →
    (Schema.build es ((c.between es).map (·.1))).outcome = .ok s →
    (Schema.build es ((c'.between es).map (·.1))).outcome = .ok s' → c.LinkSame c' es s s'

theorem Diagram.Rewritten.symm {d d' : Diagram} (h : d.Rewritten d') : d'.Rewritten d :=
  ⟨h.name.symm, h.packages.symm, h.relationships.flip.imp fun _ _ => .symm⟩

namespace Catalog

variable {c c' : Catalog} {package : String} {opts : Options} {es : List Entity}

theorem entitiesOf_congr (h : c.diagram.packages = c'.diagram.packages) :
    c.entitiesOf = c'.entitiesOf := by
  funext name
  rw [entitiesOf, entitiesOf, Catalog.package, Catalog.package, package?, package?, packages,
    packages, h]

/-- The entities gather the same relationships, each from the same place. -/
theorem forall₂_between (h : c.diagram.Rewritten c'.diagram) (es : List Entity) :
    List.Forall₂ (fun x y => x.1.Rewritten y.1 ∧ x.2 = y.2) (c.between es) (c'.between es) := by
  rw [between_eq, between_eq]
  refine forall₂_met (List.rel_filter (fun x y hxy => ?_) (forall₂_zipIdx h.relationships 0))
    (fun name x y hxy => hxy.1.touches_eq name) _
  simp only [hxy.1.inside_eq]

theorem forall₂_map_between (h : c.diagram.Rewritten c'.diagram) (es : List Entity) :
    List.Forall₂ Relationship.Rewritten ((c.between es).map (·.1)) ((c'.between es).map (·.1)) := by
  rw [List.forall₂_map_left_iff, List.forall₂_map_right_iff]
  exact (forall₂_between h es).imp fun _ _ => And.left

end Catalog

variable {c c' : Catalog} {package : String} {opts : Options} {es : List Entity} {s s' : Schema}
variable {o : Order} {m : TableModule}

/-- The stages of a compilation with one diagram are those with the other, but for the schema. -/
theorem Stages.of_rewritten (hs : Stages c package opts es s o m)
    (h : c.diagram.Rewritten c'.diagram) : ∃ s', Stages c' package opts es s' o m := by
  obtain ⟨s', hs', hkeys⟩ :=
    Schema.exists_build_of_rewritten hs.schema (Catalog.forall₂_map_between h es)
  have hids : ∀ id ∈ o.placed, id < s.size := fun id hid =>
    List.mem_range.1 (hs.respects.placed_perm.mem_iff.1 hid)
  refine ⟨s', hs.valid, ?_, hs', ?_, ?_⟩
  · rw [← Catalog.entitiesOf_congr h.packages, hs.entities]
  · rw [← hkeys.outcome_order_eq, hs.order]
  · rw [← hkeys.outcome_write_eq hs.resolves (Schema.resolves_of_build hs') hids, hs.written]

/-- What compiles to a module with one diagram compiles to it with the other. -/
theorem compile_eq_ok_of_rewritten (h : c.diagram.Rewritten c'.diagram)
    (hm : (compile c package opts).outcome = .ok m) :
    (compile c' package opts).outcome = .ok m := by
  obtain ⟨es, s, o, hs⟩ := compile_eq_ok_iff.1 hm
  obtain ⟨s', hs'⟩ := hs.of_rewritten h
  exact compile_eq_ok_iff.2 ⟨es, s', o, hs'⟩

/-- The relationships at a place become the same with both diagrams. -/
theorem Catalog.linkSame_of_rewritten (h : c.diagram.Rewritten c'.diagram)
    (hs : (Schema.build es ((c.between es).map (·.1))).outcome = .ok s)
    (hs' : (Schema.build es ((c'.between es).map (·.1))).outcome = .ok s') :
    c.LinkSame c' es s s' := by
  refine ⟨Schema.tables_eq_of_build hs hs', fun i r r' hr hr' hin => ?_⟩
  have hres := Schema.resolves_of_build hs
  have hres' := Schema.resolves_of_build hs'
  obtain ⟨n, hn⟩ := List.getElem?_of_mem (mem_between_iff.2 ⟨hr, hin⟩)
  obtain ⟨⟨r'', j⟩, hn', hrr, hj⟩ := forall₂_getElem?_left (forall₂_between h es) hn
  obtain rfl : i = j := hj
  obtain rfl : r' = r'' := by
    have hr'' := (mem_between_iff.1 (List.mem_of_getElem? hn')).1
    exact Option.some.inj (hr'.symm.trans hr'')
  obtain ⟨l, hl, hrl⟩ := hres.exists_link_between hn
  obtain ⟨l', hl', hrl'⟩ := hres'.exists_link_between hn'
  refine ⟨l, hl, l', hl', hrl.id ▸ hrl, hrl'.id ▸ hrl', ?_⟩
  exact hres.becomesSame_of_rewritten hrr hrl (hres'.idOf?_eq hres ▸ hrl')

/-- **Which end is the first does not matter**: if two diagrams are accepted that differ only in
that some relationships with a to-one end are written the other way round, then every package
becomes the same with both. -/
theorem compile_rewritten {d d' : Diagram} (hc : Catalog.ofDiagram d = .ok c)
    (hc' : Catalog.ofDiagram d' = .ok c') (h : d.Rewritten d') (package : String)
    (opts : Options) : c.CompileSame c' package opts := by
  rw [← Catalog.diagram_of_ofDiagram hc, ← Catalog.diagram_of_ofDiagram hc'] at h
  exact ⟨fun m => ⟨compile_eq_ok_of_rewritten h, compile_eq_ok_of_rewritten h.symm⟩,
    fun es s s' _ => Catalog.linkSame_of_rewritten h⟩

/-- A relationship of an entity to itself in which nothing but blanks tells the ends apart. -/
def Relationship.peers : Relationship where
  first := { reference := "A", cardinality := "1", name := some "peer" }
  second := { reference := "A", cardinality := " 1", name := some "peer " }

/-- Nothing tells the ends of the first relationship apart, names those of the second, and the
cardinality those of the third; the last one has two many ends. -/
def Diagram.paired : Diagram where
  packages := [{ name := "p", entities := [{ name := "A" }, { name := "B" }] }]
  relationships :=
    [.peers, .plain "B" "0..1" "A" "0..1", .plain "A" "*" "B" "1", .plain "A" "*" "B" "*"]

/-- The same diagram, with the ends exchanged where that is allowed. -/
def Diagram.pairedBack : Diagram where
  packages := [{ name := "p", entities := [{ name := "A" }, { name := "B" }] }]
  relationships := [Relationship.peers.exchange, .plain "A" "0..1" "B" "0..1",
    .plain "B" "1" "A" "*", .plain "A" "*" "B" "*"]

/-- Both diagrams compile to the same module. -/
theorem compile_rewritten_of_paired : Diagram.paired.Rewritten .pairedBack ∧
    (∃ m, (compile ⟨.paired⟩ "p" .complete).outcome = .ok m) ∧
    Catalog.CompileSame ⟨.paired⟩ ⟨.pairedBack⟩ "p" .complete := by
  have h : Diagram.paired.Rewritten .pairedBack :=
    ⟨rfl, rfl, .cons (.exchanged (.inl (.inl rfl))) <| .cons (.exchanged (.inl (.inr rfl))) <|
      .cons (.exchanged (.inr (.inl rfl))) <| .cons .same .nil⟩
  exact ⟨h, exists_compile_eq_ok rfl rfl rfl, compile_rewritten rfl rfl h "p" .complete⟩

end EntityRelation
