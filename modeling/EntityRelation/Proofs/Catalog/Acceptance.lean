import EntityRelation.Catalog
import EntityRelation.Logged
import EntityRelation.Proofs.Places

/-!
# What a catalog has been checked for

A diagram becomes a catalog when its names have been checked, and then no two entities of a package
share a name (`nodup_names_of_ofDiagram`). The package that a name means is the first one with this
name (`package_eq_ok_iff`).
-/

namespace EntityRelation.Catalog

/-- Entities whose names have text and differ from each other. -/
structure WellNamed (es : List Entity) : Prop where
  /-- Every name has text. -/
  named : ∀ e ∈ es, Text.hasText e.name = true
  /-- No two entities share a name. -/
  distinct : (es.map (·.name)).Nodup

/-- Entities that pass the check where the names `seen` are taken. -/
structure Passes (seen : List String) (es : List Entity) : Prop extends WellNamed es where
  /-- No name is taken. -/
  fresh : ∀ e ∈ es, e.name ∉ seen

theorem passes_nil (seen : List String) : Passes seen [] :=
  ⟨⟨fun _ h => absurd h List.not_mem_nil, .nil⟩, fun _ h => absurd h List.not_mem_nil⟩

/-- Where no name is taken, well named entities pass. -/
theorem passes_nil_iff {es : List Entity} : Passes [] es ↔ WellNamed es :=
  ⟨fun h => h.toWellNamed, fun h => ⟨h, fun _ _ => List.not_mem_nil⟩⟩

theorem passes_cons_iff {seen : List String} {e : Entity} {es : List Entity} :
    Passes seen (e :: es) ↔
      Text.hasText e.name = true ∧ e.name ∉ seen ∧ Passes (e.name :: seen) es := by
  constructor
  · intro h
    obtain ⟨hte, ht⟩ := List.forall_mem_cons.1 h.named
    obtain ⟨hfe, hf⟩ := List.forall_mem_cons.1 h.fresh
    obtain ⟨hne, hd⟩ := List.nodup_cons.1 h.distinct
    refine ⟨hte, hfe, ⟨ht, hd⟩, fun x hx hm => ?_⟩
    rcases List.mem_cons.1 hm with hxe | hm
    · exact hne (List.mem_map.2 ⟨x, hx, hxe⟩)
    · exact hf x hx hm
  · rintro ⟨hte, hfe, h⟩
    refine ⟨⟨List.forall_mem_cons.2 ⟨hte, h.named⟩, List.nodup_cons.2 ⟨fun hm => ?_, h.distinct⟩⟩,
      List.forall_mem_cons.2 ⟨hfe, fun x hx hm => h.fresh x hx (List.mem_cons_of_mem _ hm)⟩⟩
    obtain ⟨x, hx, hxe⟩ := List.mem_map.1 hm
    exact h.fresh x hx (hxe ▸ List.mem_cons_self)

/-- The check lets entities through exactly if they pass. -/
theorem checkNames_eq_ok_iff {seen : List String} {xs : List Placed} :
    checkNames seen xs = .ok () ↔ Passes seen (xs.map (·.entity)) := by
  induction xs generalizing seen with
  | nil => exact iff_of_true rfl (passes_nil seen)
  | cons x xs ih =>
    rw [checkNames, List.map_cons, passes_cons_iff, ← ih]
    by_cases ht : Text.hasText x.entity.name = true
    · by_cases hs : x.entity.name ∈ seen
      · simp [ht, hs]
      · simp [ht, hs]
    · simp [ht]

theorem map_entity_placedOf (p : Package) : (placedOf p).map (·.entity) = p.entities := by
  rw [placedOf, List.map_map]
  exact List.zipIdx_map_fst 0 p.entities

theorem map_entity_placed (d : Diagram) : (placed d).map (·.entity) = d.entities := by
  rw [placed, Diagram.entities, List.map_flatMap]
  simp only [map_entity_placedOf]

/-- The catalog of a diagram holds the diagram. -/
theorem diagram_of_ofDiagram {d : Diagram} {c : Catalog} (h : ofDiagram d = .ok c) :
    c.diagram = d := by
  obtain ⟨⟨⟩, -, h⟩ := bind_eq_ok_iff.1 h
  obtain ⟨⟨⟩, -, h⟩ := bind_eq_ok_iff.1 h
  cases h
  rfl

/-- No two entities of a package of a checked diagram share a name. -/
theorem nodup_names_of_ofDiagram {d : Diagram} {c : Catalog} (h : ofDiagram d = .ok c)
    {p : Package} (hp : p ∈ c.packages) : (p.entities.map (·.name)).Nodup := by
  obtain ⟨⟨⟩, hn, h⟩ := bind_eq_ok_iff.1 h
  obtain ⟨⟨⟩, -, h⟩ := bind_eq_ok_iff.1 h
  cases h
  have hd : (d.entities.map (·.name)).Nodup := by
    rw [← map_entity_placed]
    exact (checkNames_eq_ok_iff.1 hn).distinct
  have hs : p.entities.Sublist d.entities :=
    List.sublist_flatten_of_mem (List.mem_map_of_mem hp)
  exact (hs.map _).nodup hd

/-- A name means the first package with this name. -/
theorem package_eq_ok_iff {c : Catalog} {name : String} {p : Package} :
    c.package name = .ok p ↔ ∃ i, IsFirst (·.name = name) c.packages i p := by
  have h : c.package? name = some p ↔ ∃ i, IsFirst (·.name = name) c.packages i p := by
    rw [package?, IsFirst.find?_eq_some_iff]
    simp only [beq_iff_eq]
  rw [← h, package]
  cases c.package? name <;> simp

/-- A name means no package exactly if no package has it. -/
theorem package_eq_error_iff {c : Catalog} {name : String} {f : Failure} :
    c.package name = .error f ↔
      (∀ p ∈ c.packages, p.name ≠ name) ∧ f = .flawed name .noSuchPackage := by
  have h : c.package? name = none ↔ ∀ p ∈ c.packages, p.name ≠ name := by
    rw [package?, List.find?_eq_none]
    simp only [beq_iff_eq]
  rw [← h, package]
  cases c.package? name <;> simp [eq_comm]

end EntityRelation.Catalog
