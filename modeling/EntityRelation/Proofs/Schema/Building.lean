import EntityRelation.Proofs.Schema.Ends

/-!
# When a schema is built

Entities and relationships become a schema exactly if no two entities share a name, every column has
a type, and both ends of every relationship between the entities have a cardinality (`Buildable`).
Relationships that leave the entities are never looked at. Otherwise the first offence decides
(`BuildFails`): the entities come in their order, and the name of an entity is looked at before its
columns; then the relationships between the entities come in theirs, the first end before the second
one. A schema that is built has a link for each of these relationships, numbered from zero, and its
names and numbers lead to each other (`Normalized`). **`build_outcome`** puts the three together.
-/

namespace EntityRelation.Schema

variable {es : List Entity} {rs : List Relationship} {s : Schema}

/-- The relationships with an entity at both ends. -/
def kept (es : List Entity) (rs : List Relationship) : List Relationship :=
  rs.filter (Catalog.inside (es.map (·.name)))

/-- Entities and relationships that become a schema. -/
structure Buildable (es : List Entity) (rs : List Relationship) : Prop where
  /-- No two entities share a name. -/
  distinct : (es.map (·.name)).Nodup
  /-- Every column has a type. -/
  typed : ∀ e ∈ es, ∀ c ∈ e.columns, c.IsTyped
  /-- Both ends of every relationship between the entities have a cardinality. -/
  marked : ∀ r ∈ kept es rs, r.first.IsMarked ∧ r.second.IsMarked

/-- Why entities and relationships do not become a schema. -/
inductive BuildFails (es : List Entity) (rs : List Relationship) : Failure → Prop where
  /-- An entity has the name of one before it. All entities before it are sound. -/
  | repeatedName {n : Nat} {e : Entity} (here : es[n]? = some e) (before : Sound [] (es.take n))
      (repeated : e.name ∈ (es.take n).map (·.name)) :
      BuildFails es rs (.flawed e.name .repeatedEntity)
  /-- A column has an unknown type: the first such column of an entity with a new name. All entities
  before it are sound. -/
  | unknownType {n k : Nat} {e : Entity} {c : Column} (here : es[n]? = some e)
      (before : Sound [] (es.take n)) (fresh : e.name ∉ (es.take n).map (·.name))
      (column : IsFirst (¬ Column.IsTyped ·) e.columns k c) :
      BuildFails es rs (.unknownTypeIn e.name c.name c.type)
  /-- An end has an unknown cardinality: the first such end of the first relationship with one. All
  entities are sound. -/
  | unknownCardinality {n k : Nat} {r : Relationship} {e : End} (sound : Sound [] es)
      (relationship : IsFirst IllMarked (kept es rs) n r)
      (unmarked : IsFirst (¬ End.IsMarked ·) [r.first, r.second] k e) :
      BuildFails es rs (.flawed (labelOf n r) (.unknownCardinality (Text.trim e.cardinality)))

/-- The end of a link says what the end of the relationship says. -/
structure EndNormalized (s : Schema) (e : End) (x : LinkEnd) : Prop where
  /-- It stands at an entity of the schema. -/
  entity_lt : x.entity < s.size
  /-- The entity has the name that the end refers to. -/
  nameOf_entity : s.nameOf x.entity = e.reference
  /-- The cardinality has been read. -/
  cardinality : Cardinality.parse? e.cardinality = some x.cardinality
  /-- The given name is the one of the end without blanks around it, if it has text. -/
  givenName : ∀ name, x.givenName = some name ↔
    ∃ given, e.name = some given ∧ Text.hasText given = true ∧ name = Text.trim given
  /-- The name is the given one, or else the name of the entity in lower case. -/
  name : x.name = x.givenName.getD (Text.lower (s.nameOf x.entity))

/-- A link says what its relationship says. -/
structure LinkNormalized (s : Schema) (r : Relationship) (l : Link) : Prop where
  /-- The name is kept as it is, if it has text. -/
  name : ∀ name, l.name = some name ↔ r.name = some name ∧ Text.hasText name = true
  /-- The tags are kept. -/
  tags : l.tags = r.tags
  /-- Both ends say what the ends of the relationship say. -/
  ends : ∀ side, EndNormalized s (r.endAt side) (l.endAt side)

/-- A schema says what its entities and relationships say. -/
structure Normalized (s : Schema) (es : List Entity) (rs : List Relationship) : Prop where
  /-- Every entity has a table with its columns and their types. -/
  tables : List.Forall₂ TableOf es s.tables
  /-- The number of an entity leads to its name. -/
  nameOf_eq : ∀ (i : Nat) (e : Entity), es[i]? = some e → s.nameOf i = e.name
  /-- The name of an entity leads back to its number. -/
  idOf?_nameOf : ∀ i < s.size, s.idOf? (s.nameOf i) = some i
  /-- Every relationship between the entities has a link, in the same order, and no other has one. -/
  links : List.Forall₂ (LinkNormalized s) (kept es rs) s.links
  /-- The links are numbered from zero. -/
  ids : s.links.map (·.id) = List.range s.links.length
  /-- The number of a link leads to the link. -/
  getElem?_id : ∀ l ∈ s.links, s.links[l.id]? = some l

/-! ### Failures -/

theorem not_illMarked_iff {r : Relationship} :
    ¬ IllMarked r ↔ r.first.IsMarked ∧ r.second.IsMarked := by
  simp [IllMarked]

/-- The relationships inside are those that are kept. -/
theorem filter_isInside_eq (es : List Entity) (rs : List Relationship) :
    rs.filter (isInside (numberIn es)) = kept es rs := by
  rw [kept]
  exact List.filter_congr fun r _ => isInside_numberIn es r

/-- A schema is not built exactly for these reasons. -/
theorem build_eq_error_iff_fails {f : Failure} :
    (build es rs).outcome = .error f ↔ BuildFails es rs f := by
  rw [build_eq_error_iff, filter_isInside_eq]
  constructor
  · rintro (⟨n, e, he, hs, ⟨hr, rfl⟩ | ⟨hr, k, c, hc, rfl⟩⟩ | ⟨hs, n, r, hr, k, e, he, rfl⟩)
    · exact .repeatedName he hs (hr.resolve_left List.not_mem_nil)
    · exact .unknownType he hs (fun h => hr (.inr h)) hc
    · exact .unknownCardinality hs hr he
  · intro h
    cases h with
    | repeatedName he hs hr => exact .inl ⟨_, _, he, hs, .inl ⟨.inr hr, rfl⟩⟩
    | unknownType he hs hf hc =>
      exact .inl ⟨_, _, he, hs, .inr ⟨fun hr => hr.elim List.not_mem_nil hf, _, _, hc, rfl⟩⟩
    | unknownCardinality hs hr he => exact .inr ⟨hs, _, _, hr, _, _, he, rfl⟩

/-- A schema is built exactly from what is buildable. -/
theorem exists_build_iff_buildable :
    (∃ s, (build es rs).outcome = .ok s) ↔ Buildable es rs := by
  have hmarked : (¬ ∃ r ∈ rs, isInside (numberIn es) r = true ∧ IllMarked r) ↔
      ∀ r ∈ kept es rs, r.first.IsMarked ∧ r.second.IsMarked := by
    simp only [not_exists, not_and, not_illMarked_iff, kept, List.mem_filter, isInside_numberIn,
      and_imp]
  rw [exists_build_iff, sound_iff, hmarked]
  exact ⟨fun h => ⟨h.1.1, h.1.2, h.2⟩, fun h => ⟨⟨h.distinct, h.typed⟩, h.marked⟩⟩

/-! ### What is built -/

namespace Resolves

/-- The end of a link says what the end of its relationship says. -/
theorem endNormalized (h : s.Resolves es rs) {e : End} {x : LinkEnd} (hx : EndOf s.idOf? e x) :
    EndNormalized s e x where
  entity_lt := h.idOf?_lt hx.entity
  nameOf_entity := h.nameOf_entity hx
  cardinality := hx.cardinality
  givenName name := by
    rw [hx.givenName, Option.bind_eq_some_iff]
    refine exists_congr fun given => and_congr_right fun _ => ?_
    unfold Text.trim?
    split
    case isTrue ht => simp [ht, eq_comm]
    case isFalse ht => simp [ht]
  name := by rw [h.nameOf_entity hx, hx.name]

/-- A link says what its relationship says. -/
theorem linkNormalized (h : s.Resolves es rs) {n : Nat} {r : Relationship} {l : Link}
    (hl : LinkOf s.idOf? n r l) : LinkNormalized s r l where
  name name := by rw [hl.name, Option.filter_eq_some_iff]
  tags := hl.tags
  ends side := h.endNormalized (hl.endAt side)

/-- The name of an entity leads back to its number. -/
theorem idOf?_nameOf (h : s.Resolves es rs) {i : Nat} (hi : i < s.size) :
    s.idOf? (s.nameOf i) = some i := by
  rw [h.size_eq] at hi
  have he : es[i]? = some es[i] := List.getElem?_eq_getElem hi
  rw [h.nameOf_eq he]
  exact h.idOf?_eq_some_iff.2 ⟨es[i], he, rfl⟩

/-- A schema says what it is resolved from. -/
theorem normalized (h : s.Resolves es rs) : Normalized s es rs where
  tables := h.tables
  nameOf_eq _ _ he := h.nameOf_eq he
  idOf?_nameOf _ hi := h.idOf?_nameOf hi
  links := by
    have hl := h.links
    rw [idOf?_eq_numberIn h.tables, filter_isInside_eq, ← idOf?_eq_numberIn h.tables] at hl
    rw [← List.zipIdx_map_fst 0 (kept es rs), List.forall₂_map_left_iff]
    exact hl.imp fun _ _ hxl => h.linkNormalized hxl
  ids := h.map_id_links
  getElem?_id l hl := h.getElem?_links_iff.2 ⟨hl, rfl⟩

end Resolves

/-! ### Building -/

/-- What building a schema leads to. -/
structure BuildOutcome (es : List Entity) (rs : List Relationship) : Prop where
  /-- It fails exactly for these reasons. -/
  fails : ∀ f, (build es rs).outcome = .error f ↔ BuildFails es rs f
  /-- It succeeds exactly for these entities and relationships. -/
  answers : (∃ s, (build es rs).outcome = .ok s) ↔ Buildable es rs
  /-- What it answers says what they say. -/
  normalized : ∀ s, (build es rs).outcome = .ok s → Normalized s es rs

/-- **When a schema is built**: exactly when nothing is wrong with the entities and with the
relationships between them, and the first thing that is wrong is the failure. -/
theorem build_outcome (es : List Entity) (rs : List Relationship) : BuildOutcome es rs where
  fails _ := build_eq_error_iff_fails
  answers := exists_build_iff_buildable
  normalized _ hs := (resolves_of_build hs).normalized

end EntityRelation.Schema
