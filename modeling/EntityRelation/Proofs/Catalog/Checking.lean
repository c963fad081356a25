import EntityRelation.Proofs.Catalog.Acceptance

/-!
# When a diagram becomes a catalog

A diagram becomes a catalog exactly if every entity has a name with text, no two entities of all
packages share a name, and every end of a relationship refers to an entity by its name
(`Acceptable`). Otherwise the first offence decides (`CheckFails`): the entities come package by
package, and a blank name is noticed before a repeated one; then the relationships come in their
order, the first end before the second one. The catalog holds the diagram as it is. An entity is
found by its name at the spot that the index has for it (`lookup_index_eq_some_iff`), which is where
a search through all packages ends (`entity?_eq_find?`). **`check_outcome`** puts these together.
-/

namespace EntityRelation

/-- The end refers to an entity of the diagram by its name. -/
def End.RefersIn (d : Diagram) (e : End) : Prop := ∃ x ∈ d.entities, x.name = e.reference

/-- An end of the relationship refers to no entity of the diagram. -/
def Relationship.DanglesIn (d : Diagram) (r : Relationship) : Prop :=
  ∃ e ∈ [r.first, r.second], ¬ e.RefersIn d

namespace Catalog

variable {α : Type} {d : Diagram} {c : Catalog} {f : Failure}

/-- A diagram that becomes a catalog. -/
structure Acceptable (d : Diagram) : Prop where
  /-- The names of the entities have text and differ from each other, in all packages. -/
  wellNamed : WellNamed d.entities
  /-- Every end refers to an entity. -/
  refers : ∀ r ∈ d.relationships, ∀ e ∈ [r.first, r.second], e.RefersIn d

/-- Why a diagram does not become a catalog. -/
inductive CheckFails (d : Diagram) : Failure → Prop where
  /-- An entity has a blank name. All entities before it, package by package, are well named. -/
  | unnamed {above below : List Package} {p : Package} {before after : List Entity} {e : Entity}
      (package : d.packages = above ++ p :: below) (entity : p.entities = before ++ e :: after)
      (sound : WellNamed (above.flatMap (·.entities) ++ before))
      (blank : Text.hasText e.name = false) :
      CheckFails d (.flawed ("package " ++ p.name) (.unnamedEntity (before.length + 1)))
  /-- An entity has the name of one before it. All entities before it are well named. -/
  | repeated {above below : List Package} {p : Package} {before after : List Entity} {e : Entity}
      (package : d.packages = above ++ p :: below) (entity : p.entities = before ++ e :: after)
      (sound : WellNamed (above.flatMap (·.entities) ++ before))
      (named : Text.hasText e.name = true)
      (repeated : e.name ∈ (above.flatMap (·.entities) ++ before).map (·.name)) :
      CheckFails d (.flawed e.name .repeatedEntity)
  /-- An end refers to no entity: the first such end of the first relationship with one. All
  entities are well named. -/
  | unknown {n k : Nat} {r : Relationship} {e : End} (sound : WellNamed d.entities)
      (relationship : IsFirst (·.DanglesIn d) d.relationships n r)
      (missing : IsFirst (fun e => ¬ e.RefersIn d) [r.first, r.second] k e) :
      CheckFails d (.flawed (r.label n) (.unknownEntity e.reference))

/-- A check and what comes after it fail if the check fails, or if it lets through and the rest
fails. -/
theorem check_bind_eq_error_iff {x : Except Failure Unit} {rest : Except Failure α} :
    (x >>= fun _ => rest) = .error f ↔ x = .error f ∨ (x = .ok () ∧ rest = .error f) := by
  cases x <;> simp [bind, Except.bind]

/-! ### Names -/

/-- What is wrong with an entity after entities with the names `seen`. -/
def Offence (seen : List String) (x : Placed) (f : Failure) : Prop :=
  (Text.hasText x.entity.name = false ∧
      f = .flawed ("package " ++ x.package) (.unnamedEntity x.place)) ∨
    (Text.hasText x.entity.name = true ∧ x.entity.name ∈ seen ∧
      f = .flawed x.entity.name .repeatedEntity)

/-- The failure of the first entity that does not pass, where the names `seen` are taken. -/
def FirstOffence (seen : List String) (xs : List Placed) (f : Failure) : Prop :=
  ∃ above x below, xs = above ++ x :: below ∧ Passes seen (above.map (·.entity)) ∧
    Offence ((above.map (·.entity)).map (·.name) ++ seen) x f

/-- What is wrong depends on which names there are. -/
theorem Offence.mono {seen seen' : List String} {x : Placed} (h : Offence seen x f)
    (hs : ∀ name ∈ seen, name ∈ seen') : Offence seen' x f :=
  h.imp_right fun ⟨ht, hm, hf⟩ => ⟨ht, hs _ hm, hf⟩

/-- The first entity offends, or it passes and one behind it is the first that offends. -/
theorem firstOffence_cons_iff {seen : List String} {x : Placed} {xs : List Placed} :
    FirstOffence seen (x :: xs) f ↔ Offence seen x f ∨
      (Text.hasText x.entity.name = true ∧ x.entity.name ∉ seen ∧
        FirstOffence (x.entity.name :: seen) xs f) := by
  constructor
  · rintro ⟨above, y, below, hxs, hp, ho⟩
    cases above with
    | nil =>
      obtain ⟨rfl, -⟩ := List.cons.inj hxs
      exact .inl ho
    | cons a above =>
      obtain ⟨rfl, rfl⟩ := List.cons.inj hxs
      obtain ⟨ht, hn, hp⟩ := passes_cons_iff.1 hp
      refine .inr ⟨ht, hn, above, y, below, rfl, hp, ho.mono fun name hm => ?_⟩
      exact List.perm_middle.mem_iff.2 hm
  · rintro (ho | ⟨ht, hn, above, y, below, rfl, hp, ho⟩)
    · exact ⟨[], x, xs, rfl, passes_nil seen, ho⟩
    · refine ⟨x :: above, y, below, rfl, passes_cons_iff.2 ⟨ht, hn, hp⟩, ho.mono fun name hm => ?_⟩
      exact List.perm_middle.mem_iff.1 hm

/-- The check of the names fails at the first entity that does not pass. -/
theorem checkNames_eq_error_iff {seen : List String} {xs : List Placed} :
    checkNames seen xs = .error f ↔ FirstOffence seen xs f := by
  induction xs generalizing seen with
  | nil =>
    refine iff_of_false (fun h => nomatch h) ?_
    rintro ⟨above, x, below, h, -⟩
    simp at h
  | cons x xs ih =>
    rw [checkNames, firstOffence_cons_iff, ← ih, Offence]
    by_cases ht : Text.hasText x.entity.name = true
    · by_cases hs : x.entity.name ∈ seen
      · simp [ht, hs, eq_comm]
      · simp [ht, hs]
    · simp [ht, eq_comm]

/-- The entities of a package stand at their places. -/
theorem placedOf_of_entities_eq {p : Package} {es fs : List Entity} {e : Entity}
    (h : p.entities = es ++ e :: fs) : ∃ above below,
      placedOf p = above ++ ⟨p.name, es.length + 1, e⟩ :: below ∧
        above.map (·.entity) = es := by
  refine ⟨es.zipIdx.map fun x => ⟨p.name, x.2 + 1, x.1⟩,
    (fs.zipIdx (es.length + 1)).map fun x => ⟨p.name, x.2 + 1, x.1⟩, ?_, ?_⟩
  · rw [placedOf, h]
    simp [List.zipIdx_append, List.zipIdx_cons]
  · rw [List.map_map]
    exact List.zipIdx_map_fst 0 es

/-- What stands at a place of a package is the entity there. -/
theorem entities_eq_of_placedOf {p : Package} {above below : List Placed} {x : Placed}
    (h : placedOf p = above ++ x :: below) : ∃ es e fs, p.entities = es ++ e :: fs ∧
      above.map (·.entity) = es ∧ x = ⟨p.name, es.length + 1, e⟩ := by
  have hes : p.entities = above.map (·.entity) ++ x.entity :: below.map (·.entity) := by
    rw [← map_entity_placedOf, h, List.map_append, List.map_cons]
  refine ⟨_, _, _, hes, rfl, ?_⟩
  have hx : (placedOf p)[above.length]? = some x := by
    rw [h]
    simp
  rw [placedOf, List.getElem?_map, List.getElem?_zipIdx] at hx
  rw [hes] at hx
  simpa [eq_comm] using hx

/-- The first entity that offends stands in a package, behind entities of the package and of the
packages above that are all well named. -/
theorem firstOffence_placed_iff : FirstOffence [] (placed d) f ↔
    ∃ ps p qs es e fs, d.packages = ps ++ p :: qs ∧ p.entities = es ++ e :: fs ∧
      WellNamed (ps.flatMap (·.entities) ++ es) ∧
        Offence ((ps.flatMap (·.entities) ++ es).map (·.name)) ⟨p.name, es.length + 1, e⟩ f := by
  constructor
  · rintro ⟨above, x, below, hd, hp, ho⟩
    obtain ⟨ps, p, qs, ys, zs, hps, hpe, rfl⟩ := flatMap_eq_append_cons hd
    obtain ⟨es, e, fs, hes, hys, rfl⟩ := entities_eq_of_placedOf hpe
    have habove : (ps.flatMap placedOf ++ ys).map (·.entity) = ps.flatMap (·.entities) ++ es := by
      rw [List.map_append, hys, List.map_flatMap]
      simp only [map_entity_placedOf]
    rw [habove] at hp ho
    exact ⟨ps, p, qs, es, e, fs, hps, hes, passes_nil_iff.1 hp, by simpa using ho⟩
  · rintro ⟨ps, p, qs, es, e, fs, hps, hes, hw, ho⟩
    obtain ⟨ys, zs, hpe, hys⟩ := placedOf_of_entities_eq hes
    have habove : (ps.flatMap placedOf ++ ys).map (·.entity) = ps.flatMap (·.entities) ++ es := by
      rw [List.map_append, hys, List.map_flatMap]
      simp only [map_entity_placedOf]
    refine ⟨ps.flatMap placedOf ++ ys, ⟨p.name, es.length + 1, e⟩, zs ++ qs.flatMap placedOf,
      ?_, ?_, ?_⟩
    · rw [placed, hps, List.flatMap_append, List.flatMap_cons, hpe]
      simp
    · rw [habove]
      exact passes_nil_iff.2 hw
    · rw [habove]
      simpa using ho

/-! ### Ends -/

theorem mem_names_iff {e : End} : e.reference ∈ d.entities.map (·.name) ↔ e.RefersIn d :=
  List.mem_map

/-- An end fails if it refers to none of the names. -/
theorem checkEnd_eq_error_iff {label : String} {e : End} :
    checkEnd (d.entities.map (·.name)) label e = .error f ↔
      ¬ e.RefersIn d ∧ f = .flawed label (.unknownEntity e.reference) := by
  rw [checkEnd, ← mem_names_iff]
  by_cases h : e.reference ∈ d.entities.map (·.name)
  · simp [h]
  · simp [h, eq_comm]

theorem checkEnd_eq_ok_iff {label : String} {e : End} :
    checkEnd (d.entities.map (·.name)) label e = .ok () ↔ e.RefersIn d := by
  rw [checkEnd, ← mem_names_iff]
  by_cases h : e.reference ∈ d.entities.map (·.name)
  · simp [h]
  · simp [h]

/-- The failure of a relationship at a place, at its first end that refers to no entity. -/
def EndOffence (d : Diagram) (place : Nat) (r : Relationship) (f : Failure) : Prop :=
  ∃ k e, IsFirst (fun e => ¬ e.RefersIn d) [r.first, r.second] k e ∧
    f = .flawed (r.label place) (.unknownEntity e.reference)

/-- Relationships fail at the first one that dangles. -/
theorem checkEnds_eq_error_iff {rs : List Relationship} {place : Nat} :
    checkEnds (d.entities.map (·.name)) (rs.zipIdx place) = .error f ↔
      ∃ n r, IsFirst (·.DanglesIn d) rs n r ∧ EndOffence d (place + n) r f := by
  induction rs generalizing place with
  | nil => exact iff_of_false (fun h => nomatch h) IsFirst.not_exists_nil
  | cons r rs ih =>
    have hends : EndOffence d place r f ↔
        (¬ r.first.RefersIn d ∧ f = .flawed (r.label place) (.unknownEntity r.first.reference)) ∨
          (r.first.RefersIn d ∧ ¬ r.second.RefersIn d ∧
            f = .flawed (r.label place) (.unknownEntity r.second.reference)) := by
      rw [EndOffence, IsFirst.exists_cons_iff, IsFirst.exists_cons_iff]
      simp only [IsFirst.not_exists_nil, and_false, or_false, not_not]
    have hdangles : r.DanglesIn d ↔ ¬ r.first.RefersIn d ∨ ¬ r.second.RefersIn d := by
      simp [Relationship.DanglesIn]
    rw [IsFirst.exists_cons_iff (Q := fun n r => EndOffence d (place + n) r f), Nat.add_zero,
      List.zipIdx_cons, checkEnds, hends, hdangles, check_bind_eq_error_iff,
      check_bind_eq_error_iff, checkEnd_eq_error_iff, checkEnd_eq_error_iff, checkEnd_eq_ok_iff,
      checkEnd_eq_ok_iff, ih]
    simp only [Nat.add_assoc, Nat.add_comm 1]
    by_cases hf : r.first.RefersIn d
    · by_cases hs : r.second.RefersIn d
      · simp [hf, hs]
      · simp [hf, hs]
    · simp [hf]

/-! ### Checks -/

/-- A diagram fails by the names of its entities or, all of them being well named, by an end. -/
theorem ofDiagram_eq_error_iff : ofDiagram d = .error f ↔ CheckFails d f := by
  have hnames : checkNames [] (placed d) = .ok () ↔ WellNamed d.entities := by
    rw [checkNames_eq_ok_iff, map_entity_placed, passes_nil_iff]
  rw [ofDiagram, check_bind_eq_error_iff, check_bind_eq_error_iff, checkNames_eq_error_iff,
    firstOffence_placed_iff, checkEnds_eq_error_iff, hnames]
  simp only [reduceCtorEq, and_false, or_false, Nat.zero_add]
  constructor
  · rintro (⟨ps, p, qs, es, e, fs, hps, hes, hw, ⟨ht, rfl⟩ | ⟨ht, hm, rfl⟩⟩ |
      ⟨hw, n, r, hr, k, e, he, rfl⟩)
    · exact .unnamed hps hes hw ht
    · exact .repeated hps hes hw ht hm
    · exact .unknown hw hr he
  · intro h
    cases h with
    | unnamed hps hes hw ht => exact .inl ⟨_, _, _, _, _, _, hps, hes, hw, .inl ⟨ht, rfl⟩⟩
    | repeated hps hes hw ht hm => exact .inl ⟨_, _, _, _, _, _, hps, hes, hw, .inr ⟨ht, hm, rfl⟩⟩
    | unknown hw hr he => exact .inr ⟨hw, _, _, hr, _, _, he, rfl⟩

/-- A diagram becomes a catalog exactly if it is acceptable. -/
theorem exists_ofDiagram_iff : (∃ c, ofDiagram d = .ok c) ↔ Acceptable d := by
  constructor
  · rintro ⟨c, h⟩
    obtain ⟨⟨⟩, hn, -⟩ := bind_eq_ok_iff.1 h
    have hw : WellNamed d.entities := by
      rwa [checkNames_eq_ok_iff, map_entity_placed, passes_nil_iff] at hn
    refine ⟨hw, fun r hr e he => ?_⟩
    by_contra hdangles
    obtain ⟨n, r', hr'⟩ := IsFirst.exists_of_mem (P := (·.DanglesIn d)) hr ⟨e, he, hdangles⟩
    obtain ⟨e', he', hn'⟩ := hr'.holds
    obtain ⟨k, x, hx⟩ := IsFirst.exists_of_mem (P := fun e => ¬ e.RefersIn d) he' hn'
    rw [ofDiagram_eq_error_iff.2 (.unknown hw hr' hx)] at h
    cases h
  · intro h
    refine exists_ok_of_ne_error fun f hf => ?_
    -- each failure names an entity or an end that is not acceptable
    cases ofDiagram_eq_error_iff.1 hf with
    | @unnamed above below p before after e hp he _ ht =>
      have hm : e ∈ d.entities := by simp [Diagram.entities, hp, he]
      rw [h.wellNamed.named e hm] at ht
      cases ht
    | @repeated above below p before after e hp he _ _ hm =>
      have hd : d.entities = (above.flatMap (·.entities) ++ before) ++
          e :: (after ++ below.flatMap (·.entities)) := by
        simp [Diagram.entities, hp, he]
      have hnd := h.wellNamed.distinct
      rw [hd, List.map_append, List.map_cons] at hnd
      exact List.disjoint_of_nodup_append hnd hm List.mem_cons_self
    | unknown _ hr _ =>
      obtain ⟨e, he, hn⟩ := hr.holds
      exact hn (h.refers _ hr.mem e he)

/-! ### The index -/

/-- The index has the spots of the diagram, each under the name of the entity there. -/
theorem mem_index_iff {name : String} {spot : Spot} :
    (name, spot) ∈ d.index ↔ ∃ e, d.entityAt? spot = some e ∧ e.name = name := by
  simp only [Diagram.index, Diagram.entityAt?, List.mem_flatMap, List.mem_map, Prod.exists,
    List.mem_zipIdx_iff_getElem?, Option.bind_eq_some_iff, Prod.mk.injEq]
  constructor
  · rintro ⟨p, i, hp, e, j, he, rfl, rfl⟩
    exact ⟨e, ⟨p, hp, he⟩, rfl⟩
  · rintro ⟨e, ⟨p, hp, he⟩, rfl⟩
    exact ⟨p, _, hp, e, _, he, rfl, rfl⟩

/-- The names in the index are those of the entities, in the same order. -/
theorem map_fst_index (d : Diagram) : d.index.map (·.1) = d.entities.map (·.name) := by
  have hp : ∀ x : Package × Nat, (x.1.entities.zipIdx.map fun y =>
      (y.1.name, Spot.mk x.2 y.2)).map (·.1) = x.1.entities.map (·.name) := by
    intro x
    conv_rhs => rw [← List.zipIdx_map_fst 0 x.1.entities]
    rw [List.map_map, List.map_map]
    rfl
  rw [Diagram.index, List.map_flatMap, Diagram.entities, List.map_flatMap]
  conv_rhs => rw [← List.zipIdx_map_fst 0 d.packages, List.flatMap_map]
  exact List.flatMap_congr fun x _ => hp x

/-- What stands in a diagram stands at a spot. -/
theorem mem_entities_iff {e : Entity} : e ∈ d.entities ↔ ∃ spot, d.entityAt? spot = some e := by
  rw [Diagram.entities, List.mem_flatMap]
  constructor
  · rintro ⟨p, hp, he⟩
    obtain ⟨i, hi⟩ := List.getElem?_of_mem hp
    obtain ⟨j, hj⟩ := List.getElem?_of_mem he
    exact ⟨⟨i, j⟩, Option.bind_eq_some_iff.2 ⟨p, hi, hj⟩⟩
  · rintro ⟨spot, h⟩
    obtain ⟨p, hp, he⟩ := Option.bind_eq_some_iff.1 h
    exact ⟨p, List.mem_of_getElem? hp, List.mem_of_getElem? he⟩

/-- If names differ, the index leads from a name to the spot of the entity with this name. -/
theorem lookup_index_eq_some_iff (h : (d.entities.map (·.name)).Nodup) {name : String}
    {spot : Spot} :
    d.index.lookup name = some spot ↔ ∃ e, d.entityAt? spot = some e ∧ e.name = name := by
  rw [← mem_index_iff, List.lookup_eq_some_iff]
  constructor
  · rintro ⟨above, below, hd, -⟩
    rw [hd]
    exact List.mem_append_right _ List.mem_cons_self
  · intro hm
    obtain ⟨above, below, hd⟩ := List.append_of_mem hm
    refine ⟨above, below, hd, fun x hx => ?_⟩
    rw [← map_fst_index, hd, List.map_append, List.map_cons] at h
    have hne : name ≠ x.1 := by
      rintro rfl
      exact List.disjoint_of_nodup_append h (List.mem_map_of_mem hx) List.mem_cons_self
    simpa using hne

/-- If names differ, two entities with one name stand at one spot. -/
theorem spot_eq_of_name_eq (h : (d.entities.map (·.name)).Nodup) {spot spot' : Spot}
    {e e' : Entity} (he : d.entityAt? spot = some e) (he' : d.entityAt? spot' = some e')
    (hn : e.name = e'.name) : spot = spot' := by
  have hl := (lookup_index_eq_some_iff h).2 ⟨e, he, rfl⟩
  have hl' := (lookup_index_eq_some_iff h).2 ⟨e', he', hn.symm⟩
  exact Option.some.inj (hl.symm.trans hl')

/-- If names differ, the entity with a name is the one at its spot. -/
theorem entity?_eq_some_iff (h : (c.diagram.entities.map (·.name)).Nodup) {name : String}
    {e : Entity} : c.entity? name = some e ↔
      ∃ spot, c.diagram.entityAt? spot = some e ∧ e.name = name := by
  simp only [entity?, Option.bind_eq_some_iff, lookup_index_eq_some_iff h]
  constructor
  · rintro ⟨spot, ⟨x, hx, hn⟩, he⟩
    obtain rfl := Option.some.inj (hx.symm.trans he)
    exact ⟨spot, he, hn⟩
  · rintro ⟨spot, he, hn⟩
    exact ⟨spot, ⟨e, he, hn⟩, he⟩

/-- A name has no entity exactly if no entity of the diagram has it. -/
theorem entity?_eq_none_iff (h : (c.diagram.entities.map (·.name)).Nodup) {name : String} :
    c.entity? name = none ↔ ∀ e ∈ c.diagram.entities, e.name ≠ name := by
  rw [Option.eq_none_iff_forall_ne_some]
  constructor
  · intro hnone e he hn
    obtain ⟨spot, hs⟩ := mem_entities_iff.1 he
    exact hnone e ((entity?_eq_some_iff h).2 ⟨spot, hs, hn⟩)
  · intro hall e he
    obtain ⟨spot, hs, hn⟩ := (entity?_eq_some_iff h).1 he
    exact hall e (mem_entities_iff.2 ⟨spot, hs⟩) hn

/-- If names differ, the index finds what a search through all packages finds. -/
theorem entity?_eq_find? (h : (c.diagram.entities.map (·.name)).Nodup) (name : String) :
    c.entity? name = c.diagram.entities.find? (·.name == name) := by
  cases hf : c.diagram.entities.find? (·.name == name) with
  | none => exact (entity?_eq_none_iff h).2 (by simpa using hf)
  | some e =>
    obtain ⟨spot, hs⟩ := mem_entities_iff.1 (List.mem_of_find?_eq_some hf)
    exact (entity?_eq_some_iff h).2 ⟨spot, hs, by simpa using List.find?_some hf⟩

/-! ### Checking -/

/-- A catalog finds the entities of a diagram by their names. -/
structure FindsByName (c : Catalog) (d : Diagram) : Prop where
  /-- A name leads to an entity that stands in some package and has this name. -/
  found : ∀ name e, c.entity? name = some e ↔
    ∃ spot, d.entityAt? spot = some e ∧ e.name = name
  /-- There is only one spot with such an entity. -/
  unique : ∀ spot spot' e e', d.entityAt? spot = some e → d.entityAt? spot' = some e' →
    e.name = e'.name → spot = spot'
  /-- A name leads nowhere exactly if no entity of any package has it. -/
  missing : ∀ name, c.entity? name = none ↔ ∀ p ∈ d.packages, ∀ e ∈ p.entities, e.name ≠ name
  /-- This is what a search through all packages finds. -/
  search : ∀ name, c.entity? name = (d.packages.flatMap (·.entities)).find? (·.name == name)

/-- What checking a diagram leads to. -/
structure CheckOutcome (d : Diagram) : Prop where
  /-- It fails exactly for these reasons. -/
  fails : ∀ f, ofDiagram d = .error f ↔ CheckFails d f
  /-- It succeeds exactly for these diagrams. -/
  answers : (∃ c, ofDiagram d = .ok c) ↔ Acceptable d
  /-- The diagram is kept as it is. -/
  diagram : ∀ c, ofDiagram d = .ok c → c.diagram = d
  /-- Its entities are found by their names. -/
  finds : ∀ c, ofDiagram d = .ok c → c.FindsByName d

/-- A catalog finds the entities of the diagram that it was made from. -/
theorem findsByName_of_ofDiagram (h : ofDiagram d = .ok c) : c.FindsByName d := by
  have hd := (exists_ofDiagram_iff.1 ⟨c, h⟩).wellNamed.distinct
  obtain rfl := diagram_of_ofDiagram h
  refine ⟨fun name e => entity?_eq_some_iff hd, fun spot spot' e e' => spot_eq_of_name_eq hd,
    fun name => ?_, entity?_eq_find? hd⟩
  rw [entity?_eq_none_iff hd]
  constructor
  · intro h p hp e he
    exact h e (List.mem_flatMap.2 ⟨p, hp, he⟩)
  · intro h e he
    obtain ⟨p, hp, he⟩ := List.mem_flatMap.1 he
    exact h p hp e he

/-- **When a diagram becomes a catalog**: exactly when its names are in order, and the first thing
that is not in order is the failure. The catalog holds the diagram as it is and finds each of its
entities by its name, in whatever package it stands. -/
theorem check_outcome (d : Diagram) : CheckOutcome d where
  fails _ := ofDiagram_eq_error_iff
  answers := exists_ofDiagram_iff
  diagram _ := diagram_of_ofDiagram
  finds _ := findsByName_of_ofDiagram

end Catalog

end EntityRelation
