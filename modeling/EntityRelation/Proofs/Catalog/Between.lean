import EntityRelation.Catalog
import EntityRelation.Proofs.Encounter
import EntityRelation.Proofs.Places
import Mathlib.Data.List.Nodup

/-!
# The relationships between entities

The relationships between the entities of a list are gathered entity by entity, and those that are
there already are left out by their place in the diagram. Since every place holds one relationship,
the entities simply take the relationships inside the list in the order in which they meet them
(`between_eq`), so that every relationship inside is there once (`between_perm`).
**`eq_between_iff`** tells the answer without the gathering: what lies between the entities, in the
order of the first entity that is touched.
-/

namespace EntityRelation.Catalog

variable {c : Catalog} {all names : List String} {entities : List Entity}

/-- No two relationships stand at one place. -/
theorem nodup_numbered (c : Catalog) : (c.numbered.map (·.2)).Nodup := by
  rw [numbered, List.zipIdx_map_snd]
  exact List.nodup_range'

theorem mem_numbered_iff {r : Relationship} {i : Nat} :
    (r, i) ∈ c.numbered ↔ c.diagram.relationships[i]? = some r := by
  rw [numbered, List.mem_zipIdx_iff_getElem?]

/-- The relationships inside a list of names that are not there yet. -/
def fresh (c : Catalog) (all : List String) (found : List (Relationship × Nat)) :
    List (Relationship × Nat) :=
  c.numbered.filter fun r => inside all r.1 && !found.any (·.2 == r.2)

/-- A name gathers what stands at it and is not there yet. -/
theorem filter_relationshipsOf (c : Catalog) (all : List String)
    (found : List (Relationship × Nat)) (name : String) :
    (c.relationshipsOf name (inside all)).filter (fun r => !found.any (·.2 == r.2)) =
      (c.fresh all found).filter (·.1.touches name) := by
  rw [relationshipsOf, fresh, List.filter_filter, List.filter_filter]
  refine List.filter_congr fun r _ => ?_
  cases r.1.touches name <;> simp [Bool.and_comm]

/-- What a name has gathered is no longer to be gathered. -/
theorem fresh_append (c : Catalog) (all : List String) (found : List (Relationship × Nat))
    (name : String) :
    c.fresh all (found ++ (c.fresh all found).filter (·.1.touches name)) =
      (c.fresh all found).filter fun r => !r.1.touches name := by
  conv_rhs => rw [fresh, List.filter_filter]
  refine List.filter_congr fun r hr => ?_
  have hm : ((c.fresh all found).filter (·.1.touches name)).any (·.2 == r.2) =
      (r.1.touches name && (inside all r.1 && !found.any (·.2 == r.2))) := by
    rw [Bool.eq_iff_iff, List.any_eq_true]
    constructor
    · rintro ⟨x, hx, hxr⟩
      obtain ⟨hx, ht⟩ := List.mem_filter.1 hx
      obtain ⟨hx, hf⟩ := List.mem_filter.1 hx
      obtain rfl := List.inj_on_of_nodup_map c.nodup_numbered hx hr (beq_iff_eq.1 hxr)
      rw [ht, hf]
      rfl
    · intro h
      rw [Bool.and_eq_true] at h
      exact ⟨r, List.mem_filter.2 ⟨List.mem_filter.2 ⟨hr, h.2⟩, h.1⟩, beq_self_eq_true _⟩
  rw [List.any_append, hm]
  cases inside all r.1 <;> cases found.any (·.2 == r.2) <;> cases r.1.touches name <;> rfl

/-- What is gathered for some names is what they meet of what is not there yet. -/
theorem gather_eq (c : Catalog) (all : List String) (found : List (Relationship × Nat))
    (names : List String) :
    c.gather all found names =
      found ++ met (fun name r => r.1.touches name) names (c.fresh all found) := by
  induction names generalizing found with
  | nil => simp [gather, met]
  | cons name names ih =>
    rw [gather, filter_relationshipsOf, ih, fresh_append, met, List.append_assoc]

/-- The entities of a list meet the relationships between them. -/
theorem between_eq (c : Catalog) (entities : List Entity) :
    c.between entities = met (fun name r => r.1.touches name) (entities.map (·.name))
      (c.numbered.filter fun r => inside (entities.map (·.name)) r.1) := by
  simp [between, gather_eq, fresh]

/-- Apart from their places, the relationships between entities are told by those inside. -/
theorem map_fst_between (c : Catalog) (entities : List Entity) :
    (c.between entities).map (·.1) = met (fun name r => r.touches name) (entities.map (·.name))
      (c.diagram.relationships.filter (inside (entities.map (·.name)))) := by
  have hin : (c.numbered.filter fun r => inside (entities.map (·.name)) r.1).map (·.1) =
      c.diagram.relationships.filter (inside (entities.map (·.name))) := by
    show List.map Prod.fst (c.numbered.filter (inside (entities.map (·.name)) ∘ Prod.fst)) = _
    rw [← List.filter_map, numbered, List.zipIdx_map_fst]
  rw [between_eq, map_met (fun name r => Relationship.touches r name) Prod.fst, hin]

/-- A relationship inside a list of names stands at one of them. -/
theorem any_touches_of_inside {r : Relationship} (h : inside names r = true) :
    names.any r.touches = true := by
  rw [inside, Bool.and_eq_true, List.contains_iff_mem] at h
  exact List.any_eq_true.2 ⟨_, h.1, by simp [Relationship.touches]⟩

/-- Every relationship inside is there once. -/
theorem between_perm (c : Catalog) (entities : List Entity) :
    (c.between entities).Perm
      (c.numbered.filter fun r => inside (entities.map (·.name)) r.1) := by
  rw [between_eq]
  refine (met_perm _ _ _).trans (.of_eq (List.filter_eq_self.2 fun r hr => ?_))
  exact any_touches_of_inside (List.mem_filter.1 hr).2

theorem mem_between_iff {r : Relationship} {i : Nat} : (r, i) ∈ c.between entities ↔
    c.diagram.relationships[i]? = some r ∧ inside (entities.map (·.name)) r = true := by
  rw [(between_perm c entities).mem_iff, List.mem_filter, mem_numbered_iff]

theorem nodup_between (c : Catalog) (entities : List Entity) :
    ((c.between entities).map (·.2)).Nodup := by
  rw [((between_perm c entities).map _).nodup_iff]
  exact (List.filter_sublist.map _).nodup c.nodup_numbered

/-- The place in the diagram of the relationship with a number between some entities. -/
def placeOf? (c : Catalog) (entities : List Entity) (n : Nat) : Option Nat :=
  (c.between entities)[n]?.map (·.2)

/-- Relationships with different numbers stand at different places. -/
theorem placeOf?_eq_some_iff {r : Relationship} {i n k : Nat}
    (h : (c.between entities)[n]? = some (r, i)) : c.placeOf? entities k = some i ↔ k = n := by
  have hn : ((c.between entities).map (·.2))[n]? = some i := by rw [List.getElem?_map, h]; rfl
  have hlt : n < ((c.between entities).map (·.2)).length := (List.getElem?_eq_some_iff.1 hn).1
  rw [placeOf?, ← List.getElem?_map, ← hn, eq_comm,
    List.getElem?_inj hlt (c.nodup_between entities), eq_comm]

/-! ### The answer without the gathering -/

/-- The place of the first entity of a list that a relationship touches. -/
def firstTouched (entities : List Entity) (r : Relationship) : Nat :=
  entities.findIdx fun e => r.touches e.name

/-- One relationship comes before another: it touches an earlier entity, or the same one first and
stands earlier in the diagram. -/
def ComesFirst (entities : List Entity) (a b : Relationship × Nat) : Prop :=
  firstTouched entities a.1 < firstTouched entities b.1 ∨
    (firstTouched entities a.1 = firstTouched entities b.1 ∧ a.2 < b.2)

/-- The relationships at their places of the diagram that lie between the entities of a list. -/
structure LiesBetween (d : Diagram) (entities : List Entity) (rs : List (Relationship × Nat)) :
    Prop where
  /-- They are the relationships of the diagram with an entity of the list at both ends. -/
  mem_iff : ∀ r i, (r, i) ∈ rs ↔ d.relationships[i]? = some r ∧
    (∃ e ∈ entities, e.name = r.first.reference) ∧ ∃ e ∈ entities, e.name = r.second.reference
  /-- No place of the diagram is there twice. -/
  nodup : (rs.map (·.2)).Nodup
  /-- Each comes before the ones behind it. -/
  ordered : rs.Pairwise (ComesFirst entities)

theorem ComesFirst.asymm {a b : Relationship × Nat} (h : ComesFirst entities a b) :
    ¬ ComesFirst entities b a := by
  unfold ComesFirst at *
  omega

theorem inside_map_name_iff {r : Relationship} : inside (entities.map (·.name)) r = true ↔
    (∃ e ∈ entities, e.name = r.first.reference) ∧ ∃ e ∈ entities, e.name = r.second.reference := by
  rw [inside, Bool.and_eq_true, List.contains_iff_mem, List.contains_iff_mem, List.mem_map,
    List.mem_map]

/-- The relationships come in the order of the first entity that they touch. -/
theorem pairwise_between (c : Catalog) (entities : List Entity) :
    (c.between entities).Pairwise (ComesFirst entities) := by
  have hplaces : c.numbered.Pairwise fun a b => a.2 < b.2 := by
    rw [← List.pairwise_map (f := Prod.snd) (R := (· < ·)), numbered, List.zipIdx_map_snd]
    exact List.pairwise_lt_range'
  have hfirst : ∀ r : Relationship × Nat,
      (entities.map (·.name)).findIdx (fun name => r.1.touches name) = firstTouched entities r.1 :=
    fun r => List.findIdx_map _ _ _
  rw [between_eq]
  refine (pairwise_met (hplaces.filter _)).imp fun {a b} h => ?_
  rwa [hfirst, hfirst] at h

/-- What the entities of a list gather lies between them. -/
theorem liesBetween_between (c : Catalog) (entities : List Entity) :
    LiesBetween c.diagram entities (c.between entities) where
  mem_iff r i := by rw [mem_between_iff, inside_map_name_iff]
  nodup := c.nodup_between entities
  ordered := c.pairwise_between entities

/-- **The relationships between the entities of a list**: each relationship of the diagram with an
entity of the list at both ends is there exactly once, in the order of the first entity that it
touches and then of the diagram, and there is only one list of which this is true. -/
theorem eq_between_iff (c : Catalog) (entities : List Entity) (rs : List (Relationship × Nat)) :
    rs = c.between entities ↔ LiesBetween c.diagram entities rs := by
  constructor
  · rintro rfl
    exact c.liesBetween_between entities
  · intro h
    have hb := c.liesBetween_between entities
    have hperm : rs.Perm (c.between entities) := by
      refine (List.perm_ext_iff_of_nodup h.nodup.of_map hb.nodup.of_map).2 fun ⟨r, i⟩ => ?_
      rw [h.mem_iff, hb.mem_iff]
    exact hperm.eq_of_pairwise (fun a b _ _ hab hba => absurd hba hab.asymm) h.ordered hb.ordered

end EntityRelation.Catalog
