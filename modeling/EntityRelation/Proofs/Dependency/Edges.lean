import EntityRelation.Proofs.Dependency.Answers

/-!
# The edges of a schema

Two rules that know nothing of each other have to agree for an edge: one says at which end the key
of a link lives, and the other how strongly its owner has to follow the target.
**`Schema.graph_tells_keys`**: an edge leads from one entity to another one exactly if the other one
owns the key of a link between them that is many-to-one or stands between one and zero or one; it is
hard exactly if one of these links is many at the owner, and soft otherwise. No edge leads from an
entity to itself. Links between two many ends, links of an entity to itself and links between ends
of the same cardinality give no edge, so that the graph is the same without them.

Several links between the same two entities give one edge in each direction, and their owners can be
on either side. What the edge is then is settled by which links there are and not by their order
(`joins_graph_iff`, `strength?_graph_eq_hard_iff`).
-/

namespace EntityRelation

open Dependency

namespace Link

/-- One end of a link is one, and the other is zero or one. -/
def IsUneven (l : Link) : Prop :=
  (l.first.cardinality = .one ∧ l.second.cardinality = .zeroOrOne) ∨
    (l.first.cardinality = .zeroOrOne ∧ l.second.cardinality = .one)

instance (l : Link) : Decidable l.IsEven := inferInstanceAs (Decidable (_ ∧ _ ∧ _))

/-- The link does not order entities: both its ends are many, or they stand at the same entity, or
they are not many and have the same cardinality. -/
def IsIdle (l : Link) : Prop := l.IsManyToMany ∨ l.isLoop = true ∨ l.IsEven

instance (l : Link) : Decidable l.IsIdle := inferInstanceAs (Decidable (_ ∨ _ ∨ _))

variable {l : Link} {side : Side}

/-- The owner of a key follows its target strictly if it stands at a many end. -/
theorem strength?_eq_hard_iff : l.strength? side = some .hard ↔
    ¬ l.isLoop = true ∧ (l.endAt side).cardinality.isMany = true := by
  unfold strength?
  split
  case isTrue hl => simp [hl]
  case isFalse hl =>
    cases h₁ : (l.endAt side).cardinality <;> cases h₂ : (l.endAt side.opposite).cardinality <;>
      simp [hl, Cardinality.isMany]

/-- The owner of a key could be the target if one end is one and the other zero or one. -/
theorem strength?_eq_soft_iff : l.strength? side = some .soft ↔
    ¬ l.isLoop = true ∧ l.IsUneven := by
  unfold strength? IsUneven
  split
  case isTrue hl => simp [hl]
  case isFalse hl =>
    cases side <;> cases h₁ : l.first.cardinality <;> cases h₂ : l.second.cardinality <;>
      simp [hl, endAt, Side.opposite, h₁, h₂]

end Link

/-- The entity `c` has the key of a link at a side, and the key refers to the entity `p`. -/
structure Schema.OwnsKey (s : Schema) (l : Link) (side : Side) (c p : Nat) : Prop where
  /-- The key lives at this side. -/
  here : s.keyPlace l side = .here
  /-- The owner stands there. -/
  owner : (l.endAt side).entity = c
  /-- The target stands at the other side. -/
  target : (l.endAt side.opposite).entity = p

/-- A schema without the links that do not order entities. -/
def Schema.withoutIdle (s : Schema) : Schema :=
  { s with links := s.links.filter fun l => ¬ l.IsIdle }

/-- The graph of a schema has its edges from the keys. -/
structure Schema.GraphTellsKeys (s : Schema) : Prop where
  /-- An edge joins two entities exactly if a key of the one to the other orders them. -/
  joins_iff : ∀ p c, p ≠ c → (s.graph.joins p c = true ↔
    ∃ l ∈ s.links, ∃ side, s.OwnsKey l side c p ∧ (l.IsManyToOne side ∨ l.IsUneven))
  /-- The edge is hard exactly if one of these keys stands at a many end. -/
  hard_iff : ∀ p c, p ≠ c → (s.graph.strength? p c = some .hard ↔
    ∃ l ∈ s.links, ∃ side, s.OwnsKey l side c p ∧ (l.endAt side).cardinality.isMany = true)
  /-- It is soft exactly if there are such keys and none of them stands at a many end. -/
  soft_iff : ∀ p c, p ≠ c → (s.graph.strength? p c = some .soft ↔
    (∃ l ∈ s.links, ∃ side, s.OwnsKey l side c p ∧ l.IsUneven) ∧
      ¬ ∃ l ∈ s.links, ∃ side, s.OwnsKey l side c p ∧ (l.endAt side).cardinality.isMany = true)
  /-- No edge leads from an entity to itself. -/
  no_loop : ∀ p, s.graph.strength? p p = none
  /-- A link that does not order entities gives no edge, from whichever side it is looked at. -/
  idle : ∀ l ∈ s.links, l.IsIdle → ∀ side, s.dependencyAt? l side = none
  /-- The graph is the same without such links. -/
  withoutIdle : s.withoutIdle.graph = s.graph

namespace Schema

variable {s : Schema} {l : Link} {side : Side} {p c : Nat}

/-! ### Keys that order their entities -/

/-- A key orders its entities if its owner is at a many end, or one end is one and the other zero or
one; unless both ends stand at the same entity. -/
theorem OwnsKey.strength?_isSome_iff (h : s.OwnsKey l side c p) (hne : p ≠ c) :
    (l.strength? side).isSome = true ↔ l.IsManyToOne side ∨ l.IsUneven := by
  have hloop : ¬ l.isLoop = true := by
    rw [l.isLoop_iff side, h.owner, h.target]
    exact hne.symm
  have hhard : l.strength? side = some .hard ↔ l.IsManyToOne side := by
    rw [Link.strength?_eq_hard_iff, and_iff_right hloop, Link.IsManyToOne,
      and_iff_left (isMany_opposite_of_here h.here)]
  have hsoft : l.strength? side = some .soft ↔ l.IsUneven := by
    rw [Link.strength?_eq_soft_iff, and_iff_right hloop]
  rw [← hhard, ← hsoft, Option.isSome_iff_exists]
  constructor
  · rintro ⟨- | -, hk⟩
    · exact .inr hk
    · exact .inl hk
  · rintro (hk | hk)
    · exact ⟨_, hk⟩
    · exact ⟨_, hk⟩

/-- A link that does not order entities gives no edge. -/
theorem dependencyAt?_of_isIdle (s : Schema) (h : l.IsIdle) (side : Side) :
    s.dependencyAt? l side = none := by
  refine Option.eq_none_iff_forall_ne_some.2 fun e he => ?_
  obtain ⟨hk, k, hs, -⟩ := dependencyAt?_eq_some_iff.1 he
  have hnone : l.strength? side = none := by
    refine (Link.strength?_eq_none_iff (isMany_opposite_of_here hk)).2 (h.resolve_left fun hm => ?_)
    rw [keyPlace_eq_junction_iff.2 hm] at hk
    cases hk
  rw [hnone] at hs
  cases hs

/-! ### Edges -/

/-- An edge of the graph is hard exactly if a key at a many end orders two entities. -/
theorem strength?_graph_eq_hard_iff : s.graph.strength? p c = some .hard ↔
    p ≠ c ∧ ∃ l ∈ s.links, ∃ side, s.OwnsKey l side c p ∧ l.strength? side = some .hard := by
  rw [graph, Graph.strength?_foldl_add_eq_hard_iff]
  simp only [mem_dependencies, dependencyAt?_eq_some_iff]
  constructor
  · rintro (h | ⟨e, ⟨l, hl, side, hk, k, hs, rfl⟩, rfl, rfl, hne, rfl⟩)
    · cases h
    · exact ⟨hne, l, hl, side, ⟨hk, rfl, rfl⟩, hs⟩
  · rintro ⟨hne, l, hl, side, ⟨hk, rfl, rfl⟩, hs⟩
    exact .inr ⟨_, ⟨l, hl, side, hk, .hard, hs, rfl⟩, rfl, rfl, hne, rfl⟩

theorem joins_graph_iff_ownsKey (hne : p ≠ c) : s.graph.joins p c = true ↔
    ∃ l ∈ s.links, ∃ side, s.OwnsKey l side c p ∧ (l.IsManyToOne side ∨ l.IsUneven) := by
  rw [joins_graph_iff, and_iff_right hne]
  constructor
  · rintro ⟨l, hl, side, hk, hs, hp, hc⟩
    have ho : s.OwnsKey l side c p := ⟨hk, hc, hp⟩
    exact ⟨l, hl, side, ho, (ho.strength?_isSome_iff hne).1 hs⟩
  · rintro ⟨l, hl, side, ho, hs⟩
    exact ⟨l, hl, side, ho.here, (ho.strength?_isSome_iff hne).2 hs, ho.target, ho.owner⟩

theorem strength?_graph_eq_hard_iff_ownsKey (hne : p ≠ c) : s.graph.strength? p c = some .hard ↔
    ∃ l ∈ s.links, ∃ side, s.OwnsKey l side c p ∧ (l.endAt side).cardinality.isMany = true := by
  rw [strength?_graph_eq_hard_iff, and_iff_right hne]
  refine exists_congr fun l => and_congr_right fun _ => exists_congr fun side =>
    and_congr_right fun ho => ?_
  rw [Link.strength?_eq_hard_iff, l.isLoop_iff side, ho.owner, ho.target]
  exact and_iff_right hne.symm

/-- An edge that is not hard is soft. -/
theorem strength?_graph_eq_soft_iff_ownsKey (hne : p ≠ c) : s.graph.strength? p c = some .soft ↔
    (∃ l ∈ s.links, ∃ side, s.OwnsKey l side c p ∧ l.IsUneven) ∧
      ¬ ∃ l ∈ s.links, ∃ side, s.OwnsKey l side c p ∧ (l.endAt side).cardinality.isMany = true := by
  have hsoft : s.graph.strength? p c = some .soft ↔
      s.graph.joins p c = true ∧ ¬ s.graph.strength? p c = some .hard := by
    rw [Graph.joins_iff]
    rcases s.graph.strength? p c with - | (- | -) <;> simp
  rw [hsoft, joins_graph_iff_ownsKey hne, strength?_graph_eq_hard_iff_ownsKey hne]
  refine and_congr_left fun hn => ?_
  constructor
  · rintro ⟨l, hl, side, ho, hm | hu⟩
    · exact absurd ⟨l, hl, side, ho, hm.1⟩ hn
    · exact ⟨l, hl, side, ho, hu⟩
  · rintro ⟨l, hl, side, ho, hu⟩
    exact ⟨l, hl, side, ho, .inr hu⟩

/-- Links that do not order entities do not count. -/
theorem dependencies_withoutIdle (s : Schema) : s.withoutIdle.dependencies = s.dependencies := by
  have hcongr : s.withoutIdle.dependencyAt? = s.dependencyAt? :=
    funext fun l => funext fun side => dependencyAt?_congr rfl rfl rfl
  rw [dependencies, dependencies, hcongr, Schema.withoutIdle]
  induction s.links with
  | nil => rfl
  | cons l ls ih =>
    rw [List.filter_cons, List.flatMap_cons]
    by_cases hl : l.IsIdle
    · have hnone : [Side.first, Side.second].filterMap (s.dependencyAt? l) = [] := by
        simp [s.dependencyAt?_of_isIdle hl]
      rw [if_neg (by simpa using hl), ih, hnone, List.nil_append]
    · rw [if_pos (by simpa using hl), List.flatMap_cons, ih]

/-- **The edges of a schema** are told by the keys that order their entities. -/
theorem graph_tells_keys (s : Schema) : s.GraphTellsKeys where
  joins_iff _ _ hne := joins_graph_iff_ownsKey hne
  hard_iff _ _ hne := strength?_graph_eq_hard_iff_ownsKey hne
  soft_iff _ _ hne := strength?_graph_eq_soft_iff_ownsKey hne
  no_loop p := by rw [s.graph_eq_ofHistory, Graph.strength?_ofHistory_self]
  idle _ _ hl side := s.dependencyAt?_of_isIdle hl side
  withoutIdle := by rw [graph, graph, dependencies_withoutIdle]

end Schema

end EntityRelation
