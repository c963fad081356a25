import EntityRelation.Proofs.Dependency.Rearranged
import EntityRelation.Proofs.Dependency.Respect
import Mathlib.Data.List.NodupEquivFin
import Mathlib.Data.List.Sort

/-!
# Unrelated entities do not disturb each other

Entities may fall into parts that no edge joins. **`parts_sorted_alone`**: a sort of all of them says
about each part what a sort of that part alone says, which entities come in which order and which
edges are given up in which order. So the entities of a package keep their order, and the edges
between them are given up as before, when entities and relationships are added anywhere that do not
order what is there (`AddsUnrelated`).

For a package the entities get other numbers when some are added, and so do the links. The
entities that were there are found in their order again (`exists_embedding`), they have the edges
that they had (`strength?_graph_eq`), and no edge leads to a new one (`name_mem_iff`), so that they
are a part of the larger graph (`partOf_graph`).
-/

namespace EntityRelation

open Dependency

/-- Entities and relationships are added that do not order the entities that are there. -/
structure AddsUnrelated (es : List Entity) (rs : List Relationship) (es' : List Entity)
    (rs' : List Relationship) : Prop where
  /-- Entities are put in anywhere. -/
  sublist : es.Sublist es'
  /-- The relationships that order the entities that are there stay the same. -/
  kept : ∀ r, ¬ r.IsNeutral es → (r ∈ rs ↔ r ∈ rs')
  /-- No relationship orders an entity that is there and a new one. -/
  unrelated : ∀ r ∈ rs', ¬ r.IsNeutral es' →
    (r.first.reference ∈ es.map (·.name) ↔ r.second.reference ∈ es.map (·.name))

namespace Schema

/-- An edge in the names of its entities. -/
def nameEdge (s : Schema) (e : Edge) : String × String × Strength :=
  (s.nameOf e.parent, s.nameOf e.child, e.strength)

/-- An order of one schema says what an order of another one says about the entities with some
names. -/
structure SaysWithin (names : List String) (s : Schema) (o : Order) (s' : Schema) (o' : Order) :
    Prop where
  /-- They are declared in the same order. -/
  placed : o.placed.map s.nameOf = (o'.placed.map s'.nameOf).filter fun n => names.contains n
  /-- The same edges between them are given up, in the same order. -/
  broken : o.broken.map s.nameEdge = (o'.broken.map s'.nameEdge).filter fun e =>
    names.contains e.1 && names.contains e.2.1

variable {s s' : Schema} {es es' : List Entity} {rs rs' : List Relationship} {f : Nat ↪o Nat}
variable {l : Link} {side : Side} {p c : Nat}

/-! ### The numbers of the entities that are there -/

theorem Resolves.nameOf_eq_getD (h : s.Resolves es rs) (i : Nat) :
    s.nameOf i = (es[i]?.map (·.name)).getD "" := by
  rw [← map_entity_of_tables h.tables, List.getElem?_map, Option.map_map]
  rfl

/-- An entity that is there has its name under the new number. -/
theorem nameOf_embed (h : s.Resolves es rs) (h' : s'.Resolves es' rs')
    (hf : ∀ i, es[i]? = es'[f i]?) (i : Nat) : s'.nameOf (f i) = s.nameOf i := by
  rw [h.nameOf_eq_getD, h'.nameOf_eq_getD, hf]

/-- A name that is there has the new number of its entity. -/
theorem idOf?_embed (h : s.Resolves es rs) (h' : s'.Resolves es' rs')
    (hf : ∀ i, es[i]? = es'[f i]?) {name : String} {i : Nat} (hi : s.idOf? name = some i) :
    s'.idOf? name = some (f i) := by
  rw [h.idOf?_eq_some_iff, hf] at hi
  exact h'.idOf?_eq_some_iff.2 hi

/-- The end of a relationship is the same end at the entity with the new number. -/
theorem EndOf.embed (h : s.Resolves es rs) (h' : s'.Resolves es' rs')
    (hf : ∀ i, es[i]? = es'[f i]?) {a : End} {x y : LinkEnd} (hx : EndOf s.idOf? a x)
    (hy : EndOf s'.idOf? a y) : y = x.renumber f := by
  have hxf : EndOf s'.idOf? a (x.renumber f) :=
    ⟨idOf?_embed h h' hf hx.entity, hx.cardinality, hx.givenName, hx.name⟩
  exact hy.unique hxf

/-- The new numbers are those of the entities whose name is there. -/
theorem map_ids_embed (h : s.Resolves es rs) (h' : s'.Resolves es' rs')
    (hf : ∀ i, es[i]? = es'[f i]?) :
    s.ids.map f = s'.ids.filter fun i => (es.map (·.name)).contains (s'.nameOf i) := by
  have hl : (s.ids.map f).Pairwise (· < ·) :=
    List.pairwise_map.2 (List.pairwise_lt_range.imp f.strictMono.imp)
  have hr : (s'.ids.filter fun i => (es.map (·.name)).contains (s'.nameOf i)).Pairwise (· < ·) :=
    List.pairwise_lt_range.filter _
  refine hl.eq_of_mem_iff hr fun j => ?_
  rw [List.mem_map, List.mem_filter, List.contains_iff_mem, List.mem_map]
  simp only [ids, List.mem_range, h.size_eq, h'.size_eq]
  constructor
  · rintro ⟨i, hi, rfl⟩
    have he : es'[f i]? = some es[i] := by rw [← hf, List.getElem?_eq_getElem hi]
    exact ⟨(List.getElem?_eq_some_iff.1 he).1, es[i], List.getElem_mem hi, (h'.nameOf_eq he).symm⟩
  · rintro ⟨hj, e, he, hn⟩
    obtain ⟨i, hi⟩ := List.getElem?_of_mem he
    have hj' : s'.idOf? e.name = some j := by
      rw [hn, h'.nameOf_eq (List.getElem?_eq_getElem hj)]
      exact h'.idOf?_eq_some_iff.2 ⟨_, List.getElem?_eq_getElem hj, rfl⟩
    have hi' : s'.idOf? e.name = some (f i) := h'.idOf?_eq_some_iff.2 ⟨e, hf i ▸ hi, rfl⟩
    exact ⟨i, (List.getElem?_eq_some_iff.1 hi).1, Option.some.inj (hi'.symm.trans hj')⟩

/-! ### The edges of the entities that are there -/

/-- The link of a relationship in the larger schema gives the edge that it gives in the smaller one,
under the new numbers. -/
theorem dependencyAt?_embed (h : s.Resolves es rs) (h' : s'.Resolves es' rs')
    (hf : ∀ i, es[i]? = es'[f i]?) {r : Relationship} {l' : Link} {n n' : Nat}
    (hl : LinkOf s.idOf? n r l) (hl' : LinkOf s'.idOf? n' r l') (side : Side) :
    s'.dependencyAt? l' side = (s.dependencyAt? l side).map (Edge.renumber f) :=
  dependencyAt?_renumber f.injective (nameOf_embed h h' hf) (hl.first.embed h h' hf hl'.first)
    (hl.second.embed h h' hf hl'.second) side

/-- An end of the relationship of a link has the name of the entity there. -/
theorem Resolves.nameOf_endAt (h : s.Resolves es rs) {r : Relationship} {n : Nat}
    (hl : LinkOf s.idOf? n r l) (side : Side) :
    s.nameOf (l.endAt side).entity = (r.endAt side).reference :=
  h.nameOf_entity (hl.endAt side)

/-- A relationship is inside if the names of both its ends are there. -/
theorem inside_iff_forall {names : List String} {r : Relationship} (side : Side) :
    Catalog.inside names r = true ↔
      (r.endAt side.opposite).reference ∈ names ∧ (r.endAt side).reference ∈ names := by
  rw [Catalog.inside, Bool.and_eq_true, List.contains_iff_mem, List.contains_iff_mem]
  cases side with
  | first => exact and_comm
  | second => exact Iff.rfl

theorem name_mem {i : Nat} (h : s.Resolves es rs) (hi : i ∈ s.ids) :
    s.nameOf i ∈ es.map (·.name) := by
  rw [ids, List.mem_range, h.size_eq] at hi
  rw [h.nameOf_eq (List.getElem?_eq_getElem hi)]
  exact List.mem_map_of_mem (List.getElem_mem hi)

/-- The entities that are there have the dependencies that they had. -/
theorem mem_dependencies_embed (h : s.Resolves es rs) (h' : s'.Resolves es' rs')
    (hf : ∀ i, es[i]? = es'[f i]?) (hadd : AddsUnrelated es rs es' rs') (hp : p ∈ s.ids)
    (hc : c ∈ s.ids) (k : Strength) :
    ⟨p, c, k⟩ ∈ s.dependencies ↔ ⟨f p, f c, k⟩ ∈ s'.dependencies := by
  rw [mem_dependencies, mem_dependencies]
  constructor
  · rintro ⟨l, hl, side, he⟩
    obtain ⟨r, hr, hin, hrl⟩ := h.exists_relationship hl
    have hr' : r ∈ rs' := (hadd.kept r (hrl.not_isNeutral hin he)).1 hr
    have hin' : Catalog.inside (es'.map (·.name)) r = true := by
      rw [inside_iff_forall .first] at hin ⊢
      exact hin.imp (fun hm => (hadd.sublist.map _).subset hm) fun hm =>
        (hadd.sublist.map _).subset hm
    obtain ⟨l', hl', hrl'⟩ := h'.exists_link hr' hin'
    refine ⟨l', hl', side, ?_⟩
    rw [dependencyAt?_embed h h' hf hrl hrl', he]
    rfl
  · rintro ⟨l', hl', side, he⟩
    obtain ⟨r, hr', -, hrl'⟩ := h'.exists_relationship hl'
    -- the edge joins entities that are there, so the relationship is inside
    obtain ⟨-, _, -, hedge⟩ := dependencyAt?_eq_some_iff.1 he
    obtain ⟨hpe, hce, -⟩ := Edge.mk.inj hedge
    have hin : Catalog.inside (es.map (·.name)) r = true := by
      rw [inside_iff_forall side, ← h'.nameOf_endAt hrl', ← h'.nameOf_endAt hrl', ← hpe, ← hce,
        nameOf_embed h h' hf, nameOf_embed h h' hf]
      exact ⟨name_mem h hp, name_mem h hc⟩
    have hr : r ∈ rs := (hadd.kept r (hrl'.not_isNeutral hin he)).2 hr'
    obtain ⟨l, hl, hrl⟩ := h.exists_link hr hin
    rw [dependencyAt?_embed h h' hf hrl hrl'] at he
    obtain ⟨⟨p₀, c₀, k₀⟩, he₀, heq⟩ := Option.map_eq_some_iff.1 he
    obtain ⟨hp₀, hc₀, rfl⟩ := Edge.mk.inj heq
    obtain rfl : p₀ = p := f.injective hp₀
    obtain rfl : c₀ = c := f.injective hc₀
    exact ⟨l, hl, side, he₀⟩

/-- The entities that are there have the edges that they had. -/
theorem strength?_graph_eq (h : s.Resolves es rs) (h' : s'.Resolves es' rs')
    (hf : ∀ i, es[i]? = es'[f i]?) (hadd : AddsUnrelated es rs es' rs') (hp : p ∈ s.ids)
    (hc : c ∈ s.ids) : s.graph.strength? p c = s'.graph.strength? (f p) (f c) :=
  Graph.strength?_foldl_add_congr f.injective.eq_iff.symm
    (mem_dependencies_embed h h' hf hadd hp hc) rfl

/-- No edge joins an entity that is there and a new one. -/
theorem name_mem_iff (h' : s'.Resolves es' rs') (hadd : AddsUnrelated es rs es' rs')
    (hj : s'.graph.joins p c = true) :
    s'.nameOf p ∈ es.map (·.name) ↔ s'.nameOf c ∈ es.map (·.name) := by
  obtain ⟨-, l', hl', side, hk, hs, rfl, rfl⟩ := joins_graph_iff.1 hj
  obtain ⟨k, hs⟩ := Option.isSome_iff_exists.1 hs
  obtain ⟨r, hr', hin', hrl'⟩ := h'.exists_relationship hl'
  have hu := hadd.unrelated r hr'
    (hrl'.not_isNeutral hin' (dependencyAt?_eq_some_iff.2 ⟨hk, k, hs, rfl⟩))
  rw [h'.nameOf_endAt hrl', h'.nameOf_endAt hrl']
  cases side with
  | first => exact hu.symm
  | second => exact hu

/-- The entities that are there are a part of the larger graph. -/
theorem partOf_graph (h : s.Resolves es rs) (h' : s'.Resolves es' rs')
    (hf : ∀ i, es[i]? = es'[f i]?) (hadd : AddsUnrelated es rs es' rs') :
    Graph.PartOf f (fun i => (es.map (·.name)).contains (s'.nameOf i)) s.graph s.ids s'.graph
      s'.ids where
  map_waiting := map_ids_embed h h' hf
  injective _ _ _ _ hab := f.injective hab
  strength?_eq _ hp _ hc := strength?_graph_eq h h' hf hadd hp hc
  apart _ _ _ _ hj := by
    rw [Bool.eq_iff_iff, List.contains_iff_mem, List.contains_iff_mem]
    exact name_mem_iff h' hadd hj

/-! ### Orders -/

/-- What an order says under the new numbers about the entities that are there is what it says in
their names. -/
theorem saysWithin_of_renumber {names : List String} {o o' : Order}
    (hname : ∀ i, s'.nameOf (f i) = s.nameOf i)
    (ho : o.renumber f = o'.only fun i => names.contains (s'.nameOf i)) :
    SaysWithin names s o s' o' := by
  obtain ⟨hplaced, hbroken⟩ := Order.mk.inj ho
  have hnameOf : s.nameOf = s'.nameOf ∘ f := funext fun i => (hname i).symm
  have hnameEdge : s.nameEdge = s'.nameEdge ∘ Edge.renumber f := funext fun e => by
    rw [nameEdge, ← hname, ← hname]
    rfl
  constructor
  · rw [hnameOf, ← List.map_map, hplaced, List.filter_map]
    rfl
  · rw [hnameEdge, ← List.map_map, hbroken, List.filter_map]
    rfl

/-- The order of a schema is said by the order of every schema to which unrelated entities and
relationships have been added. -/
theorem exists_order_saysWithin (hs : (build es rs).outcome = .ok s)
    (hs' : (build es' rs').outcome = .ok s') (hadd : AddsUnrelated es rs es' rs') :
    ∃ o o', s.order.outcome = .ok o ∧ s'.order.outcome = .ok o' ∧
      SaysWithin (es.map (·.name)) s o s' o' := by
  have h := resolves_of_build hs
  have h' := resolves_of_build hs'
  obtain ⟨f, hf⟩ := List.sublist_iff_exists_orderEmbedding_getElem?_eq.1 hadd.sublist
  obtain ⟨o', ho', -⟩ := s'.exists_order
  rw [outcome_order] at ho'
  obtain ⟨o, ho, heq⟩ := (partOf_graph h h' hf hadd).exists_sort ho'
  refine ⟨o, o', (outcome_order s).trans ho, (outcome_order s').trans ho', ?_⟩
  exact saysWithin_of_renumber (nameOf_embed h h' hf) heq

end Schema

/-- Parts that no edge joins are sorted as if each of them were alone. -/
theorem Dependency.Graph.exists_sort_of_parts {ι : Type} [DecidableEq ι] (history : List Change)
    (entities : List Nat) (part : Nat → ι)
    (h : ∀ p ∈ entities, ∀ c ∈ entities, (ofHistory history).joins p c = true → part p = part c) :
    ∃ o, (ofHistory history).sort entities = .ok o ∧
      (∀ e ∈ o.broken, part e.parent = part e.child) ∧
      ∀ i, (ofHistory history).sort (entities.filter (part · = i)) =
        .ok (o.only (part · = i)) := by
  obtain ⟨n, o, hrun, -⟩ := exists_rounds (ofHistory history) entities
  have hresp := hrun.respects (strength?_ofHistory_self history)
  refine ⟨o, hrun.sort_eq, fun e he => ?_, fun i => ?_⟩
  · obtain ⟨hp, hc, hs⟩ := hresp.mem_broken e he
    exact h _ hp _ hc (joins_iff.2 ⟨_, hs⟩)
  · refine sort_filter (fun p hp c hc hj => ?_) hrun.sort_eq
    rw [h p hp c hc hj]

/-- **Parts are sorted as if each were alone**: the order of entities that fall into parts which no
edge joins says about each part what the order of that part says, and every edge that is given up
lies in one part; and the entities of a schema are declared in the same order, and the same edges
between them are given up, when unrelated entities and relationships are added. -/
theorem parts_sorted_alone :
    (∀ (ι : Type) [DecidableEq ι] (history : List Change) (entities : List Nat) (part : Nat → ι),
      (∀ p ∈ entities, ∀ c ∈ entities, (Graph.ofHistory history).joins p c = true →
        part p = part c) →
      ∃ o, (Graph.ofHistory history).sort entities = .ok o ∧
        (∀ e ∈ o.broken, part e.parent = part e.child) ∧
        ∀ i, (Graph.ofHistory history).sort (entities.filter (part · = i)) =
          .ok (o.only (part · = i))) ∧
    ∀ (es es' : List Entity) (rs rs' : List Relationship) (s s' : Schema),
      (Schema.build es rs).outcome = .ok s → (Schema.build es' rs').outcome = .ok s' →
        AddsUnrelated es rs es' rs' →
          ∃ o o', s.order.outcome = .ok o ∧ s'.order.outcome = .ok o' ∧
            Schema.SaysWithin (es.map (·.name)) s o s' o' :=
  ⟨fun _ _ => Graph.exists_sort_of_parts, fun _ _ _ _ _ _ => Schema.exists_order_saysWithin⟩

/-- Two pairs of entities that lead back to each other, one of them with soft edges. -/
def Dependency.Change.twoPairs : List Change :=
  [.add 0 1 .hard, .add 1 0 .hard, .add 2 3 .soft, .add 3 2 .hard]

/-- Two pairs that stand in one list are sorted like each of them; and two entities with a soft
cycle are declared as before when an entity is put between them and one with a key to it is put in
front of them. -/
theorem pairs_sorted_alone :
    (∃ o, (Graph.ofHistory Change.twoPairs).sort [0, 2, 1, 3] = .ok o ∧
      (∀ e ∈ o.broken, e.parent / 2 = e.child / 2) ∧
      ∀ i, (Graph.ofHistory Change.twoPairs).sort ([0, 2, 1, 3].filter (· / 2 = i)) =
        .ok (o.only (· / 2 = i))) ∧
    ∃ s s', (Schema.build [{ name := "A" }, { name := "B" }]
        [.plain "A" "*" "B" "1", .plain "A" "1" "B" "0..1"]).outcome = .ok s ∧
      (Schema.build [{ name := "D" }, { name := "A" }, { name := "C" }, { name := "B" }]
        [.plain "D" "*" "C" "1", .plain "A" "1" "B" "0..1", .plain "C" "*" "B" "*",
          .plain "A" "*" "B" "1"]).outcome = .ok s' ∧
      ∃ o o', s.order.outcome = .ok o ∧ s'.order.outcome = .ok o' ∧
        Schema.SaysWithin ["A", "B"] s o s' o' := by
  have hadd : AddsUnrelated [{ name := "A" }, { name := "B" }]
      [.plain "A" "*" "B" "1", .plain "A" "1" "B" "0..1"]
      [{ name := "D" }, { name := "A" }, { name := "C" }, { name := "B" }]
      [.plain "D" "*" "C" "1", .plain "A" "1" "B" "0..1", .plain "C" "*" "B" "*",
        .plain "A" "*" "B" "1"] := by
    refine ⟨by decide, fun r hr => ?_, fun r hr hn => ?_⟩
    · have hout : r ≠ .plain "D" "*" "C" "1" ∧ r ≠ .plain "C" "*" "B" "*" := by
        constructor <;> rintro rfl <;> exact hr (.leaves (by decide))
      simp [hout, or_comm]
    · simp only [List.mem_cons, List.not_mem_nil, or_false] at hr
      rcases hr with rfl | rfl | rfl | rfl
      · decide
      · decide
      · exact absurd (.manyToMany (by decide) (by decide)) hn
      · decide
  exact ⟨parts_sorted_alone.1 Nat Change.twoPairs [0, 2, 1, 3] (· / 2) (by decide),
    _, _, rfl, rfl, parts_sorted_alone.2 _ _ _ _ _ _ rfl rfl hadd⟩

end EntityRelation
