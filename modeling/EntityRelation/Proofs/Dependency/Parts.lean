import EntityRelation.Proofs.Dependency.Rounds
import EntityRelation.Proofs.Places
import EntityRelation.Proofs.SortedByKey

/-!
# A part of a graph is sorted as if it were alone

The waiting entities of a graph may fall into parts that no edge joins. A run with all of them and
a run with one part do not go in step: a round can place entities or give up an edge in other parts
only, and the whole gives up an edge when all its parts are stuck, while a part that is alone does so
at once. But what the whole does in the part is what the part does when it is alone, round by round,
and what it does elsewhere is no round of the part (`Rounds.part`).

A part may have numbers of its own. `PartOf f P g' waiting' g waiting` says that `g'` with `waiting'`
is the part of `g` with `waiting` where `P` holds, and that `f` gives the numbers in the whole. One
lemma for each kind of round says what is left of the part after it.
-/

namespace EntityRelation.Dependency

/-- The edge between the entities that have other numbers. -/
def Edge.renumber (f : Nat → Nat) (e : Edge) : Edge := ⟨f e.parent, f e.child, e.strength⟩

namespace Order

/-- The order of the entities that have other numbers. -/
def renumber (f : Nat → Nat) (o : Order) : Order := ⟨o.placed.map f, o.broken.map (Edge.renumber f)⟩

/-- What an order says about the entities with a property. -/
def only (P : Nat → Bool) (o : Order) : Order :=
  ⟨o.placed.filter P, o.broken.filter fun e => P e.parent && P e.child⟩

theorem renumber_id (o : Order) : o.renumber id = o := by
  have hedge : Edge.renumber id = id := rfl
  rw [renumber, hedge, List.map_id, List.map_id]

theorem only_true (o : Order) : o.only (fun _ => true) = o := by
  rw [only, List.filter_true]
  exact congrArg (Order.mk o.placed) (List.filter_true o.broken)

end Order

namespace Graph

/-- A graph with its waiting entities is the part of another one in which a property holds, where
the entities may have other numbers. No edge leads into the part or out of it. -/
structure PartOf (f : Nat → Nat) (P : Nat → Bool) (g' : Graph) (waiting' : List Nat) (g : Graph)
    (waiting : List Nat) : Prop where
  /-- The entities are those with the property, in their order. -/
  map_waiting : waiting'.map f = waiting.filter P
  /-- Different entities of the part are different entities of the whole. -/
  injective : ∀ a ∈ waiting', ∀ b ∈ waiting', f a = f b → a = b
  /-- The edges of the part are those of the whole. -/
  strength?_eq : ∀ p ∈ waiting', ∀ c ∈ waiting', g'.strength? p c = g.strength? (f p) (f c)
  /-- An edge of the whole has both its ends in the part or none. -/
  apart : ∀ p ∈ waiting, ∀ c ∈ waiting, g.joins p c = true → P p = P c

/-- The first edge that is strong enough, by child and then by parent. -/
def search (g : Graph) (enough : Strength → Bool) (children parents : List Nat) : Option Edge :=
  children.findSome? fun c => parents.findSome? fun p =>
    ((g.strength? p c).filter enough).map fun s => ⟨p, c, s⟩

variable {f : Nat → Nat} {P : Nat → Bool} {g g' : Graph} {waiting waiting' : List Nat}
variable {enough : Strength → Bool} {children : List Nat} {e : Edge} {p c : Nat}

/-! ### Searching for an edge -/

theorem softEdge?_eq_search (g : Graph) (waiting : List Nat) :
    g.softEdge? waiting = g.search (· == .soft) waiting waiting := by
  refine findSome?_congr fun c _ => findSome?_congr fun p _ => ?_
  rcases g.strength? p c with - | (- | -) <;> rfl

theorem anyEdge?_eq_search (g : Graph) (waiting : List Nat) :
    g.anyEdge? waiting = g.search (fun _ => true) (g.ranked waiting) waiting := by
  refine findSome?_congr fun c _ => findSome?_congr fun p _ => ?_
  rcases g.strength? p c with - | s <;> rfl

/-- A search for an edge into an entity stops at a parent only. -/
theorem joins_of_found (g : Graph) (p c : Nat)
    (h : (((g.strength? p c).filter enough).map fun s => Edge.mk p c s).isSome = true) :
    g.joins p c = true := by
  rw [Option.isSome_map] at h
  exact Option.isSome_of_isSome_filter enough _ h

/-- An edge that is found is found among the children with a property if its child has it. -/
theorem search_filter_eq_some (h : g.search enough children waiting = some e)
    (hP : P e.child = true) : g.search enough (children.filter P) waiting = some e := by
  refine findSome?_filter_eq_some h fun c _ hc => ?_
  obtain ⟨p, -, hp⟩ := List.exists_of_findSome?_eq_some hc
  obtain ⟨s, -, rfl⟩ := Option.map_eq_some_iff.1 hp
  exact hP

/-- What is not found at all is not found among fewer children. -/
theorem search_filter_eq_none (h : g.search enough children waiting = none) :
    g.search enough (children.filter P) waiting = none := by
  rw [search, List.findSome?_eq_none_iff] at h ⊢
  exact fun c hc => h c (List.mem_filter.1 hc).1

namespace PartOf

/-! ### What the part sees -/

theorem mem (h : PartOf f P g' waiting' g waiting) (hc : c ∈ waiting') :
    f c ∈ waiting ∧ P (f c) = true := by
  have hm : f c ∈ waiting'.map f := List.mem_map_of_mem hc
  rwa [h.map_waiting, List.mem_filter] at hm

theorem joins_eq (h : PartOf f P g' waiting' g waiting) (hp : p ∈ waiting') (hc : c ∈ waiting') :
    g'.joins p c = g.joins (f p) (f c) := by
  rw [joins, joins, h.strength?_eq p hp c hc]

/-- The waiting entities of the part that satisfy a condition are those of the whole. -/
theorem map_filter (h : PartOf f P g' waiting' g waiting) {q q' : Nat → Bool}
    (hq : ∀ c ∈ waiting', q' c = q (f c)) :
    (waiting'.filter q').map f = (waiting.filter q).filter P := by
  rw [List.filter_comm, ← h.map_waiting, List.filter_map]
  exact congrArg (List.map f) (List.filter_congr hq)

/-- The waiting parents of an entity of the part are its waiting parents in the whole. -/
theorem map_parents (h : PartOf f P g' waiting' g waiting) (hc : c ∈ waiting') :
    (waiting'.filter (g'.joins · c)).map f = waiting.filter (g.joins · (f c)) := by
  obtain ⟨hw, hP⟩ := h.mem hc
  rw [h.map_filter (q := (g.joins · (f c))) fun p hp => h.joins_eq hp hc]
  refine List.filter_eq_self.2 fun p hp => ?_
  obtain ⟨hp, hj⟩ := List.mem_filter.1 hp
  exact (h.apart p hp _ hw hj).trans hP

/-- An entity has as many waiting parents in the part as in the whole. -/
theorem parentCount_eq (h : PartOf f P g' waiting' g waiting) (hc : c ∈ waiting') :
    g'.parentCount waiting' c = g.parentCount waiting (f c) := by
  rw [parentCount, parentCount, List.countP_eq_length_filter, List.countP_eq_length_filter,
    ← h.map_parents hc, List.length_map]

/-- An entity of the part can be placed exactly if it can be placed in the whole. -/
theorem mem_roots_iff (h : PartOf f P g' waiting' g waiting) (hc : c ∈ waiting') :
    c ∈ g'.roots waiting' ↔ f c ∈ g.roots waiting := by
  rw [mem_roots, mem_roots, and_iff_right hc, and_iff_right (h.mem hc).1]
  constructor
  · intro hroot q hq hj
    have hm : q ∈ waiting.filter (g.joins · (f c)) := List.mem_filter.2 ⟨hq, hj⟩
    rw [← h.map_parents hc] at hm
    obtain ⟨p, hp, rfl⟩ := List.mem_map.1 hm
    obtain ⟨hp, hj⟩ := List.mem_filter.1 hp
    rw [hroot p hp hj]
  · intro hroot p hp hj
    rw [h.joins_eq hp hc] at hj
    exact h.injective p hp c hc (hroot _ (h.mem hp).1 hj)

theorem map_roots (h : PartOf f P g' waiting' g waiting) :
    (g'.roots waiting').map f = (g.roots waiting).filter P := by
  refine h.map_filter fun c hc => ?_
  rw [Bool.eq_iff_iff]
  simpa only [roots, List.mem_filter, hc, (h.mem hc).1, true_and] using h.mem_roots_iff hc

theorem map_ranked (h : PartOf f P g' waiting' g waiting) :
    (g'.ranked waiting').map f = (g.ranked waiting).filter P := by
  rw [ranked, ranked, filter_mergeSort, ← h.map_waiting]
  refine List.map_mergeSort fun a ha b hb => ?_
  rw [h.parentCount_eq ha, h.parentCount_eq hb]

/-- A search in the part finds what a search in the whole finds among the children in the part. -/
theorem map_search (h : PartOf f P g' waiting' g waiting) {children' : List Nat}
    (hmap : children'.map f = children.filter P) (hsub : ∀ c ∈ children', c ∈ waiting') :
    (g'.search enough children' waiting').map (Edge.renumber f) =
      g.search enough (children.filter P) waiting := by
  rw [← hmap, search, search, List.map_findSome?, List.findSome?_map]
  refine findSome?_congr fun c hc => ?_
  have hc := hsub c hc
  -- both searches stop at a parent, and the parents are the same
  simp only [Function.comp_apply]
  rw [← findSome?_filter_of_isSome fun p _ => joins_of_found g p (f c),
    ← findSome?_filter_of_isSome fun p _ => joins_of_found g' p c, ← h.map_parents hc,
    List.findSome?_map, List.map_findSome?]
  refine findSome?_congr fun p hp => ?_
  simp only [Function.comp_apply, h.strength?_eq p (List.mem_filter.1 hp).1 c hc, Option.map_map]
  rfl

/-- An edge of the part that the whole gives up is the one that the part gives up. -/
theorem map_edgeToBreak? (h : PartOf f P g' waiting' g waiting)
    (he : g.edgeToBreak? waiting = some e) (hP : P e.child = true) :
    (g'.edgeToBreak? waiting').map (Edge.renumber f) = some e := by
  have hsoft : (g'.search (· == .soft) waiting' waiting').map (Edge.renumber f) =
      g.search (· == .soft) (waiting.filter P) waiting := h.map_search h.map_waiting fun _ hc => hc
  have hany : (g'.search (fun _ => true) (g'.ranked waiting') waiting').map (Edge.renumber f) =
      g.search (fun _ => true) ((g.ranked waiting).filter P) waiting :=
    h.map_search h.map_ranked fun _ hc => mem_ranked.1 hc
  rw [edgeToBreak?, softEdge?_eq_search, anyEdge?_eq_search] at he ⊢
  rw [Option.map_or, hsoft, hany]
  rcases Option.or_eq_some_iff.1 he with he | ⟨hn, he⟩
  · rw [search_filter_eq_some he hP, Option.some_or]
  · rw [search_filter_eq_none hn, Option.none_or, search_filter_eq_some he hP]

/-! ### What is left of the part after a round -/

/-- Part and whole can wait for fewer entities. -/
theorem filter (h : PartOf f P g' waiting' g waiting) {q q' : Nat → Bool}
    (hq : ∀ c ∈ waiting', q' c = q (f c)) :
    PartOf f P g' (waiting'.filter q') g (waiting.filter q) where
  map_waiting := h.map_filter hq
  injective a ha b hb := h.injective a (List.mem_filter.1 ha).1 b (List.mem_filter.1 hb).1
  strength?_eq p hp c hc := h.strength?_eq p (List.mem_filter.1 hp).1 c (List.mem_filter.1 hc).1
  apart p hp c hc := h.apart p (List.mem_filter.1 hp).1 c (List.mem_filter.1 hc).1

/-- Part and whole place their roots. -/
theorem others (h : PartOf f P g' waiting' g waiting) :
    PartOf f P g' (others waiting' (g'.roots waiting')) g (others waiting (g.roots waiting)) := by
  refine h.filter fun c hc => congrArg _ ?_
  rw [Bool.eq_iff_iff, List.contains_iff_mem, List.contains_iff_mem]
  exact h.mem_roots_iff hc

/-- The whole places its roots, and none of them is in the part. -/
theorem others_of_roots_eq_nil (h : PartOf f P g' waiting' g waiting)
    (hr : g'.roots waiting' = []) :
    PartOf f P g' waiting' g (Graph.others waiting (g.roots waiting)) := by
  have hall : Graph.others waiting' [] = waiting' := List.filter_eq_self.2 fun _ _ => rfl
  have ho := h.others
  rwa [hr, hall] at ho

/-- Part and whole give up an edge of the part. -/
theorem remove (h : PartOf f P g' waiting' g waiting) (hp : p ∈ waiting') (hc : c ∈ waiting') :
    PartOf f P (g'.remove p c) waiting' (g.remove (f p) (f c)) waiting where
  map_waiting := h.map_waiting
  injective := h.injective
  strength?_eq a ha b hb := by
    have hends : f a = f p ∧ f b = f c ↔ a = p ∧ b = c :=
      ⟨fun ⟨h₁, h₂⟩ => ⟨h.injective a ha p hp h₁, h.injective b hb c hc h₂⟩,
        fun ⟨h₁, h₂⟩ => ⟨congrArg f h₁, congrArg f h₂⟩⟩
    rw [strength?_remove, strength?_remove, h.strength?_eq a ha b hb]
    simp only [hends]
  apart a ha b hb hj := h.apart a ha b hb (joins_remove_iff.1 hj).1

/-- The whole gives up an edge outside the part. -/
theorem remove_outside (h : PartOf f P g' waiting' g waiting) (hc : ¬ P c = true) :
    PartOf f P g' waiting' (g.remove p c) waiting where
  map_waiting := h.map_waiting
  injective := h.injective
  strength?_eq a ha b hb := by
    have hne : ¬ (f a = p ∧ f b = c) := fun ⟨_, hbc⟩ => hc (hbc ▸ (h.mem hb).2)
    rw [strength?_remove, if_neg hne, h.strength?_eq a ha b hb]
  apart a ha b hb hj := h.apart a ha b hb (joins_remove_iff.1 hj).1

end PartOf

/-! ### All rounds -/

variable {n : Nat} {o : Order} {entities : List Nat}

/-- In every run with the whole there is a run with the part, and it reaches what the run with the
whole says about the part. -/
theorem Rounds.part (hrun : Rounds n g waiting o) (h : PartOf f P g' waiting' g waiting) :
    ∃ m o', Rounds m g' waiting' o' ∧ o'.renumber f = o.only P := by
  induction hrun generalizing g' waiting' with
  | done =>
    obtain rfl : waiting' = [] := List.map_eq_nil_iff.1 h.map_waiting
    exact ⟨0, _, .done, rfl⟩
  | @place n g waiting o hr hrest ih =>
    by_cases hr' : g'.roots waiting' = []
    · -- only entities of other parts are placed
      obtain ⟨m, o', hrun', ho'⟩ := ih (h.others_of_roots_eq_nil hr')
      have hnone : (g.roots waiting).filter P = [] := by rw [← h.map_roots, hr']; rfl
      refine ⟨m, o', hrun', ?_⟩
      rw [ho', Order.only, Order.only, List.filter_append, hnone, List.nil_append]
    · obtain ⟨m, o', hrun', ho'⟩ := ih h.others
      obtain ⟨hplaced, hbroken⟩ := Order.mk.inj ho'
      refine ⟨m + 1, _, .place hr' hrun', ?_⟩
      rw [Order.renumber, Order.only, List.map_append, List.filter_append, h.map_roots, hplaced,
        hbroken]
  | @giveUp n g waiting e o hw hr he hrest ih =>
    obtain ⟨hp, hc, hs⟩ := edgeToBreak?_spec he
    have hends : P e.parent = P e.child := h.apart _ hp _ hc (joins_iff.2 ⟨_, hs⟩)
    by_cases hP : P e.child = true
    · obtain ⟨e', he', rfl⟩ := Option.map_eq_some_iff.1 (h.map_edgeToBreak? he hP)
      obtain ⟨hp', hc', -⟩ := edgeToBreak?_spec he'
      obtain ⟨m, o', hrun', ho'⟩ := ih (h.remove hp' hc')
      obtain ⟨hplaced, hbroken⟩ := Order.mk.inj ho'
      have hr' : g'.roots waiting' = [] := by
        rw [← List.map_eq_nil_iff (f := f), h.map_roots, hr]
        rfl
      refine ⟨m + 1, _, .giveUp (List.ne_nil_of_mem hp') hr' he' hrun', ?_⟩
      rw [Order.renumber, Order.only, List.filter_cons_of_pos (by rw [hends, hP]; rfl),
        List.map_cons, hplaced, hbroken]
    · obtain ⟨m, o', hrun', ho'⟩ := ih (h.remove_outside hP)
      refine ⟨m, o', hrun', ?_⟩
      rw [ho', Order.only, Order.only, List.filter_cons_of_neg (by simp [hP])]

/-- A sort of the part gives what a sort of the whole says about it. -/
theorem PartOf.exists_sort (h : PartOf f P g' waiting' g waiting) (ho : g.sort waiting = .ok o) :
    ∃ o', g'.sort waiting' = .ok o' ∧ o'.renumber f = o.only P := by
  obtain ⟨n, o₁, hrun, -⟩ := exists_rounds g waiting
  obtain rfl : o₁ = o := Except.ok.inj (hrun.sort_eq.symm.trans ho)
  obtain ⟨m, o', hrun', ho'⟩ := hrun.part h
  exact ⟨o', hrun'.sort_eq, ho'⟩

/-- The entities with a property are a part if no edge leads into it or out of it. -/
theorem partOf_filter (h : ∀ p ∈ entities, ∀ c ∈ entities, g.joins p c = true → P p = P c) :
    PartOf id P g (entities.filter P) g entities where
  map_waiting := List.map_id _
  injective _ _ _ _ hab := hab
  strength?_eq _ _ _ _ := rfl
  apart := h

/-- A part of the entities is sorted as it is among all of them. -/
theorem sort_filter (h : ∀ p ∈ entities, ∀ c ∈ entities, g.joins p c = true → P p = P c)
    (ho : g.sort entities = .ok o) : g.sort (entities.filter P) = .ok (o.only P) := by
  obtain ⟨o', ho', heq⟩ := (partOf_filter h).exists_sort ho
  rw [Order.renumber_id] at heq
  rw [ho', heq]

end Graph

end EntityRelation.Dependency
