import EntityRelation.TableModule
import EntityRelation.Proofs.Encounter
import EntityRelation.Proofs.Schema.Resolution
import EntityRelation.Proofs.Schema.Ownership

/-!
# What a plan consists of

The plan of a module is made class by class, and what has been written and queued so far goes from
each class to the next. Here the plan is told without that: a class has a key for every side of a
link that has its key there (`mem_keys_planClass`), settled by what stands above the class
(`exists_of_planClasses_eq`), every entity in the order has one class (`map_table_planClasses`),
and the junctions are the links between two many ends, in the order in which the entities meet them
(`junctions_plan`).
-/

namespace EntityRelation

/-! ### Progress -/

namespace Progress

variable {p : Progress}

@[simp] theorem written_write (p : Progress) (entity : Nat) :
    (p.write entity).written = entity :: p.written := rfl

@[simp] theorem queued_write (p : Progress) (entity : Nat) :
    (p.write entity).queued = p.queued := rfl

@[simp] theorem written_queue (p : Progress) (link : Nat) :
    (p.queue link).written = p.written := by
  unfold queue
  split <;> rfl

theorem isWritten_iff {entity : Nat} : p.isWritten entity = true ↔ entity ∈ p.written :=
  List.contains_iff_mem

theorem queue_of_mem {link : Nat} (h : link ∈ p.queued) : p.queue link = p := by
  simp [queue, isQueued, h]

theorem queue_of_not_mem {link : Nat} (h : link ∉ p.queued) :
    p.queue link = { p with queued := p.queued ++ [link] } := by
  simp [queue, isQueued, h]

/-- A link that is queued twice is queued once. -/
theorem queue_queue (p : Progress) (link : Nat) : (p.queue link).queue link = p.queue link := by
  by_cases h : link ∈ p.queued
  · rw [queue_of_mem h, queue_of_mem h]
  · rw [queue_of_not_mem h]
    exact queue_of_mem (by simp)

end Progress

@[simp] theorem Outcome.written_advance (o : Outcome) (p : Progress) :
    (o.advance p).written = p.written := by
  cases o <;> simp [advance]

namespace Schema

variable {s : Schema} {p q : Progress}

/-- What becomes of an end depends on the classes that have been written alone. -/
theorem outcome_congr (s : Schema) (h : p.written = q.written) : s.outcome p = s.outcome q := by
  obtain ⟨written, queued⟩ := p
  obtain ⟨written', queued'⟩ := q
  obtain rfl : written = written' := h
  rfl

/-! ### The ends at an entity -/

theorem mem_sidesAt {l : Link} {id : Nat} {side : Side} :
    side ∈ l.sidesAt id ↔ (l.endAt side).entity = id := by
  rw [Link.sidesAt, List.mem_filter, beq_iff_eq]
  exact and_iff_right (by cases side <;> simp)

theorem touches_iff {l : Link} {id : Nat} :
    l.touches id = true ↔ ∃ side, (l.endAt side).entity = id := by
  rw [Link.touches, Bool.or_eq_true, beq_iff_eq, beq_iff_eq]
  constructor
  · rintro (h | h)
    · exact ⟨.first, h⟩
    · exact ⟨.second, h⟩
  · rintro ⟨side, h⟩
    cases side with
    | first => exact .inl h
    | second => exact .inr h

theorem sidesAt_eq_nil {l : Link} {id : Nat} (h : l.touches id = false) : l.sidesAt id = [] := by
  refine List.eq_nil_iff_forall_not_mem.2 fun side hs => ?_
  rw [touches_iff.2 ⟨side, mem_sidesAt.1 hs⟩] at h
  cases h

/-- Of the sides of a link at an entity only the one that has the key has it. -/
theorem filter_sidesAt_of_here {l : Link} {side : Side} (hk : s.keyPlace l side = .here)
    (ho : s.keyPlace l side.opposite = .opposite) (id : Nat) :
    (l.sidesAt id).filter (fun x => s.keyPlace l x = .here) =
      if (l.endAt side).entity = id then [side] else [] := by
  have hone : ∀ x, s.keyPlace l x = .here ↔ x = side := fun x => by
    rcases side.eq_or_eq_opposite x with rfl | rfl
    · simp [hk]
    · simp [ho, side.opposite_ne]
  simp only [hone, Link.sidesAt, List.filter_cons, List.filter_nil]
  cases side <;> by_cases h : l.first.entity = id <;> by_cases h' : l.second.entity = id <;>
    simp [Link.endAt, h, h']

/-- Links that do not stand at an entity have no sides there. -/
theorem sidesOf_eq (s : Schema) (id : Nat) :
    s.sidesOf id = s.links.flatMap fun l => (l.sidesAt id).map fun side => (l, side) := by
  rw [sidesOf, linksOf]
  induction s.links with
  | nil => rfl
  | cons l ls ih =>
    rw [List.flatMap_cons, ← ih]
    cases h : l.touches id with
    | true => simp only [List.filter_cons, h, if_true, List.flatMap_cons]
    | false => simp [h, sidesAt_eq_nil h]

theorem mem_sidesOf {id : Nat} {l : Link} {side : Side} :
    (l, side) ∈ s.sidesOf id ↔ l ∈ s.links ∧ (l.endAt side).entity = id := by
  simp [sidesOf_eq, mem_sidesAt]

/-! ### Classes -/

/-- The ends of a class are all settled by the classes above it. -/
theorem fst_ofSides (s : Schema) (p : Progress) (xs : List (Link × Side)) :
    (Visit.ofSides s p xs).1 = xs.map fun x => ⟨x.1, x.2, s.outcome p x.1 x.2⟩ := by
  induction xs generalizing p with
  | nil => rfl
  | cons x xs ih =>
    rw [Visit.ofSides, List.map_cons]
    simp only [ih]
    rw [outcome_congr s (Outcome.written_advance _ p)]

@[simp] theorem written_ofSides (s : Schema) (p : Progress) (xs : List (Link × Side)) :
    (Visit.ofSides s p xs).2.written = p.written := by
  induction xs generalizing p with
  | nil => rfl
  | cons x xs ih => simp only [Visit.ofSides, ih, Outcome.written_advance]

theorem ofSides_append (s : Schema) (p : Progress) (xs ys : List (Link × Side)) :
    (Visit.ofSides s p (xs ++ ys)).2 =
      (Visit.ofSides s (Visit.ofSides s p xs).2 ys).2 := by
  induction xs generalizing p with
  | nil => rfl
  | cons x xs ih => simp only [List.cons_append, Visit.ofSides, ih]

@[simp] theorem written_planClass (s : Schema) (p : Progress) (id : Nat) (t : Table) :
    (s.planClass p id t).2.written = id :: p.written := by
  simp [planClass]

/-- The keys of a class, one for every end there that has its key here. -/
theorem keys_planClass (s : Schema) (p : Progress) (id : Nat) (t : Table) :
    (s.planClass p id t).1.keys =
      ((s.sidesOf id).filter fun x => s.keyPlace x.1 x.2 = .here).map fun x =>
        keyAt p x.1 x.2 := by
  rw [ClassPlan.keys, planClass, ← List.filterMap_eq_map, List.filterMap_filter]
  simp only [fst_ofSides, List.filterMap_map]
  refine List.filterMap_congr fun x _ => ?_
  simp only [Function.comp_apply, Visit.key?, outcome]
  cases s.keyPlace x.1 x.2 <;> simp

/-- The keys of a class, link by link. -/
theorem keys_planClass_eq_flatMap (s : Schema) (p : Progress) (id : Nat) (t : Table) :
    (s.planClass p id t).1.keys = s.links.flatMap fun l =>
      ((l.sidesAt id).filter fun side => s.keyPlace l side = .here).map (keyAt p l) := by
  rw [keys_planClass, sidesOf_eq, List.filter_flatMap, List.map_flatMap]
  refine List.flatMap_congr fun l _ => ?_
  rw [List.filter_map, List.map_map]
  rfl

/-- The class of an entity has a key for every end there that has its key here. -/
theorem mem_keys_planClass {id : Nat} {t : Table} {k : ForeignKey} :
    k ∈ (s.planClass p id t).1.keys ↔ ∃ l ∈ s.links, ∃ side, (l.endAt side).entity = id ∧
      s.keyPlace l side = .here ∧ keyAt p l side = k := by
  rw [keys_planClass, List.mem_map]
  simp [mem_sidesOf, and_assoc]

/-! ### Classes one after the other -/

theorem planClasses_cons_of_none {id : Nat} {xs : List Nat} (h : s.tables[id]? = none) :
    s.planClasses p (id :: xs) = s.planClasses p xs := by
  rw [planClasses, h]

theorem planClasses_cons_of_some {id : Nat} {xs : List Nat} {t : Table}
    (h : s.tables[id]? = some t) :
    s.planClasses p (id :: xs) =
      ((s.planClass p id t).1 :: (s.planClasses (s.planClass p id t).2 xs).1,
        (s.planClasses (s.planClass p id t).2 xs).2) := by
  rw [planClasses, h]

theorem planClasses_append (s : Schema) (p : Progress) (xs ys : List Nat) :
    (s.planClasses p (xs ++ ys)).1 =
      (s.planClasses p xs).1 ++ (s.planClasses (s.planClasses p xs).2 ys).1 := by
  induction xs generalizing p with
  | nil => rfl
  | cons id xs ih =>
    cases h : s.tables[id]? with
    | none => rw [List.cons_append, planClasses_cons_of_none h, planClasses_cons_of_none h, ih]
    | some t =>
      rw [List.cons_append, planClasses_cons_of_some h, planClasses_cons_of_some h, ih]
      rfl

/-- The class of an entity stands between the classes of the entities above and below it. -/
theorem exists_classes_plan_eq {id : Nat} {t : Table} (ht : s.tables[id]? = some t)
    (above below : List Nat) :
    ∃ q, (s.plan (above ++ id :: below)).classes = (s.planClasses {} above).1 ++
      (s.planClass (s.planClasses {} above).2 id t).1 :: (s.planClasses q below).1 := by
  have h := planClasses_append s {} above (id :: below)
  rw [planClasses_cons_of_some ht] at h
  exact ⟨_, h⟩

/-- Every entity in the order has a class, in its turn. -/
theorem map_table_planClasses (s : Schema) (p : Progress) (xs : List Nat) :
    (s.planClasses p xs).1.map (·.table) = xs.filterMap (s.tables[·]?) := by
  induction xs generalizing p with
  | nil => rfl
  | cons id xs ih =>
    cases h : s.tables[id]? with
    | none => rw [planClasses_cons_of_none h, List.filterMap_cons_none h, ih]
    | some t => rw [planClasses_cons_of_some h, List.filterMap_cons_some h, List.map_cons, ih]; rfl

/-- Every entity in the order has the plan of its class, made in its turn. -/
theorem forall₂_planClasses (p : Progress) {xs : List Nat} (hxs : ∀ id ∈ xs, id < s.size) :
    List.Forall₂ (fun id c => ∃ t q, s.tables[id]? = some t ∧ (s.planClass q id t).1 = c) xs
      (s.planClasses p xs).1 := by
  induction xs generalizing p with
  | nil => exact .nil
  | cons id xs ih =>
    obtain ⟨hid, hxs⟩ := List.forall_mem_cons.1 hxs
    have ht : s.tables[id]? = some s.tables[id] := List.getElem?_eq_getElem hid
    rw [planClasses_cons_of_some ht]
    exact .cons ⟨_, p, ht, rfl⟩ (ih _ hxs)

/-- What has been written is what has been in the order. -/
theorem mem_written_planClasses {xs : List Nat} {e : Nat} :
    e ∈ (s.planClasses p xs).2.written ↔ e ∈ p.written ∨ (e ∈ xs ∧ e < s.size) := by
  induction xs generalizing p with
  | nil => simp [planClasses]
  | cons id xs ih =>
    cases h : s.tables[id]? with
    | none =>
      have hs : s.size ≤ id := List.getElem?_eq_none_iff.1 h
      rw [planClasses_cons_of_none h, ih, List.mem_cons]
      refine or_congr_right (and_congr_left fun he => ?_)
      exact (or_iff_right (by omega)).symm
    | some t =>
      have hs : id < s.size := (List.getElem?_eq_some_iff.1 h).1
      rw [planClasses_cons_of_some h, ih, written_planClass, List.mem_cons, List.mem_cons]
      constructor
      · rintro ((rfl | he) | he)
        · exact .inr ⟨.inl rfl, hs⟩
        · exact .inl he
        · exact .inr ⟨.inr he.1, he.2⟩
      · rintro (he | ⟨rfl | he, hlt⟩)
        · exact .inl (.inr he)
        · exact .inl (.inl rfl)
        · exact .inr ⟨he, hlt⟩

/-- The class of an entity has been written exactly if the entity is above. -/
theorem isWritten_planClasses_iff {above : List Nat} {e : Nat} (h : e < s.size) :
    (s.planClasses {} above).2.isWritten e = true ↔ e ∈ above := by
  rw [Progress.isWritten_iff, mem_written_planClasses, and_iff_left h]
  exact or_iff_right List.not_mem_nil

/-- A class is planned for an entity of the order, after the classes above it and before the ones
below it. -/
theorem exists_of_planClasses_eq {xs : List Nat} {above below : List ClassPlan} {c : ClassPlan}
    (h : (s.planClasses p xs).1 = above ++ c :: below) :
    ∃ ys id zs t, xs = ys ++ id :: zs ∧ s.tables[id]? = some t ∧
      (s.planClasses p ys).1 = above ∧ c = (s.planClass (s.planClasses p ys).2 id t).1 ∧
      (s.planClasses (s.planClass (s.planClasses p ys).2 id t).2 zs).1 = below := by
  induction xs generalizing p above with
  | nil => simp [planClasses] at h
  | cons id xs ih =>
    cases ht : s.tables[id]? with
    | none =>
      rw [planClasses_cons_of_none ht] at h
      obtain ⟨ys, i, zs, t, rfl, hi, ha, hc, hb⟩ := ih h
      exact ⟨id :: ys, i, zs, t, rfl, hi, by rw [planClasses_cons_of_none ht]; exact ⟨ha, hc, hb⟩⟩
    | some t =>
      rw [planClasses_cons_of_some ht] at h
      cases above with
      | nil =>
        obtain ⟨rfl, rfl⟩ := List.cons.inj h
        exact ⟨[], id, xs, t, rfl, ht, rfl, rfl, rfl⟩
      | cons a above =>
        obtain ⟨rfl, h'⟩ := List.cons.inj h
        obtain ⟨ys, i, zs, u, rfl, hi, ha, hc, hb⟩ := ih h'
        refine ⟨id :: ys, i, zs, u, rfl, hi, ?_⟩
        rw [planClasses_cons_of_some ht]
        exact ⟨by rw [ha], hc, hb⟩

/-- Every class of a plan is planned for an entity of the schema. -/
theorem exists_planClass_of_mem {xs : List Nat} {c : ClassPlan} (h : c ∈ (s.plan xs).classes) :
    ∃ q id t, s.tables[id]? = some t ∧ (s.planClass q id t).1 = c := by
  obtain ⟨above, below, hc⟩ := List.append_of_mem h
  obtain ⟨ys, id, zs, t, -, ht, -, rfl, -⟩ := exists_of_planClasses_eq hc
  exact ⟨_, id, t, ht, rfl⟩

theorem table_mem_of_mem_plan {xs : List Nat} {c : ClassPlan} (h : c ∈ (s.plan xs).classes) :
    c.table ∈ s.tables := by
  obtain ⟨q, id, t, ht, rfl⟩ := exists_planClass_of_mem h
  exact List.mem_of_getElem? ht

/-- Every key of a plan is the key of a side of a link. -/
theorem exists_keyAt_of_mem_keys {xs : List Nat} {c : ClassPlan} {k : ForeignKey}
    (h : c ∈ (s.plan xs).classes) (hk : k ∈ c.keys) :
    ∃ q, ∃ l ∈ s.links, ∃ side, s.keyPlace l side = .here ∧ keyAt q l side = k := by
  obtain ⟨q, id, t, -, rfl⟩ := exists_planClass_of_mem h
  obtain ⟨l, hl, side, -, hp, hk⟩ := mem_keys_planClass.1 hk
  exact ⟨q, l, hl, side, hp, hk⟩

/-- Every junction of a plan is the junction of a link. -/
theorem exists_ofLink_of_mem_plan {xs : List Nat} {j : Junction} (h : j ∈ (s.plan xs).junctions) :
    ∃ l ∈ s.links, Junction.ofLink s l = j := by
  obtain ⟨id, -, hj⟩ := List.mem_filterMap.1 h
  obtain ⟨l, hl, rfl⟩ := Option.map_eq_some_iff.1 hj
  exact ⟨l, List.mem_of_getElem? hl, rfl⟩

/-! ### Junctions -/

/-- The links between two many ends that are not in the queue. -/
def unqueued (p : Progress) (ls : List Link) : List Link :=
  ls.filter fun l => decide (l.IsManyToMany ∧ l.id ∉ p.queued)

theorem mem_unqueued {ls : List Link} {l : Link} :
    l ∈ unqueued p ls ↔ l ∈ ls ∧ l.IsManyToMany ∧ l.id ∉ p.queued := by
  rw [unqueued, List.mem_filter, decide_eq_true_iff]

/-- After an end the link is in the queue if both its ends are many. -/
theorem advance_outcome (s : Schema) (p : Progress) (l : Link) (side : Side) :
    (s.outcome p l side).advance p = if l.IsManyToMany then p.queue l.id else p := by
  have hj : s.keyPlace l side = .junction ↔ l.IsManyToMany := keyPlace_eq_junction_iff
  rw [outcome]
  cases hk : s.keyPlace l side <;> simp [Outcome.advance, ← hj, hk]

/-- An entity queues a link between two many ends that stands at it, once. -/
theorem ofSides_sidesAt (s : Schema) (p : Progress) (l : Link) (id : Nat) :
    (Visit.ofSides s p ((l.sidesAt id).map fun side => (l, side))).2 =
      if l.IsManyToMany ∧ l.touches id = true then p.queue l.id else p := by
  by_cases hm : l.IsManyToMany
  · -- a link that stands at the entity with both ends is queued twice
    cases h₁ : l.first.entity == id <;> cases h₂ : l.second.entity == id <;>
      simp [Link.sidesAt, Link.touches, Link.endAt, Visit.ofSides, h₁, h₂, advance_outcome, hm,
        Progress.queue_queue]
  · cases h₁ : l.first.entity == id <;> cases h₂ : l.second.entity == id <;>
      simp [Link.sidesAt, Link.endAt, Visit.ofSides, h₁, h₂, advance_outcome, hm]

/-- An entity queues the links between two many ends that stand at it and are not in the queue. -/
theorem queued_ofSides (s : Schema) (p : Progress) (id : Nat) {ls : List Link}
    (hn : (ls.map Link.id).Nodup) :
    (Visit.ofSides s p (ls.flatMap fun l => (l.sidesAt id).map fun side => (l, side))).2.queued =
      p.queued ++ ((unqueued p ls).filter (·.touches id)).map Link.id := by
  induction ls generalizing p with
  | nil => simp [Visit.ofSides, unqueued]
  | cons l ls ih =>
    obtain ⟨hl, hn⟩ := List.nodup_cons.1 hn
    rw [List.flatMap_cons, ofSides_append, ih _ hn, ofSides_sidesAt]
    split
    case isTrue h =>
      by_cases hq : l.id ∈ p.queued
      · rw [Progress.queue_of_mem hq, unqueued, unqueued, List.filter_cons_of_neg (by simp [hq])]
      · have hu : unqueued (p.queue l.id) ls = unqueued p ls := by
          refine List.filter_congr fun x hx => ?_
          have hne : x.id ≠ l.id := fun he => hl (he ▸ List.mem_map_of_mem hx)
          simp [Progress.queue_of_not_mem hq, hne]
        rw [hu, Progress.queue_of_not_mem hq, unqueued, unqueued,
          List.filter_cons_of_pos (by simp [h.1, hq]), List.filter_cons_of_pos (by simp [h.2])]
        simp
    case isFalse h =>
      rw [unqueued, unqueued, List.filter_cons]
      split
      case isTrue hm =>
        have ht : ¬ l.touches id = true := fun ht => h ⟨(of_decide_eq_true hm).1, ht⟩
        rw [List.filter_cons_of_neg (by simpa using ht)]
      case isFalse => rfl

/-- A link whose number was queued with others of its kind is one of them. -/
theorem mem_of_id_mem {ls ms : List Link} (hn : (ls.map Link.id).Nodup) (hms : ∀ m ∈ ms, m ∈ ls)
    {l : Link} (hl : l ∈ ls) (h : l.id ∈ ms.map Link.id) : l ∈ ms := by
  obtain ⟨m, hm, he⟩ := List.mem_map.1 h
  rwa [← List.inj_on_of_nodup_map hn (hms m hm) hl he]

/-- The queue after some classes: the links between two many ends as the entities meet them. -/
theorem queued_planClasses (hn : (s.links.map Link.id).Nodup) {xs : List Nat}
    (hxs : ∀ id ∈ xs, id < s.size) :
    (s.planClasses p xs).2.queued =
      p.queued ++ (met (fun id l => l.touches id) xs (unqueued p s.links)).map Link.id := by
  induction xs generalizing p with
  | nil => simp [planClasses, met]
  | cons id xs ih =>
    obtain ⟨hid, hxs⟩ := List.forall_mem_cons.1 hxs
    have ht : s.tables[id]? = some s.tables[id] := List.getElem?_eq_getElem hid
    have hq : (s.planClass p id s.tables[id]).2.queued =
        p.queued ++ ((unqueued p s.links).filter (·.touches id)).map Link.id := by
      rw [planClass, sidesOf_eq]
      exact queued_ofSides s p id hn
    have hu : unqueued (s.planClass p id s.tables[id]).2 s.links =
        (unqueued p s.links).filter fun l => !l.touches id := by
      rw [unqueued, unqueued, List.filter_filter]
      refine List.filter_congr fun l hl => ?_
      have hm : l.id ∈ ((unqueued p s.links).filter (·.touches id)).map Link.id ↔
          l ∈ (unqueued p s.links).filter (·.touches id) :=
        ⟨mem_of_id_mem hn (fun m hm => (mem_unqueued.1 (List.mem_filter.1 hm).1).1) hl,
          List.mem_map_of_mem⟩
      rw [Bool.eq_iff_iff, Bool.and_eq_true, decide_eq_true_iff, decide_eq_true_iff, hq,
        List.mem_append, hm, List.mem_filter, mem_unqueued, Bool.not_eq_true']
      cases l.touches id with
      | true => simp [hl]; tauto
      | false => simp
    rw [planClasses_cons_of_some ht, ih hxs, hq, hu, met, List.map_append, List.append_assoc]

/-- **The junctions of a plan** are the links between two many ends, in the order in which the
entities meet them. -/
theorem junctions_plan {es : List Entity} {rs : List Relationship} (h : s.Resolves es rs)
    {xs : List Nat} (hxs : ∀ id ∈ xs, id < s.size) :
    (s.plan xs).junctions =
      (met (fun id l => l.touches id) xs (s.links.filter fun l => l.IsManyToMany)).map
        (Junction.ofLink s) := by
  have hu : unqueued {} s.links = s.links.filter fun l => l.IsManyToMany := by
    simp [unqueued]
  rw [plan]
  simp only [queued_planClasses h.nodup_ids hxs, hu, List.nil_append, List.filterMap_map]
  rw [← List.filterMap_eq_map]
  refine List.filterMap_congr fun l hl => ?_
  have hl : l ∈ s.links := (List.mem_filter.1 (mem_met.1 hl).1).1
  rw [Function.comp_apply, h.getElem?_links_iff.2 ⟨hl, rfl⟩]
  rfl

/-- If every entity is in the order, every link between two many ends is met. -/
theorem met_links_perm {es : List Entity} {rs : List Relationship} (h : s.Resolves es rs)
    {xs : List Nat} (hxs : xs.Perm s.ids) :
    (met (fun id l => l.touches id) xs (s.links.filter fun l => l.IsManyToMany)).Perm
      (s.links.filter fun l => l.IsManyToMany) := by
  refine (met_perm _ _ _).trans (.of_eq (List.filter_eq_self.2 fun l hl => ?_))
  have hlt := h.entity_lt (List.mem_filter.1 hl).1 .first
  exact List.any_eq_true.2 ⟨_, hxs.mem_iff.2 (List.mem_range.2 hlt), touches_iff.2 ⟨.first, rfl⟩⟩

end Schema

/-! ### Modules -/

namespace TableModule

/-- A module is written when the file and the handle of the database are known and all columns have
field calls. -/
theorem outcome_write (opts : Options) (s : Schema) (order : List Nat) :
    (write opts s order).outcome = opts.requireFile >>= fun file =>
      opts.requireHandle >>= fun handle =>
        checkColumns ((s.plan order).classes.flatMap (·.table.columns)) >>= fun _ =>
          .ok ⟨opts.outputFile, Outline.lines opts.indentUnit
            (preamble file handle ++ classEntries s opts.docStrings (s.plan order))⟩ := by
  simp only [write, Logged.outcome_bind]
  rfl

theorem checkColumns_eq_ok {cs : List TypedColumn} (h : ∀ x ∈ cs, x.column.call = .ok x.call) :
    checkColumns cs = .ok () := by
  induction cs with
  | nil => rfl
  | cons x cs ih =>
    obtain ⟨hx, hcs⟩ := List.forall_mem_cons.1 h
    rw [checkColumns, hx]
    exact ih hcs

/-- Every column of a schema that was resolved has a field call. -/
theorem checkColumns_plan {s : Schema} {es : List Entity} {rs : List Relationship}
    (h : s.Resolves es rs) (order : List Nat) :
    checkColumns ((s.plan order).classes.flatMap (·.table.columns)) = .ok () := by
  refine checkColumns_eq_ok fun x hx => ?_
  obtain ⟨c, hc, hx⟩ := List.mem_flatMap.1 hx
  exact h.call_eq (Schema.table_mem_of_mem_plan hc) hx

/-- The module of a schema that was resolved is written when the file and the handle are known. -/
theorem outcome_write_of_resolves {s : Schema} {es : List Entity} {rs : List Relationship}
    (h : s.Resolves es rs) {opts : Options} {file handle : String}
    (hf : opts.requireFile = .ok file) (hh : opts.requireHandle = .ok handle) (order : List Nat) :
    (write opts s order).outcome = .ok ⟨opts.outputFile, Outline.lines opts.indentUnit
      (preamble file handle ++ classEntries s opts.docStrings (s.plan order))⟩ := by
  rw [outcome_write, hf, hh, checkColumns_plan h]
  rfl

/-- What is reported when the module is written: the events of the classes, and then that it was
written. -/
theorem events_write_of_resolves {s : Schema} {es : List Entity} {rs : List Relationship}
    (h : s.Resolves es rs) {opts : Options} {file handle : String}
    (hf : opts.requireFile = .ok file) (hh : opts.requireHandle = .ok handle) (order : List Nat) :
    (write opts s order).events = (s.plan order).classes.flatMap (·.events s) ++
      [.moduleWritten order.length (s.plan order).junctions.length
        (preamble file handle ++ classEntries s opts.docStrings (s.plan order)).length] := by
  rw [write, hf, hh]
  simp only [checkColumns_plan h]
  rfl

end TableModule

end EntityRelation
