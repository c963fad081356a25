import EntityRelation.Proofs.Dependency.Loop
import Mathlib.Data.List.DropRight

/-!
# The edges that a history leaves

A history of additions and removals says by itself which edges there are at its end. What counts for
the edge between two entities are the changes since it was last removed (`History.since`): the edge
is there if one of them adds it, and it is hard if one of them adds it as hard (`History.lasting`).
So a graph is a finite map from pairs of entities to strengths, and the changes are what is done to
the map. **`Graph.refines_history`**: whatever the history, the graph that it leaves answers as this
map does, an edge that is taken out answers with the strength that the map has for it and leaves all
other answers, and the edges of the map are listed, each of them once.

The order of the list is an order of changes. Parents stand in the order of the changes that first
put a child under them (`History.firstUnder`), whether this child is still there or not; the
children of a parent stand in the order of the changes that put them there since they were last
removed (`History.insertedAt`). The graph keeps its edges in the order of these changes and its
parents apart from them, and `Graph.Follows` is what every change keeps of this.
-/

namespace EntityRelation.Dependency

/-- The change adds an edge from `parent` to `child`. -/
def Change.adds (parent child : Nat) : Change → Bool
  | .add p c _ => p == parent && c == child
  | .remove _ _ => false

/-- The change adds an edge from `parent` to another entity. -/
def Change.addsUnder (parent : Nat) : Change → Bool
  | .add p c _ => p == parent && c != parent
  | .remove _ _ => false

theorem Change.adds_iff {p c : Nat} {x : Change} :
    x.adds p c = true ↔ ∃ s, x = .add p c s := by
  cases x <;> simp [adds]

theorem Change.addsUnder_iff {p : Nat} {x : Change} :
    x.addsUnder p = true ↔ ∃ c s, x = .add p c s ∧ p ≠ c := by
  cases x with
  | add a b s =>
    simp only [addsUnder, Bool.and_eq_true, beq_iff_eq, bne_iff_ne, Change.add.injEq]
    constructor
    · rintro ⟨rfl, hb⟩
      exact ⟨b, s, ⟨rfl, rfl, rfl⟩, hb.symm⟩
    · rintro ⟨c, t, ⟨rfl, rfl, rfl⟩, hne⟩
      exact ⟨rfl, hne.symm⟩
  | remove a b => simp [addsUnder]

/-! ### What a history says -/

namespace History

/-- The changes since the edge from `parent` to `child` was last removed. -/
def since (history : List Change) (parent child : Nat) : List Change :=
  history.rtakeWhile (· ≠ .remove parent child)

/-- The strength of the edge from `parent` to `child` at the end of a history: hard if the edge was
added as hard since it was last removed, soft if it was added as soft only, and none if it was not
added or leads from an entity to itself. -/
def lasting (history : List Change) (parent child : Nat) : Option Strength :=
  if parent = child then none
  else if .add parent child .hard ∈ since history parent child then some .hard
  else if .add parent child .soft ∈ since history parent child then some .soft
  else none

/-- The number of the first change of all that put a child under `parent`. -/
def firstUnder (history : List Change) (parent : Nat) : Nat :=
  history.findIdx (Change.addsUnder parent)

/-- The number of the first change that added the edge from `parent` to `child` since it was last
removed. -/
def insertedAt (history : List Change) (parent child : Nat) : Nat :=
  history.length - (since history parent child).length +
    (since history parent child).findIdx (Change.adds parent child)

/-- One edge is listed before another: its parent had a child before the other parent had one, or
they have the same parent and its child was put there before the other child. -/
def ListedBefore (history : List Change) (a b : Edge) : Prop :=
  firstUnder history a.parent < firstUnder history b.parent ∨
    (a.parent = b.parent ∧
      insertedAt history a.parent a.child < insertedAt history b.parent b.child)

/-- A list holds the edges that are there at the end of a history. -/
structure Lists (history : List Change) (es : List Edge) : Prop where
  /-- They are the edges that last, with their strengths. -/
  mem_iff : ∀ e, e ∈ es ↔ lasting history e.parent e.child = some e.strength
  /-- No two of them join the same entities. -/
  nodup : (es.map Edge.ends).Nodup
  /-- Each is listed before the ones behind it. -/
  ordered : es.Pairwise (ListedBefore history)

variable {history : List Change} {p c : Nat} {s : Strength} {x : Change}

theorem ListedBefore.asymm {a b : Edge} (h : ListedBefore history a b) :
    ¬ ListedBefore history b a := by
  intro hba
  unfold ListedBefore at h hba
  rcases h with h | ⟨hp, h⟩ <;> rcases hba with hba | ⟨hq, hba⟩
  · omega
  · rw [hq] at h
    omega
  · rw [hp] at hba
    omega
  · omega

/-- There is only one list of the edges of a history. -/
theorem Lists.unique {es fs : List Edge} (he : Lists history es) (hf : Lists history fs) :
    es = fs := by
  have hperm : es.Perm fs := by
    refine (List.perm_ext_iff_of_nodup he.nodup.of_map hf.nodup.of_map).2 fun e => ?_
    rw [he.mem_iff, hf.mem_iff]
  exact hperm.eq_of_pairwise (fun a b _ _ hab hba => absurd hba hab.asymm) he.ordered hf.ordered

/-! ### One more change -/

@[simp] theorem since_concat_remove : since (history ++ [.remove p c]) p c = [] := by
  simp [since]

theorem since_concat (h : x ≠ .remove p c) :
    since (history ++ [x]) p c = since history p c ++ [x] :=
  List.rtakeWhile_concat_pos _ _ _ (by simpa using h)

theorem length_since_le (history : List Change) (p c : Nat) :
    (since history p c).length ≤ history.length :=
  (List.rtakeWhile_suffix _ _).length_le

/-- The edge is not there if it was not added. -/
theorem lasting_eq_none_iff (h : p ≠ c) :
    lasting history p c = none ↔ ∀ x ∈ since history p c, x.adds p c = false := by
  constructor
  · intro hl x hx
    rw [← Bool.not_eq_true, Change.adds_iff]
    rintro ⟨s, rfl⟩
    cases s with
    | hard => simp [lasting, h, hx] at hl
    | soft =>
      rw [lasting, if_neg h, if_pos hx] at hl
      split at hl <;> cases hl
  · intro hx
    have hnot : ∀ s, .add p c s ∉ since history p c := by
      intro s hs
      have := hx _ hs
      simp [Change.adds] at this
    simp [lasting, h, hnot]

theorem ne_of_lasting (h : lasting history p c = some s) : p ≠ c := by
  intro hpc
  simp [lasting, hpc] at h

/-- An edge that is there was added since it was last removed. -/
theorem exists_adds_of_lasting (h : lasting history p c = some s) :
    ∃ x ∈ since history p c, x.adds p c = true := by
  have hn : ¬ lasting history p c = none := by simp [h]
  simpa [lasting_eq_none_iff (ne_of_lasting h)] using hn

@[simp] theorem lasting_concat_remove : lasting (history ++ [.remove p c]) p c = none := by
  simp [lasting]

/-- A change of another edge does not count. -/
theorem lasting_concat_other (hadd : ∀ s, x ≠ .add p c s) (hremove : x ≠ .remove p c) :
    lasting (history ++ [x]) p c = lasting history p c := by
  have hmem : ∀ s, .add p c s ∈ since (history ++ [x]) p c ↔ .add p c s ∈ since history p c := by
    intro s
    rw [since_concat hremove, List.mem_append, List.mem_singleton]
    exact or_iff_left (hadd s).symm
  simp only [lasting, hmem]

/-- An edge that is added is as strong as the stronger of what it was and what is added. -/
theorem lasting_concat_add (h : p ≠ c) (s : Strength) :
    lasting (history ++ [.add p c s]) p c =
      some ((lasting history p c).elim s (·.max s)) := by
  have hsince : since (history ++ [.add p c s]) p c = since history p c ++ [.add p c s] :=
    since_concat (by simp)
  by_cases hhard : .add p c .hard ∈ since history p c
  · simp [lasting, h, hsince, hhard, Strength.max]
  · by_cases hsoft : .add p c .soft ∈ since history p c <;>
      cases s <;> simp [lasting, h, hsince, hhard, hsoft, Strength.max]

/-- The change that put an edge there is one of the history. -/
theorem insertedAt_lt (h : lasting history p c = some s) :
    insertedAt history p c < history.length := by
  have hfind := List.findIdx_lt_length_of_exists (exists_adds_of_lasting h)
  have hle := length_since_le history p c
  unfold insertedAt
  omega

/-- As long as an edge is not removed, it counts from the same change. -/
theorem insertedAt_concat (h : lasting history p c = some s) (hx : x ≠ .remove p c) :
    insertedAt (history ++ [x]) p c = insertedAt history p c := by
  have hfind := List.findIdx_lt_length_of_exists (exists_adds_of_lasting h)
  have hle := length_since_le history p c
  simp only [insertedAt, since_concat hx, List.findIdx_append, if_pos hfind, List.length_append,
    List.length_singleton]
  omega

/-- An edge that was not there counts from the change that adds it. -/
theorem insertedAt_concat_add (h : p ≠ c) (hn : lasting history p c = none) (s : Strength) :
    insertedAt (history ++ [.add p c s]) p c = history.length := by
  have hfind := List.findIdx_eq_length.2 ((lasting_eq_none_iff h).1 hn)
  have hle := length_since_le history p c
  have hx : Change.add p c s ≠ .remove p c := by simp
  have hadds : List.findIdx (Change.adds p c) [.add p c s] = 0 := by simp [Change.adds]
  simp only [insertedAt, since_concat hx, List.findIdx_append, hfind, lt_irrefl, if_false, hadds,
    List.length_append, List.length_singleton]
  omega

theorem firstUnder_lt (h : ∃ x ∈ history, x.addsUnder p = true) :
    firstUnder history p < history.length :=
  List.findIdx_lt_length_of_exists h

/-- A parent counts from the first change that gave it a child, whatever comes later. -/
theorem firstUnder_concat (h : ∃ x ∈ history, x.addsUnder p = true) (x : Change) :
    firstUnder (history ++ [x]) p = firstUnder history p := by
  rw [firstUnder, firstUnder, List.findIdx_append]
  exact if_pos (firstUnder_lt h)

theorem firstUnder_concat_add (h : p ≠ c) (hn : ¬ ∃ x ∈ history, x.addsUnder p = true)
    (s : Strength) : firstUnder (history ++ [.add p c s]) p = history.length := by
  have hfind : history.findIdx (Change.addsUnder p) = history.length := by
    simpa [List.findIdx_eq_length] using hn
  have hadds : List.findIdx (Change.addsUnder p) [.add p c s] = 0 := by
    simp [Change.addsUnder, h.symm]
  rw [firstUnder, List.findIdx_append, hfind, hadds, if_neg (lt_irrefl _), Nat.zero_add]

/-- An edge that is there gave its parent a child. -/
theorem exists_addsUnder_of_lasting (h : lasting history p c = some s) :
    ∃ x ∈ history, x.addsUnder p = true := by
  obtain ⟨x, hx, hadds⟩ := exists_adds_of_lasting h
  obtain ⟨t, rfl⟩ := Change.adds_iff.1 hadds
  have hmem := (List.rtakeWhile_suffix _ _).subset hx
  exact ⟨_, hmem, Change.addsUnder_iff.2 ⟨c, t, rfl, ne_of_lasting h⟩⟩

theorem exists_addsUnder_concat_iff {q : Nat} :
    (∃ y ∈ history ++ [x], y.addsUnder q = true) ↔
      (∃ y ∈ history, y.addsUnder q = true) ∨ x.addsUnder q = true := by
  simp [or_and_right, exists_or]

end History

/-! ### What a graph keeps of a history -/

namespace Graph

open History

variable {g : Graph} {history : List Change} {p c q : Nat} {s : Strength} {e : Edge}

/-- An edge that is made stronger joins the same entities. -/
theorem ends_add_of_joins (h : p ≠ c) (hj : g.joins p c = true) (s : Strength) :
    (g.add p c s).edges.map Edge.ends = g.edges.map Edge.ends := by
  rw [add, if_neg h]
  simp only [hj, if_true, List.map_map]
  refine List.map_congr_left fun e _ => ?_
  rw [Function.comp_apply]
  split <;> rfl

/-- A new edge stands behind all others. -/
theorem ends_add_of_not_joins (h : p ≠ c) (hj : ¬ g.joins p c = true) (s : Strength) :
    (g.add p c s).edges.map Edge.ends = g.edges.map Edge.ends ++ [(p, c)] := by
  rw [add, if_neg h]
  simp [hj, Edge.ends]

theorem parents_add_of_mem (h : p ∈ g.parents) (c : Nat) (s : Strength) :
    (g.add p c s).parents = g.parents := by
  rw [add]
  split
  · rfl
  · simp [h]

theorem parents_add_of_notMem (hne : p ≠ c) (h : p ∉ g.parents) (s : Strength) :
    (g.add p c s).parents = g.parents ++ [p] := by
  rw [add, if_neg hne]
  simp [h]

/-- The answers and the orders of a graph are those of a history. -/
structure Follows (g : Graph) (history : List Change) : Prop where
  /-- The edges are those that last, with their strengths. -/
  strength?_eq : ∀ p c, g.strength? p c = lasting history p c
  /-- The parents are those that ever had a child. -/
  mem_parents_iff : ∀ p, p ∈ g.parents ↔ ∃ x ∈ history, x.addsUnder p = true
  /-- They stand in the order of their first children. -/
  parents_ordered : g.parents.Pairwise fun p q => firstUnder history p < firstUnder history q
  /-- The edges stand in the order of the changes that put them there. -/
  edges_ordered : (g.edges.map Edge.ends).Pairwise fun a b =>
    insertedAt history a.1 a.2 < insertedAt history b.1 b.2

namespace Follows

/-- The edges of the list last. -/
theorem exists_lasting (h : g.Follows history) {a : Nat × Nat} (ha : a ∈ g.edges.map Edge.ends) :
    ∃ s, lasting history a.1 a.2 = some s := by
  obtain ⟨e, he, rfl⟩ := List.mem_map.1 ha
  obtain ⟨s, hs⟩ := joins_iff.1 (joins_of_mem_edges he)
  exact ⟨s, (h.strength?_eq _ _).symm.trans hs⟩

/-- No change disturbs the order of the parents that are there. -/
theorem parents_ordered_concat (h : g.Follows history) (x : Change) : g.parents.Pairwise fun p q =>
    firstUnder (history ++ [x]) p < firstUnder (history ++ [x]) q := by
  refine h.parents_ordered.imp_of_mem fun hp hq hlt => ?_
  have hp' := (h.mem_parents_iff _).1 hp
  have hq' := (h.mem_parents_iff _).1 hq
  rw [firstUnder_concat hp', firstUnder_concat hq']
  exact hlt

/-- No change disturbs the order of the edges that it leaves. -/
theorem edges_ordered_concat (h : g.Follows history) {x : Change} {ends : List (Nat × Nat)}
    (hs : ends.Sublist (g.edges.map Edge.ends)) (hx : ∀ a ∈ ends, x ≠ .remove a.1 a.2) :
    ends.Pairwise fun a b =>
      insertedAt (history ++ [x]) a.1 a.2 < insertedAt (history ++ [x]) b.1 b.2 := by
  refine (h.edges_ordered.sublist hs).imp_of_mem fun {a b} ha hb hlt => ?_
  obtain ⟨s, hsa⟩ := h.exists_lasting (hs.subset ha)
  obtain ⟨t, htb⟩ := h.exists_lasting (hs.subset hb)
  rw [insertedAt_concat hsa (hx a ha), insertedAt_concat htb (hx b hb)]
  exact hlt

/-- The step for a removal. -/
theorem remove (h : g.Follows history) (p c : Nat) :
    (g.remove p c).Follows (history ++ [.remove p c]) where
  strength?_eq a b := by
    rw [strength?_remove]
    split
    case isTrue hab =>
      obtain ⟨rfl, rfl⟩ := hab
      exact lasting_concat_remove.symm
    case isFalse hab =>
      have hx : Change.remove p c ≠ .remove a b := fun heq => hab (by
        cases heq
        exact ⟨rfl, rfl⟩)
      rw [h.strength?_eq, lasting_concat_other (by simp) hx]
  mem_parents_iff q := by
    rw [exists_addsUnder_concat_iff, ← h.mem_parents_iff]
    simp [Graph.remove, Change.addsUnder]
  parents_ordered := h.parents_ordered_concat _
  edges_ordered := by
    refine h.edges_ordered_concat (List.filter_sublist.map _) fun a ha heq => ?_
    obtain ⟨e, he, rfl⟩ := List.mem_map.1 ha
    have hj := (List.mem_filter.1 he).2
    cases heq
    simp [Edge.joins, Edge.ends] at hj

/-- The step for an addition of an edge between two entities. -/
theorem add (h : g.Follows history) (hne : p ≠ c) (s : Strength) :
    (g.add p c s).Follows (history ++ [.add p c s]) where
  strength?_eq a b := by
    rw [strength?_add g hne]
    split
    case isTrue hab =>
      obtain ⟨rfl, rfl⟩ := hab
      rw [lasting_concat_add hne, h.strength?_eq]
    case isFalse hab =>
      have hx : ∀ t, Change.add p c s ≠ .add a b t := fun t heq => hab (by
        cases heq
        exact ⟨rfl, rfl⟩)
      rw [h.strength?_eq, lasting_concat_other hx (by simp)]
  mem_parents_iff q := by
    have hq : (Change.add p c s).addsUnder q = true ↔ p = q := by
      simp only [Change.addsUnder, Bool.and_eq_true, beq_iff_eq, bne_iff_ne]
      exact and_iff_left_of_imp fun hpq => hpq ▸ hne.symm
    rw [exists_addsUnder_concat_iff, ← h.mem_parents_iff, hq]
    by_cases hp : p ∈ g.parents
    · rw [parents_add_of_mem hp]
      exact (or_iff_left_of_imp fun hpq => hpq ▸ hp).symm
    · rw [parents_add_of_notMem hne hp, List.mem_append, List.mem_singleton, eq_comm]
  parents_ordered := by
    by_cases hp : p ∈ g.parents
    · rw [parents_add_of_mem hp]
      exact h.parents_ordered_concat _
    · rw [parents_add_of_notMem hne hp, List.pairwise_append]
      refine ⟨h.parents_ordered_concat _, List.pairwise_singleton _ _, fun a ha b hb => ?_⟩
      obtain rfl := List.mem_singleton.1 hb
      have hb' := fun hx => hp ((h.mem_parents_iff b).2 hx)
      have ha' := (h.mem_parents_iff a).1 ha
      rw [firstUnder_concat_add hne hb', firstUnder_concat ha']
      exact firstUnder_lt ha'
  edges_ordered := by
    have hold := h.edges_ordered_concat (List.Sublist.refl _) (x := .add p c s) (by simp)
    by_cases hj : g.joins p c = true
    · rw [ends_add_of_joins hne hj]
      exact hold
    · rw [ends_add_of_not_joins hne hj, List.pairwise_append]
      refine ⟨hold, List.pairwise_singleton _ _, fun a ha b hb => ?_⟩
      obtain rfl := List.mem_singleton.1 hb
      have hn : lasting history p c = none := by
        rw [← h.strength?_eq]
        simpa [joins] using hj
      obtain ⟨t, ht⟩ := h.exists_lasting ha
      rw [insertedAt_concat_add hne hn, insertedAt_concat ht (by simp)]
      exact insertedAt_lt ht

/-- The step for an addition from an entity to itself, which says nothing. -/
theorem add_self (h : g.Follows history) (p : Nat) (s : Strength) :
    g.Follows (history ++ [.add p p s]) where
  strength?_eq a b := by
    rw [h.strength?_eq]
    by_cases hab : a = b
    · simp [lasting, hab]
    · have hx : ∀ t, Change.add p p s ≠ .add a b t := fun t heq => hab (by cases heq; rfl)
      rw [lasting_concat_other hx (by simp)]
  mem_parents_iff q := by
    rw [exists_addsUnder_concat_iff, ← h.mem_parents_iff]
    simp [Change.addsUnder]
  parents_ordered := h.parents_ordered_concat _
  edges_ordered := h.edges_ordered_concat (List.Sublist.refl _) (by simp)

end Follows

theorem ofHistory_concat (history : List Change) (x : Change) :
    ofHistory (history ++ [x]) = (ofHistory history).change x := by
  simp [ofHistory]

/-- The graph that a history leaves follows it. -/
theorem follows_ofHistory (history : List Change) : (ofHistory history).Follows history := by
  -- the last change is the one whose step is taken, so the induction is from the end
  induction history using List.reverseRecOn with
  | nil =>
    refine ⟨fun p c => ?_, fun p => ?_, .nil, .nil⟩
    · simp [ofHistory, lasting, since]
    · simp [ofHistory, empty]
  | append_singleton history x ih =>
    rw [ofHistory_concat]
    cases x with
    | remove p c => exact ih.remove p c
    | add p c s =>
      by_cases hpc : p = c
      · subst hpc
        rw [change, Graph.add_self]
        exact ih.add_self p s
      · exact ih.add hpc s

/-! ### The list of the edges -/

theorem mem_toList_iff : e ∈ g.toList ↔ e.parent ∈ g.parents ∧ e ∈ g.edges := by
  simp only [toList, List.mem_flatMap, List.mem_filter, beq_iff_eq]
  constructor
  · rintro ⟨p, hp, he, rfl⟩
    exact ⟨hp, he⟩
  · rintro ⟨hp, he⟩
    exact ⟨_, hp, he, rfl⟩

/-- Where no two edges join the same entities, the edges are told by the answers. -/
theorem mem_edges_iff (hn : (g.edges.map Edge.ends).Nodup) :
    e ∈ g.edges ↔ g.strength? e.parent e.child = some e.strength := by
  constructor
  · intro he
    obtain ⟨s, hs⟩ := joins_iff.1 (joins_of_mem_edges he)
    have hx : (⟨e.parent, e.child, s⟩ : Edge) ∈ g.edges := mem_edges_of_strength? hs
    rw [hs, List.inj_on_of_nodup_map hn he hx rfl]
  · exact mem_edges_of_strength?

namespace Follows

/-- No change puts two edges there. -/
theorem nodup_ends (h : g.Follows history) : (g.edges.map Edge.ends).Nodup := by
  refine h.edges_ordered.imp fun hlt heq => ?_
  rw [heq] at hlt
  exact lt_irrefl _ hlt

/-- The edges of the list are those that last. -/
theorem mem_edges_iff_lasting (h : g.Follows history) :
    e ∈ g.edges ↔ lasting history e.parent e.child = some e.strength := by
  rw [mem_edges_iff h.nodup_ends, h.strength?_eq]

/-- An edge stands under its parent. -/
theorem parent_mem (h : g.Follows history) (he : e ∈ g.edges) : e.parent ∈ g.parents :=
  (h.mem_parents_iff _).2 (exists_addsUnder_of_lasting (h.mem_edges_iff_lasting.1 he))

/-- The edges are listed parent by parent, and under a parent as they were put there. -/
theorem pairwise_toList (h : g.Follows history) : g.toList.Pairwise (ListedBefore history) := by
  rw [toList, List.pairwise_flatMap]
  constructor
  · intro p _
    have hedges := (List.pairwise_map.1 h.edges_ordered).filter (·.parent == p)
    refine hedges.imp_of_mem fun ha hb hlt => .inr ⟨?_, hlt⟩
    have hap := (List.mem_filter.1 ha).2
    have hbp := (List.mem_filter.1 hb).2
    rw [beq_iff_eq] at hap hbp
    rw [hap, hbp]
  · refine h.parents_ordered.imp fun hlt a ha b hb => .inl ?_
    have hap := (List.mem_filter.1 ha).2
    have hbp := (List.mem_filter.1 hb).2
    rw [beq_iff_eq] at hap hbp
    rwa [hap, hbp]

theorem lists_toList (h : g.Follows history) : Lists history g.toList where
  mem_iff e := by
    rw [mem_toList_iff, ← h.mem_edges_iff_lasting]
    exact and_iff_right_of_imp h.parent_mem
  nodup := List.pairwise_map.2 (h.pairwise_toList.imp fun {a b} hab heq => by
    obtain ⟨hp, hc⟩ := Prod.mk.inj heq
    have hba : ListedBefore history b a := by
      unfold ListedBefore at hab ⊢
      rwa [hp, hc] at hab ⊢
    exact hab.asymm hba)
  ordered := h.pairwise_toList

/-- Every edge is listed once. -/
theorem size_eq (h : g.Follows history) : g.size = g.toList.length := by
  have hedges : g.edges.Nodup := h.nodup_ends.of_map
  have hperm : g.toList.Perm g.edges := by
    refine (List.perm_ext_iff_of_nodup h.lists_toList.nodup.of_map hedges).2 fun e => ?_
    rw [mem_toList_iff]
    exact and_iff_right_of_imp h.parent_mem
  exact hperm.length_eq.symm

end Follows

/-! ### Graphs as maps -/

/-- A graph is the map that a history says, and what is done to the graph is done to the map. -/
structure Refines (g : Graph) (history : List Change) : Prop where
  /-- The edge between two entities is as strong as the map says. -/
  strength?_eq : ∀ p c, g.strength? p c = lasting history p c
  /-- Two entities are joined exactly if the map has a strength for them. -/
  joins_iff : ∀ p c, g.joins p c = true ↔ ∃ s, lasting history p c = some s
  /-- An edge that is taken out answers with its strength. -/
  extract_fst : ∀ p c, (g.extract p c).1 = lasting history p c
  /-- Then this edge is gone, and all others are as they were. -/
  strength?_extract : ∀ p c p' c', (g.extract p c).2.strength? p' c' =
    if p' = p ∧ c' = c then none else lasting history p' c'
  /-- What is left is what the history leaves with one more removal. -/
  extract_snd : ∀ p c, (g.extract p c).2 = ofHistory (history ++ [.remove p c])
  /-- The edges are the list of what the map has, and there is only one such list. -/
  eq_toList_iff : ∀ es, es = g.toList ↔ Lists history es
  /-- There are as many edges as the list is long. -/
  size_eq : g.size = g.toList.length

/-- **A graph is a finite map**: the graph that a history of additions and removals leaves has the
edges that were added since they were last removed, as strong as the strongest of these additions,
and lists each of them once, by the first child that its parent ever had and then by its own last
arrival. -/
theorem refines_history (history : List Change) : (ofHistory history).Refines history := by
  have h := follows_ofHistory history
  refine ⟨h.strength?_eq, fun p c => ?_, fun p c => ?_, fun p c p' c' => ?_, fun p c => ?_,
    fun es => ⟨?_, ?_⟩, h.size_eq⟩
  · rw [joins_iff, h.strength?_eq]
  · rw [extract_eq, h.strength?_eq]
  · rw [extract_eq, strength?_remove, h.strength?_eq]
  · rw [extract_eq, remove_ofHistory]
  · rintro rfl
    exact h.lists_toList
  · exact fun hes => hes.unique h.lists_toList

/-- An edge that comes back is listed behind the children that stayed, under a parent that keeps its
place. -/
example : (ofHistory [.add 2 0 .soft, .add 0 1 .soft, .add 0 3 .soft, .add 0 1 .hard, .remove 2 0,
    .remove 0 1, .add 0 1 .soft, .add 2 1 .hard]).toList =
    [⟨2, 1, .hard⟩, ⟨0, 3, .soft⟩, ⟨0, 1, .soft⟩] := by decide

end Graph

end EntityRelation.Dependency
