import EntityRelation.Dependency.Order
import EntityRelation.Proofs.Dependency.History
import Mathlib.Data.List.Basic

/-!
# The rounds of a sort

A sort is a sequence of rounds. `Rounds n g waiting o` says that from the graph `g` and the
`waiting` entities the order `o` is reached in `n` rounds; it has one constructor for each kind of
round. Every sort is such a sequence (`exists_rounds`, `Rounds.sort_eq`): when no waiting entity
can be placed there is an edge to give up, so a sort never stalls, and every round takes something
away from the waiting entities or from the edges.
-/

namespace EntityRelation.Dependency

namespace Graph

variable {g : Graph} {waiting : List Nat}

/-! ### One round -/

/-- A root waits, and no other waiting entity has to come before it. -/
theorem mem_roots {c : Nat} :
    c ∈ g.roots waiting ↔ c ∈ waiting ∧ ∀ p ∈ waiting, g.joins p c = true → p = c := by
  rw [roots, List.mem_filter]
  refine and_congr_right fun _ => ?_
  simp only [Bool.not_eq_true', List.any_eq_false, Bool.and_eq_true, bne_iff_ne, not_and', ne_eq,
    not_not]

theorem mem_others {placed : List Nat} {e : Nat} :
    e ∈ others waiting placed ↔ e ∈ waiting ∧ e ∉ placed := by
  simp [others, List.mem_filter]

/-- A round that places entities neither loses nor repeats one. -/
theorem roots_append_others_perm (g : Graph) (waiting : List Nat) :
    (g.roots waiting ++ others waiting (g.roots waiting)).Perm waiting := by
  have h : others waiting (g.roots waiting) =
      waiting.filter fun e => !(!waiting.any fun p => p != e && g.joins p e) := by
    refine List.filter_congr fun e he => ?_
    rw [roots, Bool.eq_iff_iff]
    simp [he]
  rw [h]
  exact List.filter_append_perm _ waiting

/-- The first soft edge joins waiting entities and is soft. -/
theorem softEdge?_spec {e : Edge} (h : g.softEdge? waiting = some e) :
    e.parent ∈ waiting ∧ e.child ∈ waiting ∧ g.strength? e.parent e.child = some e.strength ∧
      e.strength = .soft := by
  obtain ⟨c, hc, h⟩ := List.exists_of_findSome?_eq_some h
  obtain ⟨p, hp, h⟩ := List.exists_of_findSome?_eq_some h
  split at h
  case h_1 hs =>
    cases h
    exact ⟨hp, hc, hs, rfl⟩
  case h_2 => cases h

theorem mem_ranked {e : Nat} : e ∈ g.ranked waiting ↔ e ∈ waiting :=
  List.mem_mergeSort

/-- The edge that is found by rank joins waiting entities. -/
theorem anyEdge?_spec {e : Edge} (h : g.anyEdge? waiting = some e) :
    e.parent ∈ waiting ∧ e.child ∈ waiting ∧ g.strength? e.parent e.child = some e.strength := by
  obtain ⟨c, hc, h⟩ := List.exists_of_findSome?_eq_some h
  obtain ⟨p, hp, h⟩ := List.exists_of_findSome?_eq_some h
  obtain ⟨s, hs, rfl⟩ := Option.map_eq_some_iff.1 h
  exact ⟨hp, mem_ranked.1 hc, hs⟩

/-- The edge that is given up is an edge between waiting entities. -/
theorem edgeToBreak?_spec {e : Edge} (h : g.edgeToBreak? waiting = some e) :
    e.parent ∈ waiting ∧ e.child ∈ waiting ∧ g.strength? e.parent e.child = some e.strength := by
  rcases Option.or_eq_some_iff.1 h with h | ⟨-, h⟩
  · obtain ⟨hp, hc, hs, -⟩ := softEdge?_spec h
    exact ⟨hp, hc, hs⟩
  · exact anyEdge?_spec h

/-- Where nothing can be placed, every waiting entity has another one as its parent. -/
theorem exists_parent_of_roots_eq_nil (hr : g.roots waiting = []) {c : Nat} (hc : c ∈ waiting) :
    ∃ p ∈ waiting, g.joins p c = true ∧ p ≠ c := by
  have hn : c ∉ g.roots waiting := by rw [hr]; exact List.not_mem_nil
  simpa only [mem_roots, hc, true_and, not_forall, exists_prop] using hn

/-- Where nothing can be placed, two waiting entities are joined by an edge. -/
theorem exists_joins_of_roots_eq_nil (hw : waiting ≠ []) (hr : g.roots waiting = []) :
    ∃ p ∈ waiting, ∃ c ∈ waiting, p ≠ c ∧ g.joins p c = true := by
  obtain ⟨c, hc⟩ := List.exists_mem_of_ne_nil _ hw
  obtain ⟨p, hp, hj, hne⟩ := exists_parent_of_roots_eq_nil hr hc
  exact ⟨p, hp, c, hc, hne, hj⟩

/-- Where nothing can be placed, there is an edge to give up. -/
theorem exists_edgeToBreak? (hw : waiting ≠ []) (hr : g.roots waiting = []) :
    ∃ e, g.edgeToBreak? waiting = some e := by
  obtain ⟨p, hp, c, hc, -, hj⟩ := exists_joins_of_roots_eq_nil hw hr
  obtain ⟨s, hs⟩ := joins_iff.1 hj
  have ha : (g.anyEdge? waiting).isSome = true := by
    refine List.findSome?_isSome_iff.2 ⟨c, mem_ranked.2 hc, List.findSome?_isSome_iff.2 ⟨p, hp, ?_⟩⟩
    rw [hs]
    rfl
  rw [← Option.isSome_iff_exists, edgeToBreak?, Option.isSome_or, ha, Bool.or_true]

/-! ### All rounds -/

/-- From a graph and the waiting entities an order is reached in so many rounds. -/
inductive Rounds : Nat → Graph → List Nat → Order → Prop where
  /-- Nothing waits. -/
  | done {g : Graph} : Rounds 0 g [] ⟨[], []⟩
  /-- The waiting entities without a waiting parent are placed. -/
  | place {n : Nat} {g : Graph} {waiting : List Nat} {o : Order} : g.roots waiting ≠ [] →
      Rounds n g (others waiting (g.roots waiting)) o →
      Rounds (n + 1) g waiting ⟨g.roots waiting ++ o.placed, o.broken⟩
  /-- Every waiting entity has a waiting parent, and an edge is given up. -/
  | giveUp {n : Nat} {g : Graph} {waiting : List Nat} {e : Edge} {o : Order} : waiting ≠ [] →
      g.roots waiting = [] → g.edgeToBreak? waiting = some e →
      Rounds n (g.remove e.parent e.child) waiting o →
      Rounds (n + 1) g waiting ⟨o.placed, e :: o.broken⟩

/-- What the rounds reach is what the sort answers. -/
theorem Rounds.sort_eq {n : Nat} {o : Order} (h : Rounds n g waiting o) :
    g.sort waiting = .ok o := by
  induction h with
  | done => rw [sort, if_pos rfl]
  | @place n g waiting o hr _ ih =>
    have hw : waiting ≠ [] := fun h => hr (by rw [h]; rfl)
    rw [sort, if_neg hw, dif_neg hr, ih]
    rfl
  | giveUp hw hr he _ ih =>
    rw [sort, if_neg hw, dif_pos hr]
    split
    case h_1 hn => rw [he] at hn; cases hn
    case h_2 e' he' =>
      cases he.symm.trans he'
      rw [ih]
      rfl

/-- Every graph is sorted, in no more rounds than there are entities and edges. -/
theorem exists_rounds (g : Graph) (waiting : List Nat) :
    ∃ n o, Rounds n g waiting o ∧ n ≤ waiting.length + g.size := by
  induction hm : waiting.length + g.size using Nat.strongRecOn generalizing g waiting with
  | ind m ih =>
    by_cases hw : waiting = []
    · subst hw
      exact ⟨0, _, .done, Nat.zero_le m⟩
    by_cases hr : g.roots waiting = []
    · obtain ⟨e, he⟩ := exists_edgeToBreak? hw hr
      have hlt := size_remove_lt (strength?_of_edgeToBreak? he)
      obtain ⟨n, o, h, hn⟩ := ih _ (by omega) (g.remove e.parent e.child) waiting rfl
      exact ⟨n + 1, _, .giveUp hw hr he h, by omega⟩
    · have hlt := length_others_roots_lt hr
      obtain ⟨n, o, h, hn⟩ := ih _ (by omega) g (others waiting (g.roots waiting)) rfl
      exact ⟨n + 1, _, .place hr h, by omega⟩

end Graph

end EntityRelation.Dependency
