import Mathlib.Data.List.Basic

/-!
# Lists sorted by a key

A stable sort by a key leaves the elements of each key in their order (`filter_mergeSort_key`), and
a list that is sorted by a key is known by its parts of equal key (`eq_of_filter_key_eq`). So it does
not matter whether a part of a list is taken before or after it is sorted (`filter_mergeSort`), and
the sorted list starts with the elements of the least key, as they stand, and goes on with the
others in their sorted order (`mergeSort_key_eq_append`).
-/

namespace EntityRelation

variable {α : Type} {key : α → Nat} {xs ys : List α}

/-- To have no greater key is transitive. -/
theorem decide_key_le_trans (key : α → Nat) (a b c : α) (hab : decide (key a ≤ key b) = true)
    (hbc : decide (key b ≤ key c) = true) : decide (key a ≤ key c) = true := by
  rw [decide_eq_true_iff] at hab hbc ⊢
  exact Nat.le_trans hab hbc

/-- Of two elements one has no greater key than the other. -/
theorem decide_key_le_total (key : α → Nat) (a b : α) :
    (decide (key a ≤ key b) || decide (key b ≤ key a)) = true := by
  rw [Bool.or_eq_true, decide_eq_true_iff, decide_eq_true_iff]
  exact Nat.le_total _ _

/-- A list that is sorted by a key has no greater key before a smaller one. -/
theorem pairwise_mergeSort_key (key : α → Nat) (xs : List α) :
    (xs.mergeSort fun a b => key a ≤ key b).Pairwise fun a b => key a ≤ key b := by
  have h := List.pairwise_mergeSort (decide_key_le_trans key) (decide_key_le_total key) xs
  simpa only [decide_eq_true_iff] using h

/-- Elements of the same key keep their order. -/
theorem filter_mergeSort_key (key : α → Nat) (xs : List α) (k : Nat) :
    (xs.mergeSort fun a b => key a ≤ key b).filter (key · == k) = xs.filter (key · == k) := by
  have hle : (xs.filter (key · == k)).Pairwise fun a b => decide (key a ≤ key b) = true := by
    refine List.pairwise_of_forall_mem_list fun a ha b hb => ?_
    have hka : key a = k := by simpa using (List.mem_filter.1 ha).2
    have hkb : key b = k := by simpa using (List.mem_filter.1 hb).2
    simp [hka, hkb]
  have hsub := (List.sublist_mergeSort (decide_key_le_trans key) (decide_key_le_total key) hle
    List.filter_sublist).filter (key · == k)
  rw [List.filter_filter] at hsub
  simp only [Bool.and_self] at hsub
  exact (hsub.eq_of_length ((List.mergeSort_perm xs _).filter _).length_eq.symm).symm

/-- A list that is sorted by a key starts with an element of the least key. -/
theorem key_head_le {x y : α} (hx : (x :: xs).Pairwise fun a b => key a ≤ key b)
    (hy : y ∈ x :: xs) : key x ≤ key y := by
  rcases List.mem_cons.1 hy with rfl | hy
  · exact Nat.le_refl _
  · exact (List.pairwise_cons.1 hx).1 y hy

/-- Lists with the same parts of equal key have the same elements. -/
theorem mem_iff_of_filter_key_eq (h : ∀ k, xs.filter (key · == k) = ys.filter (key · == k))
    (z : α) : z ∈ xs ↔ z ∈ ys := by
  have hz := congrArg (z ∈ ·) (h (key z))
  simpa [List.mem_filter] using hz

/-- Lists that are sorted by a key are equal if their parts of equal key are. -/
theorem eq_of_filter_key_eq (hx : xs.Pairwise fun a b => key a ≤ key b)
    (hy : ys.Pairwise fun a b => key a ≤ key b)
    (h : ∀ k, xs.filter (key · == k) = ys.filter (key · == k)) : xs = ys := by
  have hmem := mem_iff_of_filter_key_eq h
  induction xs generalizing ys with
  | nil => exact (List.eq_nil_iff_forall_not_mem.2 fun z hz => nomatch (hmem z).2 hz).symm
  | cons x xs ih =>
    cases ys with
    | nil => exact nomatch (hmem x).1 List.mem_cons_self
    | cons y ys =>
      -- both heads have the least key, so they are the heads of the same part
      have hxy : key x = key y := Nat.le_antisymm
        (key_head_le hx ((hmem y).2 List.mem_cons_self))
        (key_head_le hy ((hmem x).1 List.mem_cons_self))
      have hhead := h (key x)
      rw [List.filter_cons_of_pos (by simp), List.filter_cons_of_pos (by simp [hxy])] at hhead
      obtain rfl : x = y := (List.cons.inj hhead).1
      have htail : ∀ k, xs.filter (key · == k) = ys.filter (key · == k) := fun k => by
        have hk := h k
        rw [List.filter_cons, List.filter_cons] at hk
        split at hk
        · exact (List.cons.inj hk).2
        · exact hk
      rw [ih (List.pairwise_cons.1 hx).2 (List.pairwise_cons.1 hy).2 htail
        (mem_iff_of_filter_key_eq htail)]

/-- A part of a sorted list is the sorted part. -/
theorem filter_mergeSort (key : α → Nat) (P : α → Bool) (xs : List α) :
    (xs.mergeSort fun a b => key a ≤ key b).filter P =
      (xs.filter P).mergeSort fun a b => key a ≤ key b := by
  refine eq_of_filter_key_eq ((pairwise_mergeSort_key key xs).filter P)
    (pairwise_mergeSort_key key _) fun k => ?_
  rw [List.filter_comm, filter_mergeSort_key, filter_mergeSort_key, List.filter_comm]

/-- A sorted list starts with the elements of the least key and goes on with the others. -/
theorem mergeSort_key_eq_append {k : Nat} (h : ∀ x ∈ xs, k ≤ key x) :
    (xs.mergeSort fun a b => key a ≤ key b) = xs.filter (key · == k) ++
      (xs.filter fun x => k + 1 ≤ key x).mergeSort fun a b => key a ≤ key b := by
  refine eq_of_filter_key_eq (pairwise_mergeSort_key key xs) ?_ fun j => ?_
  · refine List.pairwise_append.2 ⟨?_, pairwise_mergeSort_key key _, fun a ha b hb => ?_⟩
    · refine List.pairwise_of_forall_mem_list fun a ha b hb => ?_
      have hka : key a = k := by simpa using (List.mem_filter.1 ha).2
      exact hka ▸ h b (List.mem_filter.1 hb).1
    · have hka : key a = k := by simpa using (List.mem_filter.1 ha).2
      exact hka ▸ h b (List.mem_filter.1 (List.mem_mergeSort.1 hb)).1
  · rw [filter_mergeSort_key, List.filter_append, filter_mergeSort_key, List.filter_filter,
      List.filter_filter]
    by_cases hj : j = k
    · subst hj
      have hnil : xs.filter (fun x => key x == j && decide (j + 1 ≤ key x)) = [] :=
        List.filter_eq_nil_iff.2 fun x _ => by
          simp only [Bool.and_eq_true, beq_iff_eq, decide_eq_true_iff]
          omega
      rw [hnil, List.append_nil]
      simp only [Bool.and_self]
    · have hnil : xs.filter (fun x => key x == j && key x == k) = [] :=
        List.filter_eq_nil_iff.2 fun x _ => by
          simp only [Bool.and_eq_true, beq_iff_eq]
          omega
      rw [hnil, List.nil_append]
      refine List.filter_congr fun x hx => ?_
      have hk := h x hx
      rw [Bool.eq_iff_iff]
      simp only [Bool.and_eq_true, beq_iff_eq, decide_eq_true_iff]
      omega

end EntityRelation
