import Mathlib.Data.List.Forall2
import Mathlib.Data.List.Perm.Basic

/-!
# Elements in the order in which keys meet them

Keys are gone through one after the other, and each of them takes from a list, in the order of the
list, what it touches and no key before it has taken. What is touched by some key is taken once
(`met_perm`), and it is taken in the order of the first keys that touch it and then in the order of
the list (`pairwise_met`).
-/

namespace EntityRelation

variable {κ α : Type} {T : κ → α → Bool} {ks : List κ} {xs : List α}

/-- The elements that keys meet, key by key. -/
def met (T : κ → α → Bool) : List κ → List α → List α
  | [], _ => []
  | k :: ks, xs => xs.filter (T k) ++ met T ks (xs.filter fun x => !T k x)

/-- What some key touches is met, as often as it is there. -/
theorem met_perm (T : κ → α → Bool) (ks : List κ) (xs : List α) :
    (met T ks xs).Perm (xs.filter fun x => ks.any (T · x)) := by
  induction ks generalizing xs with
  | nil => simp [met]
  | cons k ks ih =>
    have hk : xs.filter (T k) = (xs.filter fun x => (k :: ks).any (T · x)).filter (T k) := by
      rw [List.filter_filter]
      refine List.filter_congr fun x _ => ?_
      cases h : T k x <;> simp [h]
    have hks : (xs.filter fun x => !T k x).filter (fun x => ks.any (T · x)) =
        (xs.filter fun x => (k :: ks).any (T · x)).filter fun x => !T k x := by
      rw [List.filter_filter, List.filter_filter]
      refine List.filter_congr fun x _ => ?_
      cases h : T k x <;> simp [h]
    rw [met, hk]
    refine ((ih _).append_left _).trans ?_
    rw [hks]
    exact List.filter_append_perm _ _

theorem mem_met {x : α} : x ∈ met T ks xs ↔ x ∈ xs ∧ ∃ k ∈ ks, T k x = true := by
  rw [(met_perm T ks xs).mem_iff, List.mem_filter, List.any_eq_true]

/-- Keys meet the images of elements in the order in which they meet the elements. -/
theorem map_met {β : Type} (T : κ → β → Bool) (f : α → β) (ks : List κ) (xs : List α) :
    (met (fun k x => T k (f x)) ks xs).map f = met T ks (xs.map f) := by
  induction ks generalizing xs with
  | nil => rfl
  | cons k ks ih =>
    rw [met, met, List.map_append, ih, List.filter_map, List.filter_map]
    rfl

/-- Keys meet related elements in turn if they touch both or none of them. -/
theorem forall₂_met {β : Type} {T' : κ → β → Bool} {R : α → β → Prop} {ys : List β}
    (h : List.Forall₂ R xs ys) (hT : ∀ k x y, R x y → T k x = T' k y) (ks : List κ) :
    List.Forall₂ R (met T ks xs) (met T' ks ys) := by
  induction ks generalizing xs ys with
  | nil => exact .nil
  | cons k ks ih =>
    exact List.rel_append (List.rel_filter (fun x y hxy => by simp only [hT k x y hxy]) h)
      (ih (List.rel_filter (fun x y hxy => by simp only [hT k x y hxy]) h))

/-- What is met is ordered by the first key that touches it, and then as in the list. -/
theorem pairwise_met {R : α → α → Prop} (h : xs.Pairwise R) :
    (met T ks xs).Pairwise fun a b => ks.findIdx (T · a) < ks.findIdx (T · b) ∨
      (ks.findIdx (T · a) = ks.findIdx (T · b) ∧ R a b) := by
  induction ks generalizing xs with
  | nil => exact .nil
  | cons k ks ih =>
    rw [met, List.pairwise_append]
    refine ⟨?_, ?_, ?_⟩
    · refine (h.filter _).imp_of_mem fun ha hb hR => .inr ⟨?_, hR⟩
      simp [List.findIdx_cons, (List.mem_filter.1 ha).2, (List.mem_filter.1 hb).2]
    · refine (ih (h.filter _)).imp_of_mem fun ha hb hR => ?_
      have hka := (List.mem_filter.1 (mem_met.1 ha).1).2
      have hkb := (List.mem_filter.1 (mem_met.1 hb).1).2
      rw [Bool.not_eq_true'] at hka hkb
      simpa [List.findIdx_cons, hka, hkb] using hR
    · intro a ha b hb
      have hka := (List.mem_filter.1 ha).2
      have hkb := (List.mem_filter.1 (mem_met.1 hb).1).2
      rw [Bool.not_eq_true'] at hkb
      simp [List.findIdx_cons, hka, hkb]

end EntityRelation
