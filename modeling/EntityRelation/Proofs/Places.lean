import Mathlib.Data.List.Forall2
import Mathlib.Data.List.Nodup

/-!
# Places in lists

What stands where in a list: everything equal to one element before everything equal to another
(`Before`), an element with a property before all others with it (`IsFirst`), an element that is
there once, and two lists that are related place by place.
-/

namespace EntityRelation

variable {α β : Type}

/-! ### One before the other -/

/-- Every occurrence of `a` in a list stands before every occurrence of `b`. -/
def Before (xs : List α) (a b : α) : Prop :=
  ∀ i j : Nat, xs[i]? = some a → xs[j]? = some b → i < j

/-- What is put in front of a list does not matter if `b` is not part of it. -/
theorem Before.append_left {xs ys : List α} {a b : α} (hb : b ∉ xs) (h : Before ys a b) :
    Before (xs ++ ys) a b := by
  intro i j hi hj
  have hxj : xs.length ≤ j := by
    by_contra hlt
    rw [List.getElem?_append_left (by omega)] at hj
    exact hb (List.mem_of_getElem? hj)
  by_cases hxi : i < xs.length
  · omega
  · rw [List.getElem?_append_right (by omega)] at hi hj
    have := h _ _ hi hj
    omega

/-- What is not part of a list stands before everything in it. -/
theorem before_of_not_mem {xs : List α} {a b : α} (ha : a ∉ xs) : Before xs a b :=
  fun _ _ hi _ => absurd (List.mem_of_getElem? hi) ha

/-- What stands before an entity is part of the list in front of it. -/
theorem Before.mem_left {xs ys : List α} {a b : α} (h : Before (xs ++ b :: ys) a b)
    (ha : a ∈ xs ++ b :: ys) : a ∈ xs := by
  obtain ⟨i, hi⟩ := List.getElem?_of_mem ha
  have hlt : i < xs.length := h i xs.length hi (by simp)
  rw [List.getElem?_append_left hlt] at hi
  exact List.mem_of_getElem? hi

/-- What an entity stands before is not part of the list in front of it. -/
theorem Before.notMem_left {xs ys : List α} {a b : α} (h : Before (xs ++ a :: ys) a b) :
    b ∉ xs := by
  intro hb
  obtain ⟨j, hj⟩ := List.getElem?_of_mem hb
  obtain ⟨hlt, -⟩ := List.getElem?_eq_some_iff.1 hj
  have := h xs.length j (by simp) (by rw [List.getElem?_append_left hlt, hj])
  omega

/-- In an ordered list, the place of an element is the number of those that come before it. -/
theorem length_filter_of_pairwise {R : α → α → Prop} [DecidableRel R]
    (hasymm : ∀ a b, R a b → ¬ R b a) {xs : List α} (h : xs.Pairwise R) {n : Nat} {x : α}
    (hx : xs[n]? = some x) : (xs.filter fun y => R y x).length = n := by
  induction xs generalizing n with
  | nil => cases hx
  | cons a xs ih =>
    obtain ⟨ha, hxs⟩ := List.pairwise_cons.1 h
    cases n with
    | zero =>
      obtain rfl : a = x := by simpa using hx
      rw [List.length_eq_zero_iff, List.filter_eq_nil_iff]
      intro b hb
      rw [decide_eq_true_iff]
      rcases List.mem_cons.1 hb with rfl | hb
      · exact fun hbb => hasymm b b hbb hbb
      · exact hasymm a b (ha b hb)
    | succ n =>
      have hx' : xs[n]? = some x := by simpa using hx
      have hax : R a x := ha x (List.mem_of_getElem? hx')
      rw [List.filter_cons_of_pos (by simpa using hax), List.length_cons, ih hxs hx']

/-! ### The first element with a property -/

/-- The element `x` at place `n` of a list is the first one with a property. -/
structure IsFirst (P : α → Prop) (xs : List α) (n : Nat) (x : α) : Prop where
  /-- It stands at its place. -/
  at_place : xs[n]? = some x
  /-- It has the property. -/
  holds : P x
  /-- Nothing before it has the property. -/
  least : ∀ m < n, ∀ y, xs[m]? = some y → ¬ P y

namespace IsFirst

variable {P : α → Prop} {a x y : α} {xs : List α} {n m : Nat}

theorem mem (h : IsFirst P xs n x) : x ∈ xs := List.mem_of_getElem? h.at_place

theorem cons_zero_iff : IsFirst P (a :: xs) 0 x ↔ a = x ∧ P a := by
  constructor
  · intro h
    obtain rfl : a = x := by simpa using h.at_place
    exact ⟨rfl, h.holds⟩
  · rintro ⟨rfl, h⟩
    exact ⟨rfl, h, fun _ hm => absurd hm (Nat.not_lt_zero _)⟩

theorem cons_succ_iff : IsFirst P (a :: xs) (n + 1) x ↔ ¬ P a ∧ IsFirst P xs n x := by
  constructor
  · intro h
    refine ⟨h.least 0 (Nat.succ_pos n) a rfl, by simpa using h.at_place, h.holds, ?_⟩
    exact fun m hm y hy => h.least (m + 1) (Nat.succ_lt_succ hm) y (by simpa using hy)
  · rintro ⟨ha, h⟩
    refine ⟨by simpa using h.at_place, h.holds, fun m hm y hy => ?_⟩
    cases m with
    | zero =>
      obtain rfl : a = y := by simpa using hy
      exact ha
    | succ m => exact h.least m (Nat.lt_of_succ_lt_succ hm) y (by simpa using hy)

/-- The first element of a list is its head, or the first one behind it. -/
theorem exists_cons_iff {Q : Nat → α → Prop} :
    (∃ n x, IsFirst P (a :: xs) n x ∧ Q n x) ↔
      (P a ∧ Q 0 a) ∨ (¬ P a ∧ ∃ n x, IsFirst P xs n x ∧ Q (n + 1) x) := by
  constructor
  · rintro ⟨n, x, h, hq⟩
    cases n with
    | zero =>
      obtain ⟨rfl, ha⟩ := cons_zero_iff.1 h
      exact .inl ⟨ha, hq⟩
    | succ n =>
      obtain ⟨ha, hx⟩ := cons_succ_iff.1 h
      exact .inr ⟨ha, n, x, hx, hq⟩
  · rintro (⟨ha, hq⟩ | ⟨ha, n, x, hx, hq⟩)
    · exact ⟨0, a, cons_zero_iff.2 ⟨rfl, ha⟩, hq⟩
    · exact ⟨n + 1, x, cons_succ_iff.2 ⟨ha, hx⟩, hq⟩

theorem not_exists_nil {Q : Nat → α → Prop} : ¬ ∃ n x, IsFirst P [] n x ∧ Q n x :=
  fun ⟨_, _, h, _⟩ => absurd h.mem List.not_mem_nil

/-- If some element has the property, one of them is the first. -/
theorem exists_of_mem (hx : x ∈ xs) (h : P x) : ∃ n y, IsFirst P xs n y := by
  induction xs with
  | nil => exact absurd hx List.not_mem_nil
  | cons a xs ih =>
    by_cases ha : P a
    · exact ⟨0, a, cons_zero_iff.2 ⟨rfl, ha⟩⟩
    · have hxs : x ∈ xs := (List.mem_cons.1 hx).resolve_left fun e => ha (e ▸ h)
      obtain ⟨n, y, hy⟩ := ih hxs
      exact ⟨n + 1, y, cons_succ_iff.2 ⟨ha, hy⟩⟩

/-- The first element with the property has it and nothing in front of it does. -/
theorem iff_forall_mem_take :
    IsFirst P xs n x ↔ xs[n]? = some x ∧ P x ∧ ∀ y ∈ xs.take n, ¬ P y := by
  constructor
  · rintro ⟨hx, hp, hleast⟩
    refine ⟨hx, hp, fun y hy => ?_⟩
    obtain ⟨m, hm, rfl⟩ := List.mem_take_iff_getElem.1 hy
    exact hleast m (by omega) _ (List.getElem?_eq_getElem (by omega))
  · rintro ⟨hx, hp, hleast⟩
    refine ⟨hx, hp, fun m hm y hy => hleast y ?_⟩
    rw [← List.getElem?_take_of_lt hm] at hy
    exact List.mem_of_getElem? hy

/-- A search finds the first element with the property. -/
theorem find?_eq_some_iff {p : α → Bool} :
    xs.find? p = some x ↔ ∃ n, IsFirst (fun y => p y = true) xs n x := by
  rw [List.find?_eq_some_iff_getElem]
  constructor
  · rintro ⟨hp, n, hn, rfl, hleast⟩
    refine ⟨n, List.getElem?_eq_getElem hn, hp, fun m hm y hy => ?_⟩
    have h := hleast m hm
    rw [List.getElem?_eq_getElem (Nat.lt_trans hm hn)] at hy
    obtain rfl := Option.some.inj hy
    simpa using h
  · rintro ⟨n, h⟩
    obtain ⟨hn, rfl⟩ := List.getElem?_eq_some_iff.1 h.at_place
    refine ⟨h.holds, n, hn, rfl, fun m hm => ?_⟩
    simpa using h.least m hm _ (List.getElem?_eq_getElem (Nat.lt_trans hm hn))

end IsFirst

/-! ### What a search finds -/

/-- A search depends on what it sees at the elements of the list. -/
theorem findSome?_congr {f g : α → Option β} {xs : List α} (h : ∀ x ∈ xs, f x = g x) :
    xs.findSome? f = xs.findSome? g := by
  rw [← List.head?_filterMap, ← List.head?_filterMap, List.filterMap_congr h]

/-- A search does not see elements that it would not stop at. -/
theorem findSome?_filter_of_isSome {f : α → Option β} {P : α → Bool} {xs : List α}
    (h : ∀ x ∈ xs, (f x).isSome = true → P x = true) :
    (xs.filter P).findSome? f = xs.findSome? f := by
  induction xs with
  | nil => rfl
  | cons a xs ih =>
    obtain ⟨ha, hxs⟩ := List.forall_mem_cons.1 h
    by_cases hP : P a = true
    · rw [List.filter_cons_of_pos hP, List.findSome?_cons, List.findSome?_cons, ih hxs]
    · have hn : f a = none := Option.not_isSome_iff_eq_none.1 fun hs => hP (ha hs)
      rw [List.filter_cons_of_neg hP, List.findSome?_cons, hn, ih hxs]

/-- What a search finds is found among those elements at which it could be. -/
theorem findSome?_filter_eq_some {f : α → Option β} {P : α → Bool} {xs : List α} {y : β}
    (h : xs.findSome? f = some y) (hP : ∀ x ∈ xs, f x = some y → P x = true) :
    (xs.filter P).findSome? f = some y := by
  obtain ⟨before, x, after, rfl, hx, hnone⟩ := List.findSome?_eq_some_iff.1 h
  have hPx : P x = true := hP x (List.mem_append_right _ List.mem_cons_self) hx
  refine List.findSome?_eq_some_iff.2 ⟨before.filter P, x, after.filter P, ?_, hx, ?_⟩
  · rw [List.filter_append, List.filter_cons_of_pos hPx]
  · exact fun z hz => hnone z (List.mem_filter.1 hz).1

/-! ### Parts of a list -/

/-- What stands in a list that was put together stands in one of its parts. -/
theorem flatMap_eq_append_cons {f : α → List β} {xs : List α} {ys zs : List β} {y : β}
    (h : xs.flatMap f = ys ++ y :: zs) : ∃ above x below before after,
      xs = above ++ x :: below ∧ f x = before ++ y :: after ∧ ys = above.flatMap f ++ before := by
  induction xs generalizing ys with
  | nil => simp at h
  | cons x xs ih =>
    rw [List.flatMap_cons] at h
    rcases List.append_eq_append_iff.1 h with ⟨ts, rfl, hts⟩ | ⟨ts, hx, hts⟩
    · obtain ⟨above, a, below, before, after, rfl, ha, rfl⟩ := ih hts
      exact ⟨x :: above, a, below, before, after, rfl, ha, by simp⟩
    · cases ts with
      | nil =>
        -- the first part ends just in front of the element
        have hrest : xs.flatMap f = [] ++ y :: zs := hts.symm
        obtain ⟨above, a, below, before, after, rfl, ha, hb⟩ := ih hrest
        refine ⟨x :: above, a, below, before, after, rfl, ha, ?_⟩
        rw [List.flatMap_cons, List.append_assoc, ← hb, hx]
        simp
      | cons t ts =>
        obtain ⟨rfl, -⟩ := List.cons.inj hts
        exact ⟨[], x, xs, ys, ts, rfl, hx, rfl⟩

/-! ### Once in a list -/

/-- An element of a list without repetitions stands between others. -/
theorem exists_append_of_nodup {xs : List α} {a : α} (hx : xs.Nodup) (ha : a ∈ xs) :
    ∃ ys zs, xs = ys ++ a :: zs ∧ (∀ b ∈ ys, b ≠ a) ∧ ∀ b ∈ zs, b ≠ a := by
  obtain ⟨ys, zs, rfl⟩ := List.append_of_mem ha
  obtain ⟨h, -⟩ := List.nodup_cons.1 (List.nodup_middle.1 hx)
  refine ⟨ys, zs, rfl, ?_, ?_⟩
  · rintro b hb rfl
    exact h (List.mem_append_left _ hb)
  · rintro b hb rfl
    exact h (List.mem_append_right _ hb)

/-- What a list without repetitions gives for one element alone. -/
theorem flatMap_eq_of_unique {f : α → List β} {xs : List α} {a : α} (hx : xs.Nodup) (ha : a ∈ xs)
    (h : ∀ b ∈ xs, b ≠ a → f b = []) : xs.flatMap f = f a := by
  obtain ⟨ys, zs, rfl, hys, hzs⟩ := exists_append_of_nodup hx ha
  have hl : ys.flatMap f = [] := List.flatMap_eq_nil_iff.2 fun b hb =>
    h b (List.mem_append_left _ hb) (hys b hb)
  have hr : zs.flatMap f = [] := List.flatMap_eq_nil_iff.2 fun b hb =>
    h b (List.mem_append_right _ (List.mem_cons_of_mem a hb)) (hzs b hb)
  rw [List.flatMap_append, List.flatMap_cons, hl, hr, List.nil_append, List.append_nil]

/-- The one element of a list without repetitions that satisfies a condition. -/
theorem filter_eq_singleton {P : α → Bool} {xs : List α} {a : α} (hx : xs.Nodup) (ha : a ∈ xs)
    (hP : ∀ b ∈ xs, P b = true ↔ b = a) : xs.filter P = [a] := by
  obtain ⟨ys, zs, rfl, hys, hzs⟩ := exists_append_of_nodup hx ha
  have hl : ys.filter P = [] := List.filter_eq_nil_iff.2 fun b hb hPb =>
    hys b hb ((hP b (List.mem_append_left _ hb)).1 hPb)
  have hr : zs.filter P = [] := List.filter_eq_nil_iff.2 fun b hb hPb =>
    hzs b hb ((hP b (List.mem_append_right _ (List.mem_cons_of_mem a hb))).1 hPb)
  rw [List.filter_append, List.filter_cons_of_pos ((hP a ha).2 rfl), hl, hr, List.nil_append]

theorem mem_of_filter_eq_singleton {P : α → Bool} {xs : List α} {a : α}
    (h : xs.filter P = [a]) : a ∈ xs :=
  (List.mem_filter.1 (h ▸ List.mem_singleton_self a)).1

/-! ### All places -/

/-- What stands at all places of a list is the list. -/
theorem filterMap_getElem?_range (xs : List α) :
    (List.range xs.length).filterMap (xs[·]?) = xs := by
  induction xs with
  | nil => rfl
  | cons x xs ih =>
    rw [List.length_cons, List.range_succ_eq_map]
    have h : (x :: xs)[0]? = some x := rfl
    rw [List.filterMap_cons_some (f := ((x :: xs)[·]?)) h, List.filterMap_map]
    exact congrArg (x :: ·) ih

/-! ### Two lists place by place -/

theorem forall₂_getElem?_right {R : α → β → Prop} {xs : List α} {ys : List β}
    (h : List.Forall₂ R xs ys) {n : Nat} {y : β} (hy : ys[n]? = some y) :
    ∃ x, xs[n]? = some x ∧ R x y := by
  induction h generalizing n with
  | nil => cases hy
  | @cons a b _ _ hab _ ih =>
    cases n with
    | zero =>
      obtain rfl : b = y := by simpa using hy
      exact ⟨a, rfl, hab⟩
    | succ n => exact ih (by simpa using hy)

theorem forall₂_getElem?_left {R : α → β → Prop} {xs : List α} {ys : List β}
    (h : List.Forall₂ R xs ys) {n : Nat} {x : α} (hx : xs[n]? = some x) :
    ∃ y, ys[n]? = some y ∧ R x y :=
  forall₂_getElem?_right h.flip hx

/-- Numbering keeps what is related. -/
theorem forall₂_zipIdx {R : α → β → Prop} {xs : List α} {ys : List β} (h : List.Forall₂ R xs ys)
    (n : Nat) : List.Forall₂ (fun x y => R x.1 y.1 ∧ x.2 = y.2) (xs.zipIdx n) (ys.zipIdx n) := by
  induction h generalizing n with
  | nil => exact .nil
  | cons hxy _ ih => exact .cons ⟨hxy, rfl⟩ (ih (n + 1))

/-- What two related lists become is related if what two related elements become is. -/
theorem forall₂_of_forall₂ {α' β' : Type} {R : α → β → Prop} {S : α → α' → Prop} {T : β → β' → Prop}
    {U : α' → β' → Prop} {xs : List α} {ys : List β} {xs' : List α'} {ys' : List β'}
    (h : List.Forall₂ R xs ys) (hx : List.Forall₂ S xs xs') (hy : List.Forall₂ T ys ys')
    (hU : ∀ x y x' y', R x y → S x x' → T y y' → U x' y') : List.Forall₂ U xs' ys' := by
  induction h generalizing xs' ys' with
  | nil =>
    cases hx
    cases hy
    exact .nil
  | cons hxy _ ih =>
    cases hx with
    | cons hx hxs =>
      cases hy with
      | cons hy hys => exact .cons (hU _ _ _ _ hxy hx hy) (ih hxs hys)

/-- Some element has a property if some element of the other list has a property that related
elements share. -/
theorem exists_mem_iff_of_forall₂ {R : α → β → Prop} {P : α → Prop} {Q : β → Prop} {xs : List α}
    {ys : List β} (h : List.Forall₂ R xs ys) (hPQ : ∀ x y, R x y → (P x ↔ Q y)) :
    (∃ x ∈ xs, P x) ↔ ∃ y ∈ ys, Q y := by
  induction h with
  | nil => simp
  | cons hxy _ ih =>
    simp only [List.mem_cons, exists_eq_or_imp]
    exact or_congr (hPQ _ _ hxy) ih

/-- Related elements give the same. -/
theorem flatMap_eq_of_forall₂ {γ : Type} {R : α → β → Prop} {f : α → List γ} {g : β → List γ}
    {xs : List α} {ys : List β} (h : List.Forall₂ R xs ys) (hfg : ∀ x y, R x y → f x = g y) :
    xs.flatMap f = ys.flatMap g := by
  induction h with
  | nil => rfl
  | cons hxy _ ih => rw [List.flatMap_cons, List.flatMap_cons, hfg _ _ hxy, ih]

/-- Related elements that satisfy a condition have the same images. -/
theorem map_filter_of_forall₂ {γ : Type} {R : α → β → Prop} {p : α → Bool} {q : β → Bool}
    {f : α → γ} {g : β → γ} {xs : List α} {ys : List β} (h : List.Forall₂ R xs ys)
    (hpq : ∀ x y, R x y → p x = q y) (hfg : ∀ x y, R x y → p x = true → f x = g y) :
    (xs.filter p).map f = (ys.filter q).map g := by
  induction h with
  | nil => rfl
  | @cons x y _ _ hxy _ ih =>
    rw [List.filter_cons, List.filter_cons, ← hpq x y hxy]
    split
    case isTrue hp => rw [List.map_cons, List.map_cons, hfg x y hxy hp, ih]
    case isFalse => exact ih

end EntityRelation
