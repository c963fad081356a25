import EntityRelation.Proofs.Dependency.Answers
import EntityRelation.Proofs.Schema.Ends

/-!
# The order of a schema and the list of its relationships

A schema is built from a list of relationships, and its links are numbered along this list. The
order of the schema does not show it. **`Schema.order_eq_of_rearranged`**: the order is the same, and
the same edges are given up, if the list is put in another order, if relationships are repeated, and
if relationships that order no entities are put in or left out anywhere (`Rearranged`).

Only relationships that order their entities give dependencies (`LinkOf.not_isNeutral`), and what
they give depends on their ends alone (`dependencyAt?_congr`). So both schemas have the same set of
dependencies, which is all that an order depends on (`Schema.outcome_order_congr`).
-/

namespace EntityRelation

open Dependency

/-! ### Lists of relationships -/

/-- The relationship does not order entities of the list. -/
inductive Relationship.IsNeutral (es : List Entity) (r : Relationship) : Prop where
  /-- Some end refers to none of the entities. -/
  | leaves : ¬ Catalog.inside (es.map (·.name)) r = true → IsNeutral es r
  /-- Both ends refer to the same entity. -/
  | loop : r.first.reference = r.second.reference → IsNeutral es r
  /-- Both ends are many. -/
  | manyToMany : r.first.IsMany → r.second.IsMany → IsNeutral es r
  /-- Both ends are one, or both are zero or one. -/
  | even {marker : String} : marker ∈ ["1", "0..1"] → Text.trim r.first.cardinality = marker →
      Text.trim r.second.cardinality = marker → IsNeutral es r

/-- A list of relationships becomes another one in which the same relationships order entities. -/
inductive Rearranged (es : List Entity) : List Relationship → List Relationship → Prop where
  /-- The list is put in another order. -/
  | perm {rs rs' : List Relationship} : rs.Perm rs' → Rearranged es rs rs'
  /-- A relationship of the list is repeated somewhere. -/
  | repeated {r : Relationship} {xs ys : List Relationship} : r ∈ xs ++ ys →
      Rearranged es (xs ++ ys) (xs ++ r :: ys)
  /-- A relationship that orders no entities is put in somewhere. -/
  | insert {r : Relationship} {xs ys : List Relationship} : r.IsNeutral es →
      Rearranged es (xs ++ ys) (xs ++ r :: ys)
  /-- A relationship that orders no entities is left out. -/
  | delete {r : Relationship} {xs ys : List Relationship} : r.IsNeutral es →
      Rearranged es (xs ++ r :: ys) (xs ++ ys)
  /-- One change after the other. -/
  | trans {rs rs' rs'' : List Relationship} : Rearranged es rs rs' → Rearranged es rs' rs'' →
      Rearranged es rs rs''

/-- The relationships that order entities are in both lists. -/
theorem Rearranged.mem_iff {es : List Entity} {rs rs' : List Relationship}
    (h : Rearranged es rs rs') {r : Relationship} (hr : ¬ r.IsNeutral es) : r ∈ rs ↔ r ∈ rs' := by
  have hother : ∀ x xs ys, x.IsNeutral es → (r ∈ xs ++ x :: ys ↔ r ∈ xs ++ ys) := by
    rintro x xs ys hx
    have hne : r ≠ x := fun he => hr (he ▸ hx)
    simp [hne]
  induction h with
  | perm h => exact h.mem_iff
  | @repeated x xs ys hx =>
    rw [List.perm_middle.mem_iff, List.mem_cons]
    exact ⟨.inr, fun h => h.elim (fun he => he ▸ hx) id⟩
  | insert hx => exact (hother _ _ _ hx).symm
  | delete hx => exact hother _ _ _ hx
  | trans _ _ ih ih' => exact ih.trans ih'

namespace Schema

variable {s s' : Schema} {es : List Entity} {rs rs' : List Relationship} {r : Relationship}
variable {find : String → Option Nat} {l : Link} {side : Side} {e : Edge} {n : Nat}

/-! ### What a link gives -/

/-- Only a relationship that orders entities gives a dependency. -/
theorem LinkOf.not_isNeutral (h : LinkOf find n r l)
    (hin : Catalog.inside (es.map (·.name)) r = true) (he : s.dependencyAt? l side = some e) :
    ¬ r.IsNeutral es := by
  obtain ⟨hk, k, hs, -⟩ := dependencyAt?_eq_some_iff.1 he
  have hordered : ¬ (l.isLoop = true ∨ l.IsEven) := fun hn => by
    rw [(Link.strength?_eq_none_iff (isMany_opposite_of_here hk)).2 hn] at hs
    cases hs
  intro hr
  cases hr with
  | leaves hout => exact hout hin
  | loop hr =>
    have hi : l.first.entity = l.second.entity :=
      Option.some.inj (h.first.entity.symm.trans (hr ▸ h.second.entity))
    exact hordered (.inl (beq_iff_eq.2 hi))
  | manyToMany hf hf' =>
    rw [keyPlace_eq_junction_iff.2 (h.isManyToMany_iff.2 ⟨hf, hf'⟩)] at hk
    cases hk
  | even hm hf hf' => exact hordered (.inr (h.isEven hm hf hf'))

/-! ### What the schemas give -/

/-- Every dependency of a schema is one of another that has the same relationships to order its
entities. -/
theorem mem_dependencies_of_subset (h : s.Resolves es rs) (h' : s'.Resolves es rs')
    (ht : s.tables = s'.tables) (hsub : ∀ r, ¬ r.IsNeutral es → r ∈ rs → r ∈ rs')
    (he : e ∈ s.dependencies) : e ∈ s'.dependencies := by
  obtain ⟨l, hl, side, he⟩ := mem_dependencies.1 he
  obtain ⟨r, hr, hin, hrl⟩ := h.exists_relationship hl
  obtain ⟨l', hl', hrl'⟩ := h'.exists_link (hsub r (hrl.not_isNeutral hin he) hr) hin
  rw [h'.idOf?_eq h] at hrl'
  rw [dependencyAt?_congr ht (hrl.first.unique hrl'.first) (hrl.second.unique hrl'.second)] at he
  exact mem_dependencies.2 ⟨l', hl', side, he⟩

/-- **The order of a schema does not depend on the list of its relationships**, but on which
relationships that order entities are in it. -/
theorem order_eq_of_rearranged (hs : (build es rs).outcome = .ok s)
    (hs' : (build es rs').outcome = .ok s') (h : Rearranged es rs rs') :
    ∃ o, s.order.outcome = .ok o ∧ s'.order.outcome = .ok o := by
  have hr := resolves_of_build hs
  have hr' := resolves_of_build hs'
  have ht := tables_eq_of_build hs hs'
  obtain ⟨o, ho, -⟩ := s.exists_order
  refine ⟨o, ho, ?_⟩
  rw [← ho]
  refine outcome_order_congr (by rw [size, size, ht]) fun e => ⟨?_, ?_⟩
  · exact mem_dependencies_of_subset hr' hr ht.symm fun r hn => (h.mem_iff hn).2
  · exact mem_dependencies_of_subset hr hr' ht fun r hn => (h.mem_iff hn).1

end Schema

/-- A relationship without names. -/
def Relationship.plain (a cardinality b cardinality' : String) : Relationship where
  first := { reference := a, cardinality := cardinality }
  second := { reference := b, cardinality := cardinality' }

/-- Two entities that have to follow each other: the loop is left out, the others change places, the
first one is repeated, and a junction and a relationship that leaves are put in. -/
theorem Schema.order_eq_of_mutual :
    ∃ s s', (build [{ name := "A" }, { name := "B" }]
        [.plain "A" "1" "B" "0..1", .plain "A" "*" "B" "1", .plain "B" "*" "B" "1"]).outcome = .ok s ∧
      (build [{ name := "A" }, { name := "B" }]
        [.plain "A" "*" "B" "*", .plain "A" "*" "B" "1", .plain "A" "1" "B" "0..1",
          .plain "C" "*" "B" "1", .plain "A" "*" "B" "1"]).outcome = .ok s' ∧
      ∃ o, s.order.outcome = .ok o ∧ s'.order.outcome = .ok o := by
  have h : Rearranged [{ name := "A" }, { name := "B" }]
      [.plain "A" "1" "B" "0..1", .plain "A" "*" "B" "1", .plain "B" "*" "B" "1"]
      [.plain "A" "*" "B" "*", .plain "A" "*" "B" "1", .plain "A" "1" "B" "0..1",
        .plain "C" "*" "B" "1", .plain "A" "*" "B" "1"] :=
    (@Rearranged.delete _ _ [_, _] [] (.loop rfl)).trans <|
    (Rearranged.perm (.swap _ _ _)).trans <|
    (@Rearranged.repeated _ _ [_, _] [] List.mem_cons_self).trans <|
    (@Rearranged.insert _ _ [_, _] [_] (.leaves (by decide))).trans <|
    @Rearranged.insert _ _ [] [_, _, _, _] (.manyToMany (by decide) (by decide))
  exact ⟨_, _, rfl, rfl, order_eq_of_rearranged rfl rfl h⟩

end EntityRelation
