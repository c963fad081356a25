import Mathlib.Data.Fintype.Card
import Mathlib.Data.Set.Finite.List
import Mathlib.Logic.Relation

/-!
# Relations that do not lead back

A relation is acyclic if following it never leads back to where it started, for instance because
every step goes up a rank (`acyclic_of_rank`). Going against an acyclic relation inside a finite
list has to stop: some element of the list has nothing of the list before it
(`Acyclic.exists_first`). Turned around, a list in which everything has a predecessor holds a cycle,
and a cycle leads to everything in it (`behindCycle_of_forall_exists`).
-/

namespace EntityRelation

variable {α : Type} {R S : α → α → Prop}

/-- Following a relation never leads back to where it started. -/
def Acyclic (R : α → α → Prop) : Prop := ∀ a, ¬ Relation.TransGen R a a

/-- A part of an acyclic relation is acyclic. -/
theorem Acyclic.mono (hS : Acyclic S) (h : ∀ a b, R a b → S a b) : Acyclic R :=
  fun a ha => hS a (Relation.TransGen.mono h a a ha)

/-- A relation that raises a rank is acyclic. -/
theorem acyclic_of_rank {rank : α → Nat} (h : ∀ a b, R a b → rank a < rank b) : Acyclic R := by
  intro a ha
  have hlt : Relation.TransGen (· < ·) (rank a) (rank a) := ha.lift rank h
  rw [Relation.transGen_eq_self] at hlt
  exact Nat.lt_irrefl _ hlt

/-- Some element of a list has nothing of the list before it. -/
theorem Acyclic.exists_first (hR : Acyclic R) {xs : List α} (hne : xs ≠ []) :
    ∃ c ∈ xs, ∀ p ∈ xs, ¬ R p c := by
  have : Finite {x // x ∈ xs} := List.finite_toSet xs
  -- on a finite type a transitive relation that never leads back is well-founded
  let T : {x // x ∈ xs} → {x // x ∈ xs} → Prop := fun a b => Relation.TransGen R a b
  have : IsTrans _ T := ⟨fun _ _ _ => Relation.TransGen.trans⟩
  have : Std.Irrefl T := ⟨fun a => hR a⟩
  have hwf : WellFounded T := Finite.wellFounded_of_trans_of_irrefl T
  obtain ⟨x, hx⟩ := List.exists_mem_of_ne_nil xs hne
  obtain ⟨c, -, hc⟩ := hwf.has_min Set.univ ⟨⟨x, hx⟩, trivial⟩
  exact ⟨c, c.2, fun p hp h => hc ⟨p, hp⟩ trivial (.single h)⟩

/-- A cycle leads to an element, which is on it or behind it. -/
def BehindCycle (R : α → α → Prop) (c : α) : Prop :=
  ∃ a, Relation.TransGen R a a ∧ Relation.ReflTransGen R a c

theorem BehindCycle.mono {c : α} (hR : BehindCycle R c) (h : ∀ a b, R a b → S a b) :
    BehindCycle S c := by
  obtain ⟨a, ha, hac⟩ := hR
  exact ⟨a, Relation.TransGen.mono h a a ha, Relation.ReflTransGen.mono h a c hac⟩

/-- If everything in a list has a predecessor there, a cycle leads to everything in it. -/
theorem behindCycle_of_forall_exists {xs : List α} (h : ∀ c ∈ xs, ∃ p ∈ xs, R p c) {c : α}
    (hc : c ∈ xs) : BehindCycle R c := by
  classical
  by_contra hn
  -- what leads to the element has its predecessors among what leads to it, so it cannot be acyclic
  have hac : Acyclic fun a b => R a b ∧ Relation.ReflTransGen R b c := by
    intro a ha
    obtain ⟨b, -, -, hleads⟩ := Relation.TransGen.tail'_iff.1 ha
    exact hn ⟨a, Relation.TransGen.mono (fun _ _ => And.left) a a ha, hleads⟩
  have hne : xs.filter (fun d => Relation.ReflTransGen R d c) ≠ [] :=
    List.ne_nil_of_mem (List.mem_filter.2 ⟨hc, decide_eq_true .refl⟩)
  obtain ⟨d, hd, hfirst⟩ := hac.exists_first hne
  obtain ⟨hd, hleads⟩ := List.mem_filter.1 hd
  have hdc : Relation.ReflTransGen R d c := of_decide_eq_true hleads
  obtain ⟨p, hp, hpd⟩ := h d hd
  exact hfirst p (List.mem_filter.2 ⟨hp, decide_eq_true (hdc.head hpd)⟩) ⟨hpd, hdc⟩

end EntityRelation
