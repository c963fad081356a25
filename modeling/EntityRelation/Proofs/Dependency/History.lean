import EntityRelation.Dependency.Graph

/-!
# What a graph answers after its changes

A dependency graph is asked for one thing, the strength of the edge between two entities. This
module says what an addition and a removal do to the answers (`strength?_add`,
`strength?_remove`), and what is true of every graph that a history of changes leaves: it has no
edge from an entity to itself (`strength?_ofHistory_self`).
-/

namespace EntityRelation.Dependency

/-- A change of a graph. -/
inductive Change where
  /-- An edge is added, or made as strong as given. -/
  | add (parent child : Nat) (strength : Strength)
  /-- An edge is taken away. -/
  | remove (parent child : Nat)
  deriving DecidableEq, Repr

namespace Graph

/-- The graph after a change. -/
def change (g : Graph) : Change → Graph
  | .add parent child strength => g.add parent child strength
  | .remove parent child => g.remove parent child

/-- The graph that a history leaves, the first change first. -/
def ofHistory (history : List Change) : Graph := history.foldl change empty

/-- What holds of the graph without edges and is kept by every change holds after every history. -/
theorem ofHistory_induction {P : Graph → Prop} (h₀ : P empty)
    (hs : ∀ g x, P g → P (change g x)) (history : List Change) : P (ofHistory history) := by
  suffices h : ∀ g, P g → P (history.foldl change g) from h empty h₀
  induction history with
  | nil => exact fun _ hg => hg
  | cons x rest ih => exact fun g hg => ih _ (hs g x hg)

/-! ### The answers -/

theorem joins_edge_iff {e : Edge} {p c : Nat} :
    e.joins p c = true ↔ e.parent = p ∧ e.child = c := by
  simp [Edge.joins]

@[simp] theorem strength?_empty (p c : Nat) : empty.strength? p c = none := rfl

theorem joins_iff {g : Graph} {p c : Nat} : g.joins p c = true ↔ ∃ s, g.strength? p c = some s := by
  rw [joins, Option.isSome_iff_exists]

/-- A removal takes away one answer and leaves all others. -/
theorem strength?_remove (g : Graph) (p c p' c' : Nat) :
    (g.remove p c).strength? p' c' = if p' = p ∧ c' = c then none else g.strength? p' c' := by
  unfold strength? remove
  rw [List.find?_filter]
  split
  case isTrue h =>
    obtain ⟨rfl, rfl⟩ := h
    rw [List.find?_eq_none.2 (by simp), Option.map_none]
  case isFalse h =>
    congr 2
    funext e
    by_cases he : e.joins p' c' = true
    · obtain ⟨rfl, rfl⟩ := joins_edge_iff.1 he
      have hne : e.joins p c = false := Bool.eq_false_iff.2 fun hj => h (joins_edge_iff.1 hj)
      simp [he, hne]
    · simp [he]

theorem joins_remove_iff {g : Graph} {p c p' c' : Nat} : (g.remove p c).joins p' c' = true ↔
    g.joins p' c' = true ∧ ¬ (p' = p ∧ c' = c) := by
  rw [joins, strength?_remove]
  split
  case isTrue h => exact iff_of_false Bool.false_ne_true fun hj => hj.2 h
  case isFalse h => exact (and_iff_left h).symm

/-- Nothing is added from an entity to itself. -/
theorem add_self (g : Graph) (p : Nat) (s : Strength) : g.add p p s = g := if_pos rfl

/-- An edge that is made stronger joins the same entities. -/
theorem joins_strengthen (e : Edge) (p c p' c' : Nat) (s : Strength) :
    (if e.joins p c then { e with strength := s } else e).joins p' c' = e.joins p' c' := by
  split <;> rfl

/-- An addition settles one answer, the stronger of the old and the new, and leaves all others. -/
theorem strength?_add (g : Graph) {p c : Nat} (h : p ≠ c) (s : Strength) (p' c' : Nat) :
    (g.add p c s).strength? p' c' =
      if p' = p ∧ c' = c then some ((g.strength? p c).elim s (·.max s))
      else g.strength? p' c' := by
  rw [add, if_neg h]
  by_cases hj : g.joins p c = true
  · -- the edge is there: the list keeps its shape, and one edge changes its strength
    obtain ⟨t, ht⟩ := joins_iff.1 hj
    obtain ⟨e, he, rfl⟩ := Option.map_eq_some_iff.1 ht
    have hec : e.joins p c = true := by simpa using List.find?_some he
    simp only [strength?, hj, if_true, List.find?_map, Function.comp_def, joins_strengthen, he]
    split
    case isTrue hpc =>
      obtain ⟨rfl, rfl⟩ := hpc
      simp [he, hec]
    case isFalse hpc =>
      rw [Option.map_map]
      refine Option.map_congr fun x hx => ?_
      have hxc : x.joins p' c' = true := by simpa using List.find?_some hx
      have hne : x.joins p c = false :=
        Bool.eq_false_iff.2 fun hp => hpc (by
          rw [joins_edge_iff] at hp hxc
          exact ⟨hxc.1.symm.trans hp.1, hxc.2.symm.trans hp.2⟩)
      simp [hne]
  · have hn : g.strength? p c = none := by simpa [joins] using hj
    have hf : g.edges.find? (·.joins p c) = none := Option.map_eq_none_iff.1 hn
    rw [if_neg hj, hn]
    simp only [strength?, List.find?_append]
    split
    case isTrue hpc =>
      obtain ⟨rfl, rfl⟩ := hpc
      have hx : (⟨p', c', s⟩ : Edge).joins p' c' = true := joins_edge_iff.2 ⟨rfl, rfl⟩
      simp [hf, hx]
    case isFalse hpc =>
      have hx : (⟨p, c, s⟩ : Edge).joins p' c' = false :=
        Bool.eq_false_iff.2 fun hp => hpc ((joins_edge_iff.1 hp).imp Eq.symm Eq.symm)
      simp [hx]

/-- An addition joins what was joined, and the two entities if they differ. -/
theorem joins_add_iff {g : Graph} {a b p c : Nat} {s : Strength} :
    (g.add a b s).joins p c = true ↔ g.joins p c = true ∨ (a = p ∧ b = c ∧ p ≠ c) := by
  by_cases hab : a = b
  · rw [hab, add_self]
    exact (or_iff_left fun ⟨hp, hc, hne⟩ => hne (hp.symm.trans hc)).symm
  · rw [joins, strength?_add g hab]
    split
    case isTrue h =>
      obtain ⟨rfl, rfl⟩ := h
      exact iff_of_true rfl (.inr ⟨rfl, rfl, hab⟩)
    case isFalse h => exact (or_iff_left fun ⟨hp, hc, _⟩ => h ⟨hp.symm, hc.symm⟩).symm

/-- An addition leaves hard what was hard, and makes the edge between two entities hard if it is. -/
theorem strength?_add_eq_hard_iff {g : Graph} {a b p c : Nat} {s : Strength} :
    (g.add a b s).strength? p c = some .hard ↔
      g.strength? p c = some .hard ∨ (a = p ∧ b = c ∧ p ≠ c ∧ s = .hard) := by
  by_cases hab : a = b
  · rw [hab, add_self]
    exact (or_iff_left fun ⟨hp, hc, hne, _⟩ => hne (hp.symm.trans hc)).symm
  · rw [strength?_add g hab]
    split
    case isTrue h =>
      obtain ⟨rfl, rfl⟩ := h
      cases g.strength? p c with
      | none => simp [hab]
      | some t => cases t <;> simp [Strength.max, hab]
    case isFalse h => exact (or_iff_left fun ⟨hp, hc, _⟩ => h ⟨hp.symm, hc.symm⟩).symm

/-- A removal leaves a graph without an edge from an entity to itself. -/
theorem strength?_remove_self {g : Graph} (hg : ∀ q, g.strength? q q = none) (p c q : Nat) :
    (g.remove p c).strength? q q = none := by
  rw [strength?_remove, hg, ite_self]

/-! ### Histories -/

/-- No history leads to an edge from an entity to itself. -/
theorem strength?_ofHistory_self (history : List Change) (p : Nat) :
    (ofHistory history).strength? p p = none := by
  refine ofHistory_induction (P := fun g => g.strength? p p = none) rfl (fun g x hg => ?_) history
  cases x with
  | add a b s =>
    rw [change]
    by_cases hab : a = b
    · rw [hab, add_self, hg]
    · rw [strength?_add g hab, if_neg (fun h => hab (h.1.symm.trans h.2)), hg]
  | remove a b => rw [change, strength?_remove, hg, ite_self]

end Graph

end EntityRelation.Dependency
