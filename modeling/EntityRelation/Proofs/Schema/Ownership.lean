import EntityRelation.KeyPlace

/-!
# One owner for every link

A link between two ends that are many is a junction seen from either side
(`keyPlace_eq_junction_iff`). Every other link has its key on exactly one of its sides, the owning
one (`exists_here`), and that side faces an end that is not many. A key orders its owner
after its target unless both stand at the same entity or both ends have the same cardinality
(`strength?_eq_none_iff`).
-/

namespace EntityRelation

@[simp] theorem Side.opposite_opposite (side : Side) : side.opposite.opposite = side := by
  cases side <;> rfl

theorem Side.eq_or_eq_opposite (a b : Side) : b = a ∨ b = a.opposite := by
  cases a <;> cases b <;> simp [Side.opposite]

theorem Side.opposite_ne (side : Side) : side.opposite ≠ side := by
  cases side <;> simp [Side.opposite]

namespace Link

/-- Both ends of a link are many. -/
def IsManyToMany (l : Link) : Prop := l.first.cardinality.isMany ∧ l.second.cardinality.isMany

instance (l : Link) : Decidable l.IsManyToMany := inferInstanceAs (Decidable (_ ∧ _))

/-- Both ends of a link are not many, and they have the same cardinality. -/
def IsEven (l : Link) : Prop :=
  l.first.cardinality.isToOne ∧ l.second.cardinality.isToOne ∧
    l.first.cardinality = l.second.cardinality

/-- The end at a side of a link is many, and the other end is not. -/
def IsManyToOne (l : Link) (side : Side) : Prop :=
  (l.endAt side).cardinality.isMany = true ∧ (l.endAt side.opposite).cardinality.isMany = false

theorem isManyToMany_iff (l : Link) (side : Side) : l.IsManyToMany ↔
    (l.endAt side).cardinality.isMany = true ∧
      (l.endAt side.opposite).cardinality.isMany = true := by
  cases side with
  | first => exact Iff.rfl
  | second => exact And.comm

theorem isLoop_iff (l : Link) (side : Side) :
    l.isLoop = true ↔ (l.endAt side).entity = (l.endAt side.opposite).entity := by
  cases side with
  | first => exact beq_iff_eq
  | second => exact beq_iff_eq.trans eq_comm

end Link

namespace Schema

variable {s : Schema} {l : Link} {side : Side}

theorem keyPlace_eq_junction_iff : s.keyPlace l side = .junction ↔ l.IsManyToMany := by
  rw [l.isManyToMany_iff side, keyPlace]
  cases (l.endAt side).cardinality.isMany <;>
    cases (l.endAt side.opposite).cardinality.isMany <;> simp
  split <;> simp

/-- A link that is no junction has its key on one side, and the other side leaves it there. -/
theorem exists_here (s : Schema) (h : ¬ l.IsManyToMany) :
    ∃ side, s.keyPlace l side = .here ∧ s.keyPlace l side.opposite = .opposite := by
  simp only [keyPlace, Side.opposite_opposite]
  cases h₁ : l.first.cardinality.isMany with
  | true =>
    have h₂ : l.second.cardinality.isMany = false := Bool.eq_false_iff.2 fun h₂ => h ⟨h₁, h₂⟩
    exact ⟨.first, by simp [Link.endAt, Side.opposite, h₁, h₂], by
      simp [Link.endAt, Side.opposite, h₁, h₂]⟩
  | false =>
    cases h₂ : l.second.cardinality.isMany with
    | true =>
      exact ⟨.second, by simp [Link.endAt, Side.opposite, h₁, h₂], by
        simp [Link.endAt, Side.opposite, h₁, h₂]⟩
    | false =>
      refine ⟨s.ownerSide l, ?_, ?_⟩ <;>
        cases s.ownerSide l <;> simp [Link.endAt, Side.opposite, h₁, h₂]

/-- A key refers to an end that is not many. -/
theorem isMany_opposite_of_here (h : s.keyPlace l side = .here) :
    (l.endAt side.opposite).cardinality.isMany = false := by
  rw [keyPlace] at h
  cases hm : (l.endAt side.opposite).cardinality.isMany with
  | false => rfl
  | true =>
    rw [hm] at h
    simp only [if_true] at h
    split at h <;> cases h

/-- The key of a link between a many end and another one lives at the many end. -/
theorem keyPlace_of_isManyToOne (s : Schema) (h : l.IsManyToOne side) :
    s.keyPlace l side = .here := by
  simp [keyPlace, h.1, h.2]

/-- The other end leaves the key there. -/
theorem keyPlace_opposite_of_isManyToOne (s : Schema) (h : l.IsManyToOne side) :
    s.keyPlace l side.opposite = .opposite := by
  simp [keyPlace, h.1, h.2]

end Schema

namespace Link

variable {l : Link} {side : Side}

/-- Two ends are not of the same kind if one is many and the other is not. -/
theorem IsManyToOne.not_isEven (h : l.IsManyToOne side) : ¬ l.IsEven := by
  rintro ⟨hf, hs, -⟩
  have hm := h.1
  cases side with
  | first => exact absurd hm (by simpa [endAt, Cardinality.isToOne] using hf)
  | second => exact absurd hm (by simpa [endAt, Cardinality.isToOne] using hs)

/-- The owner of a key at a many end has to follow another entity. -/
theorem IsManyToOne.strength?_eq (h : l.IsManyToOne side)
    (hne : (l.endAt side).entity ≠ (l.endAt side.opposite).entity) :
    l.strength? side = some .hard := by
  have hm := h.1
  rw [strength?, if_neg (mt (l.isLoop_iff side).1 hne)]
  cases hc : (l.endAt side).cardinality with
  | many text => rfl
  | one => rw [hc] at hm; cases hm
  | zeroOrOne => rw [hc] at hm; cases hm

end Link

/-- A key does not order its entities exactly if they are the same or the ends are of the same
kind. -/
theorem Link.strength?_eq_none_iff {l : Link} {side : Side}
    (h : (l.endAt side.opposite).cardinality.isMany = false) :
    l.strength? side = none ↔ l.isLoop = true ∨ l.IsEven := by
  unfold Link.strength?
  split
  case isTrue hl => simp [hl]
  case isFalse hl =>
    simp only [hl, Bool.false_eq_true, false_or, Link.IsEven]
    cases side <;> simp only [endAt, Side.opposite] at h ⊢ <;>
      cases h₁ : l.first.cardinality <;> cases h₂ : l.second.cardinality <;>
      simp_all [Cardinality.isMany, Cardinality.isToOne]

end EntityRelation
