import EntityRelation.Proofs.Module.SameKeys
import EntityRelation.Proofs.Schema.Ends

/-!
# Ends that are exchanged

A relationship has a first and a second end, and as long as one of them is to-one it does not matter
which is which. The rules that find the owner of a key between two to-one ends look at the ends one
against the other, so the owner is found at the same end if the ends are exchanged
(`Schema.Resolves.ownerSide_exchange`). Only where no rule tells the ends apart the first one is
taken. Such ends have the same name, the same entity and the same cardinality, and so they are the
same end written twice (`Schema.Resolves.first_eq_second`).

It follows that a schema has the same keys if some relationships are written the other way round
(`Schema.sameKeys_of_rewritten`). Between two many ends the order matters, since it is in the name
of the junction.
-/

namespace EntityRelation

/-! ### Ends the other way round -/

/-- The relationship with its ends exchanged. -/
def Relationship.exchange (r : Relationship) : Relationship :=
  { r with first := r.second, second := r.first }

/-- Some end of the relationship is to-one. -/
def Relationship.HasToOneEnd (r : Relationship) : Prop := r.first.IsToOne ∨ r.second.IsToOne

/-- A relationship is written as it was, or the other way round if one of its ends is to-one. -/
inductive Relationship.Rewritten (r : Relationship) : Relationship → Prop where
  /-- It is written as it was. -/
  | same : Rewritten r r
  /-- It is written the other way round. -/
  | exchanged : r.HasToOneEnd → Rewritten r r.exchange

/-- The link with its ends exchanged. -/
def Link.exchange (l : Link) : Link := { l with first := l.second, second := l.first }

@[simp] theorem Link.endAt_exchange (l : Link) (side : Side) :
    l.exchange.endAt side = l.endAt side.opposite := by
  cases side <;> rfl

theorem Link.exchange_eq_self {l : Link} (h : l.first = l.second) : l.exchange = l := by
  obtain ⟨id, name, first, second, tags⟩ := l
  obtain rfl : first = second := h
  rfl

theorem Link.IsManyToOne.exchange {l : Link} {side : Side} (h : l.IsManyToOne side) :
    l.exchange.IsManyToOne side.opposite := by
  simpa [Link.IsManyToOne] using h

namespace Relationship.Rewritten

variable {r r' : Relationship}

theorem symm (h : r.Rewritten r') : r'.Rewritten r := by
  cases h with
  | same => exact .same
  | exchanged h => exact .exchanged (r := r.exchange) h.symm

theorem touches_eq (h : r.Rewritten r') (name : String) : r.touches name = r'.touches name := by
  cases h with
  | same => rfl
  | exchanged => exact Bool.or_comm _ _

theorem inside_eq (h : r.Rewritten r') (names : List String) :
    Catalog.inside names r = Catalog.inside names r' := by
  cases h with
  | same => rfl
  | exchanged => exact Bool.and_comm _ _

theorem isInside_eq (h : r.Rewritten r') (find : String → Option Nat) :
    Schema.isInside find r = Schema.isInside find r' := by
  cases h with
  | same => rfl
  | exchanged => exact Bool.and_comm _ _

theorem illMarked_iff (h : r.Rewritten r') : Schema.IllMarked r ↔ Schema.IllMarked r' := by
  cases h with
  | same => rfl
  | exchanged => simp [Schema.IllMarked, exchange, or_comm]

end Relationship.Rewritten

namespace Schema

variable {s s' : Schema} {es : List Entity} {rs rs' : List Relationship} {r r' : Relationship}
variable {find : String → Option Nat} {l l' : Link} {n : Nat}

/-! ### The owner -/

/-- One of two ends comes before the other, unless they and their entities have the same names. -/
theorem comesBefore_swap (s : Schema) (a b : LinkEnd) :
    (s.comesBefore b a = !s.comesBefore a b) ∨
      (a.name = b.name ∧ s.nameOf a.entity = s.nameOf b.entity) := by
  have hlt : ∀ {x y : String}, x < y → ¬ y < x ∧ x ≠ y ∧ y ≠ x := fun h =>
    ⟨String.lt_asymm h, fun he => String.lt_irrefl _ (he ▸ h), fun he => String.lt_irrefl _ (he ▸ h)⟩
  rcases Std.lt_trichotomy a.name b.name with h | h | h
  · simp [comesBefore, h, hlt h]
  · rcases Std.lt_trichotomy (s.nameOf a.entity) (s.nameOf b.entity) with h' | h' | h'
    · simp [comesBefore, h, h', hlt h']
    · exact .inr ⟨h, h'⟩
    · simp [comesBefore, h, h', hlt h']
  · simp [comesBefore, h, hlt h]

/-- Where naming and cardinality do not tell two ends apart, the names decide. -/
theorem ownerSide_of_even (s : Schema)
    (hg : l.first.givenName.isSome = l.second.givenName.isSome)
    (hc : l.first.cardinality = l.second.cardinality) :
    s.ownerSide l = if s.comesBefore l.second l.first then .second else .first := by
  unfold ownerSide
  rw [hg, hc]
  cases l.second.givenName.isSome <;> cases l.second.cardinality <;> rfl

/-- Two ends of a link that no rule tells apart are the same. -/
theorem Resolves.first_eq_second (h : s.Resolves es rs) (hr : LinkOf s.idOf? n r l)
    (hg : l.first.givenName.isSome = l.second.givenName.isSome)
    (hc : l.first.cardinality = l.second.cardinality) (hn : l.first.name = l.second.name)
    (he : s.nameOf l.first.entity = s.nameOf l.second.entity) : l.first = l.second := by
  have href : r.first.reference = r.second.reference := by
    rw [← h.nameOf_entity hr.first, he, h.nameOf_entity hr.second]
  have hentity : l.first.entity = l.second.entity :=
    Option.some.inj (hr.first.entity.symm.trans (href ▸ hr.second.entity))
  have hgiven : l.first.givenName = l.second.givenName := by
    have hname := hn
    rw [hr.first.name, hr.second.name, href] at hname
    revert hg hname
    cases l.first.givenName <;> cases l.second.givenName <;> simp
  obtain ⟨id, name, ⟨i, c, g, m⟩, ⟨i', c', g', m'⟩, tags⟩ := l
  simp_all

/-- The owner of a key between two to-one ends is the same end if the ends are exchanged. -/
theorem Resolves.ownerSide_exchange (h : s.Resolves es rs) (hr : LinkOf s.idOf? n r l)
    (hf : l.first.cardinality.isMany = false) (hs : l.second.cardinality.isMany = false) :
    s.ownerSide l.exchange = (s.ownerSide l).opposite ∨ l.first = l.second := by
  by_cases hg : l.first.givenName.isSome = l.second.givenName.isSome
  · by_cases hc : l.first.cardinality = l.second.cardinality
    · rw [s.ownerSide_of_even hg hc, s.ownerSide_of_even (l := l.exchange) hg.symm hc.symm]
      refine (s.comesBefore_swap l.second l.first).imp (fun hb => ?_) fun ⟨hn, he⟩ => ?_
      · simp only [Link.exchange, hb]
        cases s.comesBefore l.second l.first <;> rfl
      · exact h.first_eq_second hr hg hc hn.symm he.symm
    · left
      unfold ownerSide
      simp only [Link.exchange, hg]
      revert hc hf hs
      cases l.second.givenName.isSome <;> cases l.first.cardinality <;>
        cases l.second.cardinality <;> simp [Cardinality.isMany, Side.opposite]
  · left
    unfold ownerSide
    simp only [Link.exchange]
    revert hg
    cases l.first.givenName.isSome <;> cases l.second.givenName.isSome <;> simp [Side.opposite]

/-- If the owner goes with its end, so does the place of the key. -/
theorem keyPlace_exchange (h : s.ownerSide l.exchange = (s.ownerSide l).opposite) (side : Side) :
    s.keyPlace l.exchange side = s.keyPlace l side.opposite := by
  have hside : ((s.ownerSide l).opposite == side) = (s.ownerSide l == side.opposite) := by
    cases s.ownerSide l <;> cases side <;> rfl
  simp only [keyPlace, Link.endAt_exchange, h, hside]

/-- A link that is no junction has the same key if its ends are exchanged. -/
theorem Resolves.becomesSame_exchange (h : s.Resolves es rs) (hr : LinkOf s.idOf? n r l)
    (hm : ¬ l.IsManyToMany) : s.BecomesSame l l.exchange := by
  obtain ⟨side, hk, ho⟩ := s.exists_here hm
  have hto : (l.endAt side.opposite).cardinality.isMany = false := isMany_opposite_of_here hk
  have hkey : s.keyPlace l.exchange side.opposite = .here →
      s.keyPlace l.exchange side.opposite.opposite = .opposite → s.BecomesSame l l.exchange :=
    fun hk' ho' => .key side side.opposite rfl rfl hk ho hk' ho' (by simp) (by simp)
  cases hthis : (l.endAt side).cardinality.isMany with
  | true =>
    have hmany : l.exchange.IsManyToOne side.opposite := Link.IsManyToOne.exchange ⟨hthis, hto⟩
    exact hkey (s.keyPlace_of_isManyToOne hmany) (s.keyPlace_opposite_of_isManyToOne hmany)
  | false =>
    have hends : l.first.cardinality.isMany = false ∧ l.second.cardinality.isMany = false := by
      cases side with
      | first => exact ⟨hthis, hto⟩
      | second => exact ⟨hto, hthis⟩
    rcases h.ownerSide_exchange hr hends.1 hends.2 with howner | heq
    · refine hkey ?_ ?_
      · rw [keyPlace_exchange howner, Side.opposite_opposite, hk]
      · rw [keyPlace_exchange howner, Side.opposite_opposite, ho]
    · rw [Link.exchange_eq_self heq]
      exact .refl s l

/-! ### Schemas -/

theorem LinkOf.exchange (h : LinkOf find n r l) : LinkOf find n r.exchange l.exchange :=
  ⟨h.id, h.name, h.second, h.first, h.tags⟩

/-- The links of a relationship that is written as it was or the other way round. -/
theorem Resolves.becomesSame_of_rewritten (h : s.Resolves es rs) (hr : r.Rewritten r')
    (hl : LinkOf s.idOf? n r l) (hl' : LinkOf s.idOf? n r' l') : s.BecomesSame l l' := by
  cases hr with
  | same =>
    rw [hl.unique hl']
    exact .refl s l'
  | exchanged hto =>
    rw [← hl.exchange.unique hl']
    refine h.becomesSame_exchange hl fun hm => ?_
    obtain ⟨hf, hs⟩ := hl.isManyToMany_iff.1 hm
    exact hto.elim (·.not_isMany hf) (·.not_isMany hs)

/-- **A schema has the same keys** if some relationships with a to-one end are written the other way
round. -/
theorem sameKeys_of_rewritten (hs : (build es rs).outcome = .ok s)
    (hs' : (build es rs').outcome = .ok s') (h : List.Forall₂ Relationship.Rewritten rs rs') :
    s.SameKeys s' := by
  have hr := resolves_of_build hs
  have hr' := resolves_of_build hs'
  have hfind : s.idOf? = s'.idOf? := hr.idOf?_eq hr'
  have hinside : List.Forall₂ Relationship.Rewritten (rs.filter (isInside s.idOf?))
      (rs'.filter (isInside s'.idOf?)) :=
    List.rel_filter (fun r r' hr => by simp only [hfind, hr.isInside_eq]) h
  refine ⟨tables_eq_of_build hs hs',
    forall₂_of_forall₂ (forall₂_zipIdx hinside 0) hr.links hr'.links ?_⟩
  rintro ⟨r, n⟩ ⟨r', n'⟩ l l' ⟨hrr', rfl⟩ hl hl'
  exact hr.becomesSame_of_rewritten hrr' hl (hfind ▸ hl')

/-- A schema is built again if some relationships are written the other way round. -/
theorem exists_build_of_rewritten (hs : (build es rs).outcome = .ok s)
    (h : List.Forall₂ Relationship.Rewritten rs rs') :
    ∃ s', (build es rs').outcome = .ok s' ∧ s.SameKeys s' := by
  have hiff := exists_mem_iff_of_forall₂ h fun r r' hr => and_congr
    (Bool.eq_iff_iff.1 (hr.isInside_eq (numberIn es))) hr.illMarked_iff
  obtain ⟨hsound, hmarked⟩ := exists_build_iff.1 ⟨s, hs⟩
  obtain ⟨s', hs'⟩ := exists_build_iff.2 ⟨hsound, mt hiff.2 hmarked⟩
  exact ⟨s', hs', sameKeys_of_rewritten hs hs' h⟩

end Schema

end EntityRelation
