import EntityRelation.Catalog
import EntityRelation.Proofs.Schema.Ownership
import EntityRelation.Proofs.Schema.Resolution

/-!
# Links in the words of the diagram

What a link says of its ends can be read off the relationship that it comes from: whether an end is
many (`EndOf.isMany_iff`) or may be empty (`EndOf.isOptional_eq`), what it is called
(`EndOf.name_eq`), and whether both ends are many or of the same kind (`LinkOf.isManyToMany_iff`,
`LinkOf.isEven`). The relationships that become links are those whose ends both have the name of an
entity (`isInside_numberIn`).
-/

namespace EntityRelation

/-- The end at a side. -/
def Relationship.endAt (r : Relationship) : Side → End
  | .first => r.first
  | .second => r.second

namespace End

/-- The end is many: its cardinality has a star. -/
def IsMany (e : End) : Prop := '*' ∈ (Text.trim e.cardinality).toList

instance (e : End) : Decidable e.IsMany := inferInstanceAs (Decidable (_ ∈ _))

/-- The end is to-one. -/
def IsToOne (e : End) : Prop :=
  Text.trim e.cardinality = "1" ∨ Text.trim e.cardinality = "0..1"

/-- The name of the end without blanks around it, if it has one with text. -/
def givenName (e : End) : Option String := e.name.bind Text.trim?

/-- The given name, or the name of the entity in lower case. -/
def effectiveName (e : End) : String := e.givenName.getD (Text.lower e.reference)

theorem IsToOne.not_isMany {e : End} (h : e.IsToOne) : ¬ e.IsMany := by
  rcases h with h | h <;> simp [IsMany, h]

end End

namespace Schema

variable {s : Schema} {find : String → Option Nat} {n : Nat} {r : Relationship} {l : Link}

/-! ### Ends -/

/-- The end of a link at a side comes from the end of the relationship there. -/
theorem LinkOf.endAt (h : LinkOf find n r l) (side : Side) :
    EndOf find (r.endAt side) (l.endAt side) := by
  cases side with
  | first => exact h.first
  | second => exact h.second

theorem EndOf.name_eq {e : End} {x : LinkEnd} (h : EndOf find e x) : x.name = e.effectiveName := by
  rw [h.name, h.givenName]
  rfl

theorem EndOf.isMany_iff {e : End} {x : LinkEnd} (h : EndOf find e x) :
    x.cardinality.isMany = true ↔ e.IsMany := by
  rw [End.IsMany]
  rcases Cardinality.parse?_eq_some h.cardinality with ⟨ht, hc⟩ | ⟨ht, hc⟩ | ⟨ht, hc⟩
  · simp [ht, hc, Cardinality.isMany]
  · simp [ht, hc, Cardinality.isMany]
  · simp [ht, hc, Cardinality.isMany]

/-- An end that is not many may be empty exactly if it says so. -/
theorem EndOf.isOptional_eq {e : End} {x : LinkEnd} (h : EndOf find e x)
    (hm : x.cardinality.isMany = false) :
    x.cardinality.isOptional = decide (Text.trim e.cardinality = "0..1") := by
  rcases Cardinality.parse?_eq_some h.cardinality with ⟨ht, hc⟩ | ⟨ht, hc⟩ | ⟨-, hc⟩
  · rw [ht, hc]
    rfl
  · rw [ht, hc]
    rfl
  · rw [hc] at hm
    cases hm

theorem LinkOf.isManyToMany_iff (h : LinkOf find n r l) :
    l.IsManyToMany ↔ r.first.IsMany ∧ r.second.IsMany :=
  and_congr h.first.isMany_iff h.second.isMany_iff

/-- Between ends that are both one, or both zero or one, the cardinalities are the same. -/
theorem LinkOf.isEven (h : LinkOf find n r l) {marker : String} (hm : marker ∈ ["1", "0..1"])
    (hr : Text.trim r.first.cardinality = marker) (hr' : Text.trim r.second.cardinality = marker) :
    l.IsEven := by
  have hc : ∀ {c : Cardinality} {text : String}, Text.trim text = marker →
      Cardinality.parse? text = some c → c = if marker = "1" then .one else .zeroOrOne := by
    intro c text ht hc
    rw [Cardinality.parse?, ht] at hc
    rcases List.mem_pair.1 hm with rfl | rfl <;> exact (Option.some.inj hc).symm
  rw [Link.IsEven, hc hr h.first.cardinality, hc hr' h.second.cardinality]
  split <;> exact ⟨rfl, rfl, rfl⟩

/-! ### Relationships inside -/

variable {es : List Entity} {rs : List Relationship}

/-- A relationship is inside some entities if both its ends have the name of one of them. -/
theorem isInside_numberIn (es : List Entity) (r : Relationship) :
    isInside (numberIn es) r = Catalog.inside (es.map (·.name)) r := by
  have h : ∀ name, (numberIn es name).isSome = (es.map (·.name)).contains name := fun name => by
    rw [numberIn, List.findIdx?_isSome, Bool.eq_iff_iff, List.any_eq_true, List.contains_iff_mem,
      List.mem_map]
    exact exists_congr fun e => and_congr_right fun _ => beq_iff_eq
  rw [isInside, Catalog.inside, h, h]

/-- Every link comes from a relationship inside. -/
theorem Resolves.exists_relationship (h : s.Resolves es rs) (hl : l ∈ s.links) :
    ∃ r ∈ rs, Catalog.inside (es.map (·.name)) r = true ∧ LinkOf s.idOf? l.id r l := by
  obtain ⟨n, hn⟩ := List.getElem?_of_mem hl
  obtain ⟨r, hr, hrl⟩ := h.linkOf hn
  obtain ⟨hr, hin⟩ := List.mem_filter.1 (List.mem_of_getElem? hr)
  rw [idOf?_eq_numberIn h.tables, isInside_numberIn] at hin
  exact ⟨r, hr, hin, hrl.id ▸ hrl⟩

/-- Every relationship inside becomes a link. -/
theorem Resolves.exists_link (h : s.Resolves es rs) (hr : r ∈ rs)
    (hin : Catalog.inside (es.map (·.name)) r = true) :
    ∃ l ∈ s.links, LinkOf s.idOf? l.id r l := by
  rw [← isInside_numberIn, ← idOf?_eq_numberIn h.tables] at hin
  obtain ⟨n, hn⟩ := List.getElem?_of_mem (List.mem_filter.2 ⟨hr, hin⟩)
  obtain ⟨l, hl, hrl⟩ := h.exists_linkOf hn
  exact ⟨l, hl, hrl.id ▸ hrl⟩

end Schema

end EntityRelation
