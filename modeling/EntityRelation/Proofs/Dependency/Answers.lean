import EntityRelation.Proofs.Dependency.OfSchema
import EntityRelation.Proofs.Dependency.Parts

/-!
# A sort asks for the answers only

What a sort does with a graph is to ask for the strength of the edge between two entities. So graphs
that give the same answers have the same order, in whatever order their edges were added
(`Graph.sort_congr`). The graph of a schema answers by the set of its edges: two entities are joined
if some edge joins them, and hard if some such edge is hard. So schemas with the same number of
entities and the same dependencies, in any order and any number of times, have the same order
(`Schema.outcome_order_congr`). The dependencies themselves are told by the names and the ends of the
links, and entities with other numbers have the same ones under these (`dependencyAt?_renumber`).
-/

namespace EntityRelation

open Dependency

namespace Dependency.Graph

variable {g g' : Graph}

/-! ### Graphs with the same answers -/

/-- Graphs with the same answers have the same order: each of them is all of the other. -/
theorem sort_congr (h : g.strength? = g'.strength?) (entities : List Nat) :
    g.sort entities = g'.sort entities := by
  have hpart : PartOf id (fun _ => true) g' entities g entities :=
    { map_waiting := by rw [List.map_id, List.filter_true]
      injective := fun _ _ _ _ hab => hab
      strength?_eq := fun p _ c _ => (congrFun (congrFun h p) c).symm
      apart := fun _ _ _ _ _ => rfl }
  obtain ⟨n, o, hrun, -⟩ := exists_rounds g entities
  obtain ⟨o', ho', heq⟩ := hpart.exists_sort hrun.sort_eq
  rw [Order.renumber_id, Order.only_true] at heq
  rw [hrun.sort_eq, ho', heq]

/-! ### Graphs with the same edges -/

/-- An answer is known from what is joined and what is hard. -/
theorem strength?_eq_of_iff {p c p' c' : Nat} (hj : g.joins p c = true ↔ g'.joins p' c' = true)
    (hh : g.strength? p c = some .hard ↔ g'.strength? p' c' = some .hard) :
    g.strength? p c = g'.strength? p' c' := by
  rw [joins_iff, joins_iff] at hj
  revert hj hh
  rcases g.strength? p c with - | (- | -) <;> rcases g'.strength? p' c' with - | (- | -) <;> simp

/-- Added edges give the same answers in any order and any number of times. -/
theorem strength?_foldl_add_congr {es es' : List Edge} {p c p' c' : Nat} (hloop : p = c ↔ p' = c')
    (h : ∀ k, ⟨p, c, k⟩ ∈ es ↔ ⟨p', c', k⟩ ∈ es') (h₀ : g.strength? p c = g'.strength? p' c') :
    (es.foldl (fun g e => g.add e.parent e.child e.strength) g).strength? p c =
      (es'.foldl (fun g e => g.add e.parent e.child e.strength) g').strength? p' c' := by
  have hjoins : g.joins p c = g'.joins p' c' := by rw [joins, joins, h₀]
  have hedge : ∀ (Q : Strength → Prop), (∃ e ∈ es, e.parent = p ∧ e.child = c ∧ p ≠ c ∧
      Q e.strength) ↔ ∃ e ∈ es', e.parent = p' ∧ e.child = c' ∧ p' ≠ c' ∧ Q e.strength := by
    intro Q
    constructor
    · rintro ⟨⟨_, _, k⟩, he, rfl, rfl, hne, hk⟩
      exact ⟨_, (h k).1 he, rfl, rfl, fun hl => hne (hloop.2 hl), hk⟩
    · rintro ⟨⟨_, _, k⟩, he, rfl, rfl, hne, hk⟩
      exact ⟨_, (h k).2 he, rfl, rfl, fun hl => hne (hloop.1 hl), hk⟩
  refine strength?_eq_of_iff ?_ ?_
  · rw [joins_foldl_add_iff, joins_foldl_add_iff, hjoins]
    simpa only [and_true] using or_congr_right (hedge fun _ => True)
  · rw [strength?_foldl_add_eq_hard_iff, strength?_foldl_add_eq_hard_iff, h₀, hedge (· = .hard)]

end Dependency.Graph

/-- The end of a link, at the entity that has another number. -/
def LinkEnd.renumber (f : Nat → Nat) (x : LinkEnd) : LinkEnd := { x with entity := f x.entity }

namespace Schema

variable {s s' : Schema} {l l' : Link} {side : Side} {f : Nat → Nat}

/-! ### Dependencies between entities with other numbers -/

theorem endAt_renumber (h₁ : l'.first = l.first.renumber f) (h₂ : l'.second = l.second.renumber f)
    (side : Side) : l'.endAt side = (l.endAt side).renumber f := by
  cases side with
  | first => exact h₁
  | second => exact h₂

/-- The rules for the owner of a key do not ask for the numbers of entities, but for their names. -/
theorem keyPlace_renumber (hname : ∀ i, s'.nameOf (f i) = s.nameOf i)
    (h₁ : l'.first = l.first.renumber f) (h₂ : l'.second = l.second.renumber f) (side : Side) :
    s'.keyPlace l' side = s.keyPlace l side := by
  have hbefore : ∀ x y : LinkEnd,
      s'.comesBefore (x.renumber f) (y.renumber f) = s.comesBefore x y := by
    intro x y
    rw [comesBefore, comesBefore, LinkEnd.renumber, LinkEnd.renumber, hname, hname]
  have howner : s'.ownerSide l' = s.ownerSide l := by
    rw [ownerSide, ownerSide, h₁, h₂, hbefore]
    rfl
  rw [keyPlace, keyPlace, endAt_renumber h₁ h₂, endAt_renumber h₁ h₂, howner]
  rfl

/-- How strongly an owner has to follow its target depends on whether they differ. -/
theorem strength?_renumber (hf : f.Injective) (h₁ : l'.first = l.first.renumber f)
    (h₂ : l'.second = l.second.renumber f) (side : Side) : l'.strength? side = l.strength? side := by
  have hloop : l'.isLoop = l.isLoop := by
    rw [Link.isLoop, Link.isLoop, h₁, h₂, Bool.eq_iff_iff, beq_iff_eq, beq_iff_eq]
    exact hf.eq_iff
  rw [Link.strength?, Link.strength?, hloop, endAt_renumber h₁ h₂, endAt_renumber h₁ h₂]
  rfl

/-- Entities with other numbers and the same names have the same dependencies. -/
theorem dependencyAt?_renumber (hf : f.Injective) (hname : ∀ i, s'.nameOf (f i) = s.nameOf i)
    (h₁ : l'.first = l.first.renumber f) (h₂ : l'.second = l.second.renumber f) (side : Side) :
    s'.dependencyAt? l' side = (s.dependencyAt? l side).map (Edge.renumber f) := by
  rw [dependencyAt?, dependencyAt?, keyPlace_renumber hname h₁ h₂, strength?_renumber hf h₁ h₂,
    endAt_renumber h₁ h₂, endAt_renumber h₁ h₂]
  split
  case h_1 => rw [Option.map_map]; rfl
  case h_2 => rfl

/-- A dependency depends on the names of the entities and on the ends of the link. -/
theorem dependencyAt?_congr (ht : s.tables = s'.tables) (hl : l.first = l'.first)
    (hl' : l.second = l'.second) : s.dependencyAt? l side = s'.dependencyAt? l' side := by
  have hid : Edge.renumber id = id := rfl
  rw [dependencyAt?_renumber (f := id) (s := s') Function.injective_id
    (fun i => by rw [nameOf, nameOf, ht]; rfl) hl hl', hid, Option.map_id, id]

/-- Schemas with the same dependencies between as many entities have the same order. -/
theorem outcome_order_congr (hsize : s.size = s'.size)
    (h : ∀ e, e ∈ s.dependencies ↔ e ∈ s'.dependencies) :
    s.order.outcome = s'.order.outcome := by
  have hids : s.ids = s'.ids := by rw [ids, ids, hsize]
  have hgraph : s.graph.strength? = s'.graph.strength? := funext fun p => funext fun c =>
    Graph.strength?_foldl_add_congr .rfl (fun k => h ⟨p, c, k⟩) rfl
  rw [outcome_order, outcome_order, hids, Graph.sort_congr hgraph]

end Schema

end EntityRelation
