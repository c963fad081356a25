import EntityRelation.Proofs.Compile.Outcome

/-!
# What a relationship without a name is called

A failure calls a relationship without a name by a number. When a diagram is checked, this is the
place of the relationship in the diagram. When a package is compiled, it is the place among the
relationships between the entities of the package, in the order in which these are met. The two
numbers differ by the relationships that are passed over, because they leave the package or are met
later, and by those that are moved ahead, because they touch an earlier entity
(`number_add_length_passedOver`).

**`unknown_cardinality_blames`**: a package that fails at an unknown cardinality calls the first
such relationship between its entities by the second number, which is the one that the diagram knows
it by exactly if as many relationships are passed over as are moved ahead. In other cases the number
leads to another relationship of the diagram, which may be sound (`blames_sound_relationship`).
-/

namespace EntityRelation

/-- The relationship by a number and the entities at its ends. -/
def Relationship.numberedLabel (r : Relationship) (number : Nat) : String :=
  s!"relationship #{number} ({r.first.reference} - {r.second.reference})"

namespace Relationship

variable {r : Relationship}

/-- Different numbers make different labels. -/
theorem numberedLabel_inj {m n : Nat} : r.numberedLabel m = r.numberedLabel n ↔ m = n := by
  constructor
  · intro h
    unfold numberedLabel at h
    have hlist := congrArg String.toList h
    simp only [String.toList_append, List.append_assoc, List.append_cancel_left_eq,
      List.append_cancel_right_eq] at hlist
    have hdigits : Nat.toDigits 10 m = Nat.toDigits 10 n := by
      simpa only [Nat.toString_eq_repr, Nat.toList_repr] using hlist
    have hnumber := congrArg (fun ds => Nat.ofDigitChars 10 ds 0) hdigits
    simpa only [Nat.ofDigitChars_ten_toDigits] using hnumber
  · rintro rfl
    rfl

/-- When a diagram is checked, a relationship without a name is called by its place. -/
theorem label_of_name_eq_none (h : r.name = none) (place : Nat) :
    r.label place = r.numberedLabel (place + 1) := by
  rw [label, h]
  rfl

end Relationship

/-- When a package is resolved, a relationship whose name has no text is called by its number. -/
theorem Schema.labelOf_of_unnamed {r : Relationship} (h : r.name.filter Text.hasText = none)
    (id : Nat) : labelOf id r = r.numberedLabel (id + 1) := by
  rw [labelOf, h]
  rfl

/-! ### Numbers and places -/

namespace Catalog

instance (entities : List Entity) : DecidableRel (ComesFirst entities) :=
  fun _ _ => inferInstanceAs (Decidable (_ ∨ _))

/-- The relationship is met before another one: it runs between the entities and comes first. -/
def isMetBefore (entities : List Entity) (x y : Relationship × Nat) : Bool :=
  inside (entities.map (·.name)) y.1 && ComesFirst entities y x

/-- The relationships that stand before one in the diagram and are not met before it. -/
def passedOver (c : Catalog) (entities : List Entity) (x : Relationship × Nat) :
    List (Relationship × Nat) :=
  c.numbered.filter fun y => !isMetBefore entities x y && y.2 < x.2

/-- The relationships that stand behind one in the diagram and are met before it. -/
def movedAhead (c : Catalog) (entities : List Entity) (x : Relationship × Nat) :
    List (Relationship × Nat) :=
  c.numbered.filter fun y => isMetBefore entities x y && x.2 < y.2

variable {c : Catalog} {entities : List Entity} {r : Relationship} {n i : Nat}

/-- As many relationships are met before one as its number says. -/
theorem length_filter_isMetBefore (h : (c.between entities)[n]? = some (r, i)) :
    (c.numbered.filter (isMetBefore entities (r, i))).length = n := by
  have hplace := length_filter_of_pairwise (fun _ _ hab => hab.asymm)
    (c.pairwise_between entities) h
  have hperm := (c.between_perm entities).filter fun y => ComesFirst entities y (r, i)
  rw [hperm.length_eq, List.filter_filter] at hplace
  rw [← hplace]
  exact congrArg _ (List.filter_congr fun y _ => Bool.and_comm _ _)

/-- As many relationships stand before one in the diagram as its place says. -/
theorem length_filter_place (h : (r, i) ∈ c.numbered) :
    (c.numbered.filter fun y => y.2 < i).length = i := by
  have hplaces : c.numbered.Pairwise fun a b => a.2 < b.2 := by
    rw [← List.pairwise_map (f := Prod.snd) (R := (· < ·)), numbered, List.zipIdx_map_snd]
    exact List.pairwise_lt_range'
  have hi : c.numbered[i]? = some (r, i) := by
    rw [numbered, List.getElem?_zipIdx, mem_numbered_iff.1 h, Nat.zero_add]
    rfl
  exact length_filter_of_pairwise (fun _ _ hab => Nat.lt_asymm hab) hplaces hi

/-- A list has two parts, with a property and without it. -/
theorem length_filter_and (p q : Relationship × Nat → Bool) (xs : List (Relationship × Nat)) :
    (xs.filter q).length =
      (xs.filter fun y => p y && q y).length + (xs.filter fun y => !p y && q y).length := by
  rw [List.length_eq_length_filter_add p, List.filter_filter, List.filter_filter]

/-- **The number of a relationship** and its place in the diagram differ by the relationships that
are passed over and by those that are moved ahead. -/
theorem number_add_length_passedOver (h : (c.between entities)[n]? = some (r, i)) :
    n + (c.passedOver entities (r, i)).length = i + (c.movedAhead entities (r, i)).length := by
  have hmem : (r, i) ∈ c.numbered :=
    mem_numbered_iff.2 (mem_between_iff.1 (List.mem_of_getElem? h)).1
  -- those before it in the diagram, and those met before it, both by what else is true of them
  have hplace := length_filter_place hmem
  rw [length_filter_and (isMetBefore entities (r, i))] at hplace
  have hnumber := length_filter_isMetBefore h
  rw [length_filter_and (fun y => y.2 < i)] at hnumber
  have hboth : (c.numbered.filter fun y => decide (y.2 < i) && isMetBefore entities (r, i) y) =
      c.numbered.filter fun y => isMetBefore entities (r, i) y && decide (y.2 < i) :=
    List.filter_congr fun y _ => Bool.and_comm _ _
  have hahead : (c.numbered.filter fun y => !decide (y.2 < i) && isMetBefore entities (r, i) y) =
      c.movedAhead entities (r, i) := by
    refine List.filter_congr fun y hy => ?_
    cases hm : isMetBefore entities (r, i) y with
    | false => simp
    | true =>
      -- no other relationship stands at its place, and it does not come before itself
      have hne : y.2 ≠ i := by
        intro hyi
        have hself : y = (r, i) := List.inj_on_of_nodup_map c.nodup_numbered hy hmem hyi
        rw [hself] at hm
        have hcomes : ComesFirst entities (r, i) (r, i) :=
          decide_eq_true_iff.1 (Bool.and_eq_true_iff.1 hm).2
        exact hcomes.asymm hcomes
      rw [Bool.and_true, Bool.true_and, ← decide_not]
      exact decide_eq_decide.2 ⟨fun _ => by omega, fun _ => by omega⟩
  rw [hboth, hahead] at hnumber
  show n + (c.numbered.filter fun y => !isMetBefore entities (r, i) y && decide (y.2 < i)).length =
    _
  omega

end Catalog

/-! ### Labels of failures -/

/-- What a label says of the relationship that stands at place `i` of the diagram and has the number
`n` among those between some entities. -/
structure Blames (c : Catalog) (entities : List Entity) (label : String) (r : Relationship)
    (n i : Nat) : Prop where
  /-- The relationship stands at its place of the diagram. -/
  at_place : c.diagram.relationships[i]? = some r
  /-- It has its number. -/
  at_number : (c.between entities)[n]? = some (r, i)
  /-- It is the first one between the entities with an unknown cardinality. -/
  isFirst : IsFirst Schema.IllMarked ((c.between entities).map (·.1)) n r
  /-- If its name has no text, it is called by its number, counted from one. -/
  unnamed : r.name.filter Text.hasText = none → label = r.numberedLabel (n + 1)
  /-- How far the number and the place are apart. -/
  shift : n + (c.passedOver entities (r, i)).length = i + (c.movedAhead entities (r, i)).length
  /-- If it has no name, it is called as when the diagram is checked exactly if as many
  relationships are passed over as are moved ahead. -/
  agrees_iff : r.name = none → (label = r.label i ↔
    (c.passedOver entities (r, i)).length = (c.movedAhead entities (r, i)).length)

variable {d : Diagram} {c : Catalog} {package : String} {opts : Options} {label marker : String}

/-- The label of a relationship that has a number says this. -/
theorem blames_labelOf {entities : List Entity} {r : Relationship} {n : Nat}
    (h : IsFirst Schema.IllMarked ((c.between entities).map (·.1)) n r) :
    ∃ i, Blames c entities (Schema.labelOf n r) r n i := by
  have hn := h.at_place
  rw [List.getElem?_map, Option.map_eq_some_iff] at hn
  obtain ⟨⟨r', i⟩, hn, hr⟩ := hn
  obtain rfl : r = r' := hr.symm
  have hshift := Catalog.number_add_length_passedOver hn
  refine ⟨i, (Catalog.mem_between_iff.1 (List.mem_of_getElem? hn)).1, hn, h,
    fun hu => Schema.labelOf_of_unnamed hu n, hshift, fun hname => ?_⟩
  have hunnamed : r.name.filter Text.hasText = none := by rw [hname]; rfl
  rw [Schema.labelOf_of_unnamed hunnamed, Relationship.label_of_name_eq_none hname,
    Relationship.numberedLabel_inj]
  omega

/-- **What is blamed for an unknown cardinality**: a package of a checked diagram that fails at an
unknown cardinality blames the first relationship between its entities that has one. -/
theorem unknown_cardinality_blames (hc : Catalog.ofDiagram d = .ok c)
    (h : (compile c package opts).outcome = .error (.flawed label (.unknownCardinality marker))) :
    ∃ k p n r i, IsFirst (·.name = package) c.packages k p ∧ Blames c p.entities label r n i := by
  have hf := (compile_eq_error_iff_fails hc).1 h
  generalize hfailure : Failure.flawed label (.unknownCardinality marker) = f at hf
  cases hf with
  | options invalid =>
    subst hfailure
    rcases Options.validate_eq_error invalid with ⟨name, hname⟩ | hindent
    · cases hname
    · cases hindent
  | package => cases hfailure
  | column => cases hfailure
  | cardinality valid found typed relationship unmarked =>
    cases hfailure
    obtain ⟨i, hi⟩ := blames_labelOf relationship
    exact ⟨_, _, _, _, i, found, hi⟩

/-- Two packages, and two relationships with the same ends behind one of the other package. The
second of the two has an unknown cardinality. -/
def Diagram.detoured : Diagram where
  packages := [{ name := "p", entities := [{ name := "A" }, { name := "B" }] },
    { name := "q", entities := [{ name := "C" }] }]
  relationships :=
    [{ first := { reference := "C", cardinality := "1" }
       second := { reference := "C", cardinality := "*" } },
     { first := { reference := "A", cardinality := "1" }
       second := { reference := "B", cardinality := "*" } },
     { first := { reference := "A", cardinality := "2" }
       second := { reference := "B", cardinality := "*" } }]

instance (e : End) : Decidable e.IsMarked := inferInstanceAs (Decidable (_ ∨ _))

instance (r : Relationship) : Decidable (Schema.IllMarked r) :=
  inferInstanceAs (Decidable (∃ e ∈ _, _))

/-- The detoured diagram fails at an unknown cardinality. -/
theorem unknown_cardinality_blames_in_detoured :
    Catalog.ofDiagram .detoured = .ok ⟨.detoured⟩ ∧
      (compile ⟨.detoured⟩ "p" .complete).outcome =
        .error (.flawed "relationship #2 (A - B)" (.unknownCardinality "2")) ∧
      ∃ k p n r i, IsFirst (·.name = "p") (Catalog.packages ⟨.detoured⟩) k p ∧
        Blames ⟨.detoured⟩ p.entities "relationship #2 (A - B)" r n i := by
  have hc : Catalog.ofDiagram .detoured = .ok ⟨.detoured⟩ := rfl
  have h : (compile ⟨.detoured⟩ "p" .complete).outcome =
      .error (.flawed "relationship #2 (A - B)" (.unknownCardinality "2")) := by decide +kernel
  exact ⟨hc, h, unknown_cardinality_blames hc h⟩

/-- The second relationship of the detoured diagram is blamed, which is sound. The one with an
unknown cardinality is the third one, and it is called so when the diagram is checked. -/
theorem blames_sound_relationship :
    Catalog.ofDiagram .detoured = .ok ⟨.detoured⟩ ∧
      (compile ⟨.detoured⟩ "p" .complete).outcome =
        .error (.flawed "relationship #2 (A - B)" (.unknownCardinality "2")) ∧
      (∃ r, Diagram.detoured.relationships[1]? = some r ∧ r.name = none ∧ ¬ Schema.IllMarked r ∧
        r.label 1 = "relationship #2 (A - B)") ∧
      ∃ r, Diagram.detoured.relationships[2]? = some r ∧ r.name = none ∧ Schema.IllMarked r ∧
        r.label 2 = "relationship #3 (A - B)" :=
  ⟨rfl, by decide +kernel, ⟨_, rfl, rfl, by decide, by decide⟩, _, rfl, rfl, by decide, by decide⟩

end EntityRelation
