import EntityRelation.Proofs.Compile.ClassNames
import EntityRelation.Proofs.Schema.Building

/-!
# Which keys a junction keeps

The class of a junction assigns a key for each end of its link, the first end before the second one,
and a name that is assigned twice stands for what it was given last (`lastGiven`). The name of a key
is the name of the entity at its end in lower case. What the end is called does not count, and the
two names are not compared. So the class keeps the key for the second end, and **it keeps both keys
exactly if the names of the two entities differ in lower case** (`junction_keeps_both_iff`); for names
of ASCII characters this means that they differ in more than letter case. The class for a relationship
from an entity to itself has one key, even if the ends are named (`junction_drops_follower`).
-/

namespace EntityRelation

/-! ### Lower case of ASCII texts -/

namespace Text

/-- All characters of a text are ASCII characters. -/
def IsAscii (s : String) : Prop := ∀ c ∈ s.toList, c.toNat < 0x80

/-- ASCII characters go to lower case one by one, whatever stands around them. -/
theorem lowerAfter_of_ascii (before : List Char) {cs : List Char} (h : ∀ c ∈ cs, c.toNat < 0x80) :
    lowerAfter before cs = cs.map Char.toLower := by
  induction cs generalizing before with
  | nil => rfl
  | cons c rest ih =>
    have hc : c.toNat < 0x80 := h c List.mem_cons_self
    have hsigma : c ≠ 'Σ' := by
      rintro rfl
      exact absurd hc (by decide)
    rw [lowerAfter, if_neg hsigma, lowerChar, if_pos hc,
      ih (c :: before) fun x hx => h x (List.mem_cons_of_mem c hx)]
    rfl

/-- ASCII texts are the same in lower case exactly if their characters are. -/
theorem lower_eq_lower_iff_of_ascii {s t : String} (hs : IsAscii s) (ht : IsAscii t) :
    lower s = lower t ↔ s.toList.map Char.toLower = t.toList.map Char.toLower := by
  rw [lower, lower, lowerAfter_of_ascii [] hs, lowerAfter_of_ascii [] ht, String.ofList_inj]

end Text

/-! ### Assignments -/

/-- What a name stands for after some assignments, one after the other. -/
def lastGiven {α : Type} (name : String) (given : List (String × α)) : Option α :=
  given.foldl (fun found x => if x.1 = name then some x.2 else found) none

/-- The last assignment counts if it is to the name, and does not if it is to another one. -/
theorem lastGiven_concat {α : Type} (name : String) (given : List (String × α)) (x : String × α) :
    lastGiven name (given ++ [x]) = if x.1 = name then some x.2 else lastGiven name given := by
  rw [lastGiven, List.foldl_append]
  rfl

namespace Junction

/-- The key for the end at a side. -/
def fieldAt (j : Junction) : Side → JunctionField
  | .first => j.first
  | .second => j.second

/-- What the class of a junction assigns: a key for each end. -/
def assigned (j : Junction) : List (String × Side) :=
  [Side.first, Side.second].map fun side => ((j.fieldAt side).fieldName, side)

/-- The class of a junction keeps the key for the end at a side: the name of the key stands for it
when everything has been assigned. -/
def Keeps (j : Junction) (side : Side) : Prop :=
  lastGiven (j.fieldAt side).fieldName j.assigned = some side

instance (j : Junction) (side : Side) : Decidable (j.Keeps side) :=
  inferInstanceAs (Decidable (_ = _))

variable {j : Junction}

/-- What a name stands for in the class of a junction. -/
theorem lastGiven_assigned (j : Junction) (name : String) : lastGiven name j.assigned =
    if j.second.fieldName = name then some .second
    else if j.first.fieldName = name then some .first else none :=
  lastGiven_concat name [(j.first.fieldName, Side.first)] (j.second.fieldName, Side.second)

theorem keeps_second (j : Junction) : j.Keeps .second := by
  rw [Keeps, lastGiven_assigned]
  exact if_pos rfl

/-- The key for the first end is kept if the key for the second end has another name. -/
theorem keeps_first_iff : j.Keeps .first ↔ j.first.fieldName ≠ j.second.fieldName := by
  rw [Keeps, lastGiven_assigned]
  by_cases h : j.second.fieldName = j.first.fieldName
  · simp [fieldAt, h]
  · simp [fieldAt, h, Ne.symm h]

/-- Both keys are kept if their names differ. -/
theorem keeps_both_iff : (∀ side, j.Keeps side) ↔ j.first.fieldName ≠ j.second.fieldName := by
  rw [← keeps_first_iff]
  constructor
  · intro h
    exact h .first
  · intro h side
    cases side with
    | first => exact h
    | second => exact j.keeps_second

/-- The lines of the class of a junction are its heading and what it assigns. -/
theorem outline_eq_assigned (s : Schema) (j : Junction) :
    j.outline s = ⟨0, classHeading j.name⟩ ::
      (j.assigned.map fun x => ⟨1, assignment x.1 ((j.fieldAt x.2).call s).text⟩) ++
        Outline.blanks 2 := by
  rw [outline_eq_entries]
  rfl

end Junction

/-! ### Keys of a junction in the words of the diagram -/

/-- What a junction has for the ends of its relationship. -/
structure Junction.KeysFor (s : Schema) (r : Relationship) (j : Junction) : Prop where
  /-- A key refers to the entity at its end. -/
  target : ∀ side, s.nameOf (j.fieldAt side).entity = (r.endAt side).reference
  /-- A key has the name of this entity in lower case, whatever the end is called. -/
  fieldName : ∀ side, (j.fieldAt side).fieldName = Text.lower (r.endAt side).reference
  /-- The class has a line for each end. -/
  lines : j.outline s = ⟨0, classHeading j.name⟩ ::
    (j.assigned.map fun x => ⟨1, assignment x.1 ((j.fieldAt x.2).call s).text⟩) ++
      Outline.blanks 2
  /-- The class keeps the key for the second end. -/
  second : j.Keeps .second
  /-- It keeps both keys if the names of the entities differ in lower case. -/
  both : (∀ side, j.Keeps side) ↔ Text.lower r.first.reference ≠ Text.lower r.second.reference
  /-- For ASCII names this means that the names differ in more than letter case. -/
  ascii : Text.IsAscii r.first.reference → Text.IsAscii r.second.reference →
    ((∀ side, j.Keeps side) ↔
      r.first.reference.toList.map Char.toLower ≠ r.second.reference.toList.map Char.toLower)

namespace Schema

variable {es : List Entity} {rs : List Relationship} {s : Schema} {r : Relationship} {l : Link}
variable {n : Nat}

/-- What the junction of a link has for the ends of the relationship it comes from. -/
theorem Resolves.keysFor_ofLink (h : s.Resolves es rs) (hl : LinkOf s.idOf? n r l) :
    (Junction.ofLink s l).KeysFor s r := by
  have hname : ∀ side, s.nameOf (l.endAt side).entity = (r.endAt side).reference := fun side =>
    h.nameOf_entity (hl.endAt side)
  have hfirst : (Junction.ofLink s l).first.fieldName = Text.lower r.first.reference :=
    congrArg Text.lower (hname .first)
  have hsecond : (Junction.ofLink s l).second.fieldName = Text.lower r.second.reference :=
    congrArg Text.lower (hname .second)
  have hboth : (∀ side, (Junction.ofLink s l).Keeps side) ↔
      Text.lower r.first.reference ≠ Text.lower r.second.reference := by
    rw [Junction.keeps_both_iff, hfirst, hsecond]
  refine ⟨fun side => ?_, fun side => ?_, Junction.outline_eq_assigned s _,
    Junction.keeps_second _, hboth, fun hf hs => ?_⟩
  · rw [← hname side]
    cases side <;> rfl
  · cases side with
    | first => exact hfirst
    | second => exact hsecond
  · rw [hboth, ne_eq, Text.lower_eq_lower_iff_of_ascii hf hs]

/-- **When a junction keeps both its keys**: every relationship between two many ends of a schema
that is built has one junction in every module for the schema, and the class of the junction keeps
both keys exactly if the names of the two entities differ in lower case. -/
theorem junction_keeps_both_iff (hs : (build es rs).outcome = .ok s)
    (hr : (kept es rs)[n]? = some r) (hm : r.IsManyToMany) :
    ∃ l, s.links[n]? = some l ∧ LinkOf s.idOf? n r l ∧
      (∀ order : List Nat, order.Perm s.ids →
        (s.plan order).junctions.filter (·.link == l.id) = [Junction.ofLink s l]) ∧
      (Junction.ofLink s l).KeysFor s r := by
  have h : s.Resolves es rs := resolves_of_build hs
  rw [← filter_isInside_eq, ← idOf?_eq_numberIn h.tables] at hr
  obtain ⟨l, hl, hrl⟩ := h.exists_linkOf hr
  refine ⟨l, h.getElem?_links_iff.2 ⟨hl, hrl.id⟩, hrl, fun order ho => ?_, h.keysFor_ofLink hrl⟩
  rw [filter_junctions_plan h ho hl, if_pos (hrl.isManyToMany_iff.2 hm)]

end Schema

/-- Students attend courses. -/
def Relationship.attends : Relationship where
  first := { reference := "Student", cardinality := "0..*" }
  second := { reference := "Course", cardinality := "0..*" }

/-- The junction of students and courses keeps both keys. -/
theorem junction_keeps_student_and_course :
    ∃ s l, (Schema.build [{ name := "Student" }, { name := "Course" }] [.attends]).outcome = .ok s ∧
      s.links = [l] ∧ ∀ side, (Junction.ofLink s l).Keeps side := by
  obtain ⟨l, hl, -, -, hk⟩ := @Schema.junction_keeps_both_iff
    [{ name := "Student" }, { name := "Course" }] [.attends] _ .attends 0 rfl rfl (by decide +kernel)
  obtain rfl := Option.some.inj hl
  exact ⟨_, _, rfl, rfl, hk.both.2 (by decide +kernel)⟩

/-- Persons follow each other, and both ends are named. -/
def Relationship.follows : Relationship where
  first := { reference := "Person", cardinality := "0..*", name := some "follower" }
  second := { reference := "Person", cardinality := "0..*", name := some "followed" }

/-- Both keys of the junction are called after the person, and the one for the follower is lost. -/
theorem junction_drops_follower :
    ∃ s l, (Schema.build [{ name := "Person" }] [.follows]).outcome = .ok s ∧ s.links = [l] ∧
      l.IsManyToMany ∧ (s.plan [0]).junctions = [Junction.ofLink s l] ∧
      (Junction.ofLink s l).fields.map (·.fieldName) = ["person", "person"] ∧
      ¬ (Junction.ofLink s l).Keeps .first := by
  refine ⟨_, _, rfl, rfl, ?_, ?_, ?_, ?_⟩
  · decide +kernel
  · decide +kernel
  · decide +kernel
  · decide +kernel

end EntityRelation
