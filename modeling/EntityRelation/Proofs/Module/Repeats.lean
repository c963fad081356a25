import EntityRelation.Proofs.Compile.Stages
import EntityRelation.Proofs.Module.Fields
import EntityRelation.Proofs.Module.Reference
import Mathlib.Data.List.Dedup
import Mathlib.Data.List.Perm.Basic

/-!
# Names that repeat in a class

A field hides every field above it that has the same name, so the writing of a class reports each
field whose name has been there. The columns and the keys are gone through by two loops that share
the names seen so far. `repeatsAfter` says what they report together, and what it leaves out are the
first fields of each name (`length_repeatsAfter`).

**`TableModule.repeats_reported_exactly`**: in every order of the entities of a schema, each class
reports as many fields as it has lines for fields less the number of their names, each of them below
a field with its name in the same class. So if nothing is reported for a class, all its fields can be
told apart.
-/

namespace EntityRelation

/-! ### Repeats in a list -/

section Repeats

variable {α : Type} [DecidableEq α] {seen xs ys : List α}

/-- Every member that stands in `seen` or above itself. -/
def repeatsAfter (seen : List α) : List α → List α
  | [] => []
  | x :: xs => (if x ∈ seen then [x] else []) ++ repeatsAfter (x :: seen) xs

theorem repeatsAfter_congr {seen' : List α} (h : ∀ x, x ∈ seen ↔ x ∈ seen') (xs : List α) :
    repeatsAfter seen xs = repeatsAfter seen' xs := by
  induction xs generalizing seen seen' with
  | nil => rfl
  | cons x xs ih =>
    have hx : ∀ y, y ∈ x :: seen ↔ y ∈ x :: seen' := fun y => by
      rw [List.mem_cons, List.mem_cons, h]
    simp only [repeatsAfter, h, ih hx]

theorem repeatsAfter_append (seen xs ys : List α) :
    repeatsAfter seen (xs ++ ys) = repeatsAfter seen xs ++ repeatsAfter (xs ++ seen) ys := by
  induction xs generalizing seen with
  | nil => rfl
  | cons x xs ih =>
    have hseen : ∀ y, y ∈ xs ++ x :: seen ↔ y ∈ x :: xs ++ seen := fun y =>
      List.perm_middle.mem_iff
    rw [List.cons_append, repeatsAfter, repeatsAfter, ih, repeatsAfter_congr hseen,
      List.append_assoc]

theorem mem_repeatsAfter_iff {y : α} : y ∈ repeatsAfter seen xs ↔
    ∃ above below, xs = above ++ y :: below ∧ (y ∈ seen ∨ y ∈ above) := by
  induction xs generalizing seen with
  | nil => simp [repeatsAfter]
  | cons x xs ih =>
    rw [repeatsAfter, List.mem_append, ih]
    constructor
    · rintro (hy | ⟨above, below, rfl, hy⟩)
      · split at hy
        case isTrue hx =>
          obtain rfl := List.mem_singleton.1 hy
          exact ⟨[], xs, rfl, .inl hx⟩
        case isFalse => exact absurd hy List.not_mem_nil
      · refine ⟨x :: above, below, rfl, ?_⟩
        rwa [List.mem_cons, or_assoc, or_left_comm, ← List.mem_cons] at hy
    · rintro ⟨above, below, hxs, hy⟩
      cases above with
      | nil =>
        obtain ⟨rfl, rfl⟩ := List.cons.inj hxs
        left
        rw [if_pos (hy.resolve_right List.not_mem_nil)]
        exact List.mem_singleton_self x
      | cons a above =>
        obtain ⟨rfl, rfl⟩ := List.cons.inj hxs
        refine .inr ⟨above, below, rfl, ?_⟩
        rwa [List.mem_cons, or_assoc, or_left_comm, ← List.mem_cons]

/-- The members that do not repeat are as many as there are different ones. -/
theorem length_repeatsAfter (seen xs : List α) :
    (repeatsAfter seen xs).length + (seen ++ xs).dedup.length =
      seen.dedup.length + xs.length := by
  induction xs generalizing seen with
  | nil => simp [repeatsAfter]
  | cons x xs ih =>
    have hmiddle : (seen ++ x :: xs).dedup.length = (x :: seen ++ xs).dedup.length :=
      (List.perm_middle.dedup).length_eq
    have hrest := ih (x :: seen)
    rw [repeatsAfter, hmiddle, List.length_append, List.length_cons]
    by_cases hx : x ∈ seen
    · rw [List.dedup_cons_of_mem hx] at hrest
      rw [if_pos hx, List.length_singleton]
      omega
    · rw [List.dedup_cons_of_notMem hx, List.length_cons] at hrest
      rw [if_neg hx, List.length_nil]
      omega

theorem repeatsAfter_eq_nil_iff : repeatsAfter [] xs = [] ↔ xs.Nodup := by
  have hlen := length_repeatsAfter [] xs
  rw [List.nil_append, List.dedup_nil, List.length_nil] at hlen
  rw [← List.length_eq_zero_iff, ← List.dedup_eq_self]
  constructor
  · intro h
    exact (List.dedup_sublist xs).eq_of_length (by omega)
  · intro h
    rw [h] at hlen
    omega

end Repeats

/-! ### What a class reports -/

/-- The event says that the name of a field repeats. -/
def Event.isRepeat : Event → Bool
  | fieldRepeated .. => true
  | _ => false

namespace ClassPlan

variable {s : Schema} {c : ClassPlan}

/-- The names of the fields of a class. -/
def fieldNames (s : Schema) (c : ClassPlan) : List String := (c.fields s).map (·.name)

theorem fieldNames_eq (s : Schema) (c : ClassPlan) : c.fieldNames s =
    c.table.columns.map (·.column.name) ++ c.keys.map (·.fieldName) := by
  rw [fieldNames, fields, List.map_append, List.map_map, List.map_map]
  rfl

theorem repeatEvents_eq (entity : String) (seen : List String) (field : String) :
    repeatEvents entity seen field =
      (if field ∈ seen then [field] else []).map (Event.fieldRepeated entity) := by
  unfold repeatEvents
  by_cases h : field ∈ seen
  · simp [h]
  · simp [h]

/-- The columns report the repeats among their names. -/
theorem columnEvents_eq (entity : String) (seen : List String) (xs : List TypedColumn) :
    columnEvents entity seen xs =
      (repeatsAfter seen (xs.map (·.column.name))).map (Event.fieldRepeated entity) := by
  induction xs generalizing seen with
  | nil => rfl
  | cons x xs ih =>
    rw [columnEvents, repeatEvents_eq, ih, List.map_cons, repeatsAfter, List.map_append]

theorem filter_keyEvents (s : Schema) (entity : String) (seen : List String) (k : ForeignKey) :
    (keyEvents s entity seen k).filter Event.isRepeat =
      (if k.fieldName ∈ seen then [k.fieldName] else []).map (Event.fieldRepeated entity) := by
  have hahead : (if k.reach = .ahead then [Event.referenceAhead entity (s.nameOf k.target)]
      else []).filter Event.isRepeat = [] := by
    split <;> rfl
  rw [keyEvents, List.filter_append, hahead, List.nil_append, repeatEvents_eq]
  split <;> rfl

/-- The ends report the repeats among the names of their keys. -/
theorem filter_visitEvents (s : Schema) (entity : String) (seen : List String)
    (vs : List Visit) :
    (visitEvents s entity seen vs).filter Event.isRepeat =
      (repeatsAfter seen ((vs.filterMap Visit.key?).map (·.fieldName))).map
        (Event.fieldRepeated entity) := by
  induction vs generalizing seen with
  | nil => rfl
  | cons v vs ih =>
    have hsettled : (s.settledEvent v.link v.side v.outcome).isRepeat = false := rfl
    rw [visitEvents, List.filter_cons_of_neg (by rw [hsettled]; exact Bool.false_ne_true)]
    cases hk : v.key? with
    | none => rw [List.filterMap_cons_none hk, ih]
    | some k =>
      rw [List.filterMap_cons_some hk, List.map_cons, repeatsAfter, List.map_append, ← ih,
        ← filter_keyEvents s, List.filter_append]

/-- A class reports the repeats among the names of its fields, in their order. -/
theorem filter_events (s : Schema) (c : ClassPlan) : (c.events s).filter Event.isRepeat =
    (repeatsAfter [] (c.fieldNames s)).map (Event.fieldRepeated c.table.entity.name) := by
  have hcolumns : ∀ xs : List String,
      (xs.map (Event.fieldRepeated c.table.entity.name)).filter Event.isRepeat =
        xs.map (Event.fieldRepeated c.table.entity.name) := by
    intro xs
    refine List.filter_eq_self.2 fun e he => ?_
    obtain ⟨x, -, rfl⟩ := List.mem_map.1 he
    rfl
  rw [events, List.filter_append, columnEvents_eq, hcolumns, filter_visitEvents, fieldNames_eq,
    repeatsAfter_append, List.append_nil, List.map_append]
  rfl

/-- What the class of an entity reports of names that repeat in it. -/
structure ReportsRepeats (s : Schema) (c : ClassPlan) : Prop where
  /-- The lines of the fields stand together in the class. -/
  lines : ∀ docStrings, ∃ above below,
    c.outline s docStrings = above ++ (c.fields s).map Field.entry ++ below
  /-- There are as many reports as lines for fields, less the number of different names. -/
  count : ((c.events s).filter Event.isRepeat).length + (c.fieldNames s).dedup.length =
    (c.fieldNames s).length
  /-- A report names the entity and a field, below another one with its name. -/
  bound : ∀ e ∈ c.events s, e.isRepeat = true → ∃ above name below,
    e = .fieldRepeated c.table.entity.name name ∧
      c.fieldNames s = above ++ name :: below ∧ name ∈ above
  /-- Every field below another one with its name is reported, in the order of the lines. -/
  inOrder : (c.events s).filter Event.isRepeat =
    (repeatsAfter [] (c.fieldNames s)).map (Event.fieldRepeated c.table.entity.name)
  /-- Nothing is reported exactly if every field has a name of its own. -/
  silent : (∀ e ∈ c.events s, e.isRepeat = false) ↔ (c.fieldNames s).Nodup

theorem reportsRepeats (s : Schema) (c : ClassPlan) : c.ReportsRepeats s where
  lines := c.exists_outline_eq s
  count := by
    have hlen := length_repeatsAfter [] (c.fieldNames s)
    rw [List.nil_append, List.dedup_nil, List.length_nil, Nat.zero_add] at hlen
    rw [filter_events, List.length_map, hlen]
  bound e he hrepeat := by
    have hm : e ∈ (c.events s).filter Event.isRepeat := List.mem_filter.2 ⟨he, hrepeat⟩
    rw [filter_events] at hm
    obtain ⟨name, hname, rfl⟩ := List.mem_map.1 hm
    obtain ⟨above, below, hnames, habove⟩ := mem_repeatsAfter_iff.1 hname
    exact ⟨above, name, below, rfl, hnames, habove.resolve_left List.not_mem_nil⟩
  inOrder := filter_events s c
  silent := by
    rw [← repeatsAfter_eq_nil_iff, ← List.map_eq_nil_iff, ← filter_events,
      List.filter_eq_nil_iff]
    simp only [Bool.not_eq_true]

end ClassPlan

/-! ### What a module reports -/

/-- What the writing of a module reports of names that repeat in classes. -/
structure TableModule.RepeatsReported (opts : Options) (s : Schema) (order : List Nat) : Prop where
  /-- The module has the classes of the plan. -/
  written : ∃ file handle, (write opts s order).outcome = .ok ⟨opts.outputFile,
    Outline.lines opts.indentUnit (preamble file handle ++
      ((s.plan order).classes.flatMap (·.outline s opts.docStrings) ++
        (s.plan order).junctions.flatMap (·.outline s)))⟩
  /-- What is reported are the events of the classes, and at the end that it was written. -/
  events : ∃ junctions lines, (write opts s order).events =
    (s.plan order).classes.flatMap (·.events s) ++ [.moduleWritten order.length junctions lines]
  /-- There is one class for every time that an entity is in the order, and it reports its own
  repeats. -/
  classes : List.Forall₂ (fun id c => c.Declares s id ∧ c.ReportsRepeats s) order
    (s.plan order).classes

/-- **Repeated names are reported exactly**: when the module of a schema that was built is written,
in any order of its entities with repeats and omissions, every class reports the fields whose names
have been there in the class, and nothing else of the kind is reported. -/
theorem TableModule.repeats_reported_exactly {es : List Entity} {rs : List Relationship}
    {s : Schema} (hs : (Schema.build es rs).outcome = .ok s) {order : List Nat}
    (horder : ∀ id ∈ order, id < s.size) {opts : Options} {file handle : String}
    (hfile : opts.requireFile = .ok file) (hhandle : opts.requireHandle = .ok handle) :
    RepeatsReported opts s order := by
  have hr := Schema.resolves_of_build hs
  constructor
  case written => exact ⟨file, handle, outcome_write_of_resolves hr hfile hhandle order⟩
  case events => exact ⟨_, _, events_write_of_resolves hr hfile hhandle order⟩
  case classes =>
    refine (Schema.forall₂_planClasses {} horder).imp ?_
    rintro id _ ⟨t, q, ht, rfl⟩
    exact ⟨ht, ClassPlan.reportsRepeats s _⟩

/-- Users with two columns of one name, and messages with a column and two keys of one name. -/
def Diagram.messaging : Diagram where
  packages := [{ name := "p", entities :=
    [{ name := "User"
       columns := [{ name := "id", type := "INTEGER" }, { name := "id", type := "TEXT" }] },
     { name := "Message", columns := [{ name := "user", type := "TEXT" }] }] }]
  relationships :=
    [{ first := { reference := "Message", cardinality := "*" }
       second := { reference := "User", cardinality := "1" } },
     { first := { reference := "User", cardinality := "1" }
       second := { reference := "Message", cardinality := "*" } }]

/-- The class of a user reports one field each time that it is written, and that of a message two. -/
theorem TableModule.repeats_reported_of_messaging :
    ∃ s, (Schema.build Diagram.messaging.entities Diagram.messaging.relationships).outcome = .ok s ∧
      (∀ id ∈ [0, 1, 0], id < s.size) ∧ RepeatsReported .complete s [0, 1, 0] ∧
      (s.plan [0, 1, 0]).classes.map (fun c => (c.events s).filter Event.isRepeat) =
        [[.fieldRepeated "User" "id"],
          [.fieldRepeated "Message" "user", .fieldRepeated "Message" "user"],
          [.fieldRepeated "User" "id"]] := by
  have h : ∀ s, (Schema.build Diagram.messaging.entities
      Diagram.messaging.relationships).outcome = .ok s → (∀ id ∈ [0, 1, 0], id < s.size) →
      RepeatsReported .complete s [0, 1, 0] :=
    fun s hs horder => repeats_reported_exactly hs horder rfl rfl
  exact ⟨_, rfl, by decide, h _ rfl (by decide), by decide +kernel⟩

end EntityRelation
