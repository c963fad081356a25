import EntityRelation.Proofs.Module.Blocks
import EntityRelation.Proofs.Module.Reference

/-!
# Where the lines of a module come from

Two lines of a module may read the same and yet be written for two links, so what was written for a
link cannot be told from the lines alone. Here every line of the classes has its origin beside it:
the line of a key comes from the link of the key, the heading of a junction and the lines of its two
keys come from its link, and no other line comes from a link (`ModulePlan.traced`).

Without the origins these are the lines of the classes as they are written
(`ModulePlan.entries_traced`). What comes from some links are the lines of their keys and then those
of their junctions (`ModulePlan.comingFrom_traced`).
-/

namespace EntityRelation

/-- A line, and the number of the link that it comes from, if it comes from one. -/
structure TracedEntry where
  /-- The number of the link. -/
  origin : Option Nat
  /-- The line. -/
  entry : Entry
  deriving DecidableEq, Repr

namespace TracedEntry

/-- Lines that come from no link. -/
def unlinked (es : List Entry) : List TracedEntry := es.map (mk none)

/-- Lines that come from a link. -/
def linked (link : Nat) (es : List Entry) : List TracedEntry := es.map (mk (some link))

/-- The lines without their origins. -/
def entries (xs : List TracedEntry) : List Entry := xs.map (·.entry)

/-- The lines that come from links with some numbers. -/
def comingFrom (isOrigin : Nat → Bool) (xs : List TracedEntry) : List Entry :=
  entries (xs.filter fun x => x.origin.any isOrigin)

variable {isOrigin : Nat → Bool}

@[simp] theorem entries_append (xs ys : List TracedEntry) :
    entries (xs ++ ys) = entries xs ++ entries ys := List.map_append

@[simp] theorem entries_unlinked (es : List Entry) : entries (unlinked es) = es := by
  simp [entries, unlinked, Function.comp_def]

@[simp] theorem entries_linked (link : Nat) (es : List Entry) : entries (linked link es) = es := by
  simp [entries, linked, Function.comp_def]

theorem entries_flatMap {α : Type} (traced : α → List TracedEntry) (parts : List α) :
    entries (parts.flatMap traced) = parts.flatMap fun x => entries (traced x) := List.map_flatMap

@[simp] theorem comingFrom_append (xs ys : List TracedEntry) :
    comingFrom isOrigin (xs ++ ys) = comingFrom isOrigin xs ++ comingFrom isOrigin ys := by
  simp [comingFrom]

@[simp] theorem comingFrom_unlinked (es : List Entry) : comingFrom isOrigin (unlinked es) = [] := by
  simp [comingFrom, unlinked, entries]

theorem comingFrom_linked (link : Nat) (es : List Entry) :
    comingFrom isOrigin (linked link es) = if isOrigin link then es else [] := by
  rw [comingFrom, linked, List.filter_map, entries, List.map_map]
  by_cases h : isOrigin link = true
  · simp [h, Function.comp_def]
  · simp [h, Function.comp_def]

theorem comingFrom_flatMap {α : Type} (traced : α → List TracedEntry) (parts : List α) :
    comingFrom isOrigin (parts.flatMap traced) =
      parts.flatMap fun x => comingFrom isOrigin (traced x) := by
  rw [comingFrom, List.filter_flatMap, entries_flatMap]
  rfl

/-- Of the parts of a text one alone has lines that come from the links, and these are `es`. -/
def OnlyIn {α : Type} (isOrigin : Nat → Bool) (traced : α → List TracedEntry) (parts : List α)
    (x : α) (es : List Entry) : Prop :=
  ∃ above below, parts = above ++ x :: below ∧ comingFrom isOrigin (traced x) = es ∧
    ∀ y ∈ above ++ below, comingFrom isOrigin (traced y) = []

/-- A part that has all the lines has them alone. -/
theorem onlyIn_of_mem {α : Type} {traced : α → List TracedEntry} {parts : List α} {x : α}
    {es : List Entry} (hall : comingFrom isOrigin (parts.flatMap traced) = es) (hx : x ∈ parts)
    (hes : comingFrom isOrigin (traced x) = es) : OnlyIn isOrigin traced parts x es := by
  obtain ⟨above, below, rfl⟩ := List.append_of_mem hx
  refine ⟨above, below, rfl, hes, ?_⟩
  rw [comingFrom_flatMap, List.flatMap_append, List.flatMap_cons, hes] at hall
  -- the lines of the other parts take no room
  have hlength := congrArg List.length hall
  rw [List.length_append, List.length_append] at hlength
  have hnil : ∀ zs : List α, (zs.flatMap fun y => comingFrom isOrigin (traced y)).length = 0 →
      ∀ y ∈ zs, comingFrom isOrigin (traced y) = [] := fun zs h =>
    List.flatMap_eq_nil_iff.1 (List.eq_nil_of_length_eq_zero h)
  intro y hy
  rcases List.mem_append.1 hy with hy | hy
  · exact hnil above (by omega) y hy
  · exact hnil below (by omega) y hy

end TracedEntry

open TracedEntry

/-! ### Classes -/

namespace ClassPlan

/-- The lines of the class of an entity. Those of its keys come from links. -/
def traced (s : Schema) (docStrings : Bool) (c : ClassPlan) : List TracedEntry :=
  unlinked (Outline.line (classHeading c.table.entity.name) ++ Outline.deeper
      ((if docStrings then docEntries c.table.entity.documentation else [])
        ++ columnEntries c.table))
    ++ c.keys.map (fun k => ⟨some k.link, k.entry s⟩)
    ++ unlinked (Outline.deeper ((if c.isBare docStrings then Outline.line "pass" else [])
      ++ tagEntries c.table.entity.tags) ++ Outline.blanks 2)

variable {isOrigin : Nat → Bool}

theorem deeper_keyEntries (s : Schema) (ks : List ForeignKey) :
    Outline.deeper (keyEntries s ks) = ks.map (·.entry s) := by
  rw [keyEntries, Outline.flatMap_line, Outline.deeper, List.map_map]
  rfl

theorem entries_traced (s : Schema) (docStrings : Bool) (c : ClassPlan) :
    entries (c.traced s docStrings) = c.outline s docStrings := by
  have hkeys : entries (c.keys.map fun k => ⟨some k.link, k.entry s⟩) =
      Outline.deeper (keyEntries s c.keys) := by
    rw [deeper_keyEntries, entries, List.map_map]
    rfl
  rw [traced, entries_append, entries_append, entries_unlinked, entries_unlinked, hkeys, outline,
    hasText_body]
  by_cases h : c.isBare docStrings = true
  · -- nothing stands in the class but the line that says so
    have hnil := body_eq_nil (s := s) h
    rw [body, List.append_eq_nil_iff, List.append_eq_nil_iff, List.append_eq_nil_iff] at hnil
    obtain ⟨⟨⟨hdocs, hcolumns⟩, hkeys⟩, htags⟩ := hnil
    rw [body_eq_nil h, hdocs, hcolumns, hkeys, htags]
    simp [h, Outline.block, Outline.deeper]
  · simp [h, Outline.block, body, Outline.deeper]

theorem comingFrom_traced (s : Schema) (docStrings : Bool) (c : ClassPlan) :
    comingFrom isOrigin (c.traced s docStrings) =
      (c.keys.filter (isOrigin ·.link)).map (·.entry s) := by
  rw [traced, comingFrom_append, comingFrom_append, comingFrom_unlinked, comingFrom_unlinked,
    List.nil_append, List.append_nil, comingFrom, List.filter_map, entries, List.map_map]
  rfl

/-- What comes from links in the classes of entities are the lines of their keys. -/
theorem comingFrom_classes (s : Schema) (docStrings : Bool) (cs : List ClassPlan) :
    comingFrom isOrigin (cs.flatMap (·.traced s docStrings)) =
      ((cs.flatMap (·.keys)).filter (isOrigin ·.link)).map (·.entry s) := by
  rw [comingFrom_flatMap, List.filter_flatMap, List.map_flatMap]
  simp only [comingFrom_traced]

end ClassPlan

/-! ### Junctions -/

namespace Junction

/-- The heading of the class of a junction, and the lines of its two keys. -/
def entries (s : Schema) (j : Junction) : List Entry :=
  [⟨0, classHeading j.name⟩, j.first.entry s, j.second.entry s]

/-- The lines of the class of a junction. All that have text come from its link. -/
def traced (s : Schema) (j : Junction) : List TracedEntry :=
  linked j.link (j.entries s) ++ unlinked (Outline.blanks 2)

variable {isOrigin : Nat → Bool}

theorem entries_traced (s : Schema) (j : Junction) :
    TracedEntry.entries (j.traced s) = j.outline s := by
  rw [traced, entries_append, entries_linked, entries_unlinked, outline_eq_entries]
  rfl

theorem comingFrom_traced (s : Schema) (j : Junction) :
    comingFrom isOrigin (j.traced s) = if isOrigin j.link then j.entries s else [] := by
  rw [traced, comingFrom_append, comingFrom_linked, comingFrom_unlinked, List.append_nil]

/-- What comes from links in the classes of junctions are the lines of their own junctions. -/
theorem comingFrom_junctions (s : Schema) (js : List Junction) :
    comingFrom isOrigin (js.flatMap (·.traced s)) =
      (js.filter (isOrigin ·.link)).flatMap (·.entries s) := by
  rw [comingFrom_flatMap]
  induction js with
  | nil => rfl
  | cons j js ih =>
    rw [List.flatMap_cons, ih, comingFrom_traced, List.filter_cons]
    split <;> rfl

end Junction

/-! ### Modules -/

namespace ModulePlan

variable {isOrigin : Nat → Bool}

/-- The lines of the classes of a module. -/
def traced (s : Schema) (docStrings : Bool) (m : ModulePlan) : List TracedEntry :=
  m.classes.flatMap (·.traced s docStrings) ++ m.junctions.flatMap (·.traced s)

/-- **Without their origins the lines are those that are written.** -/
theorem entries_traced (s : Schema) (docStrings : Bool) (m : ModulePlan) :
    entries (m.traced s docStrings) =
      m.classes.flatMap (·.outline s docStrings) ++ m.junctions.flatMap (·.outline s) := by
  rw [traced, entries_append, entries_flatMap, entries_flatMap]
  simp only [ClassPlan.entries_traced, Junction.entries_traced]

/-- **What comes from some links** are the lines of their keys, and then those of their
junctions. -/
theorem comingFrom_traced (s : Schema) (docStrings : Bool) (m : ModulePlan) :
    comingFrom isOrigin (m.traced s docStrings) =
      ((m.classes.flatMap (·.keys)).filter (isOrigin ·.link)).map (·.entry s)
        ++ (m.junctions.filter (isOrigin ·.link)).flatMap (·.entries s) := by
  rw [traced, comingFrom_append, ClassPlan.comingFrom_classes, Junction.comingFrom_junctions]

end ModulePlan

end EntityRelation
