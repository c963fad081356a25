import EntityRelation.TableModule

/-!
# The blocks of a module

Below its preamble a module is a list of blocks, one for every class (`ModulePlan.blocks`,
`classEntries_eq`). A block has a heading, lines one level below it, two levels below it the lines of
a class for the tags, if there are some, and two empty lines at the end. A `Block` cannot be without
a line with text below its heading, which would not be a class. So the block of an entity has a line
that says so exactly if there is nothing to write: neither a column nor a key, no tag and no
documentation (`ClassPlan.block`, `ClassPlan.outline_eq`).
-/

namespace EntityRelation

/-! ### Headings -/

namespace Outline

/-- The lines with text that are not indented. -/
def headings (entries : List Entry) : List String :=
  (entries.filter fun e => e.level == 0 && !e.text.isEmpty).map (·.text)

@[simp] theorem headings_append (xs ys : List Entry) :
    headings (xs ++ ys) = headings xs ++ headings ys := by
  simp [headings]

@[simp] theorem headings_deeper (xs : List Entry) : headings (deeper xs) = [] := by
  simp [headings, deeper, Entry.deeper]

@[simp] theorem headings_blanks (n : Nat) : headings (blanks n) = [] := by
  simp [headings, blanks]

@[simp] theorem headings_block {heading : String} (h : heading ≠ "") (body : List Entry) :
    headings (block heading body) = [heading] := by
  rw [block, headings_append, headings_deeper]
  simp [headings, line, h]

/-- The headings of parts that have one heading each. -/
theorem headings_flatMap {α : Type} {f : α → List Entry} {g : α → String}
    (h : ∀ x, headings (f x) = [g x]) (xs : List α) : headings (xs.flatMap f) = xs.map g := by
  induction xs with
  | nil => rfl
  | cons x xs ih => rw [List.flatMap_cons, headings_append, h, ih]; rfl

end Outline

theorem classHeading_ne_empty (name : String) : classHeading name ≠ "" := by
  simp [classHeading]

/-! ### Blocks -/

/-- A class as it is laid out. -/
structure Block where
  /-- The first line. -/
  heading : String
  /-- The lines one level below the heading. -/
  lines : List String
  /-- The lines for the tags, in a class of their own. -/
  tags : List String
  /-- The first line has text. -/
  heading_ne_empty : heading ≠ ""
  /-- The lines for the tags have text. -/
  tags_ne_empty : ∀ x ∈ tags, x ≠ ""
  /-- Some line below the heading has text. -/
  hasContent : tags = [] → ∃ x ∈ lines, x ≠ ""

namespace Block

/-- The lines of the class for the tags. -/
def tagEntries (b : Block) : List Entry :=
  if b.tags = [] then [] else ⟨1, "class Meta:"⟩ :: b.tags.map (Entry.mk 2)

/-- What stands between the heading and the two empty lines. -/
def body (b : Block) : List Entry := b.lines.map (Entry.mk 1) ++ b.tagEntries

/-- The lines of a block. -/
def entries (b : Block) : List Entry := ⟨0, b.heading⟩ :: b.body ++ Outline.blanks 2

variable {b : Block} {e : Entry}

/-- What stands below the heading is one or two levels deep. -/
theorem level_of_mem_body (h : e ∈ b.body) : e.level = 1 ∨ e.level = 2 := by
  rcases List.mem_append.1 h with h | h
  · obtain ⟨x, -, rfl⟩ := List.mem_map.1 h
    exact .inl rfl
  · rw [tagEntries] at h
    split at h
    case isTrue => exact absurd h List.not_mem_nil
    case isFalse =>
      rcases List.mem_cons.1 h with rfl | h
      · exact .inl rfl
      · obtain ⟨x, -, rfl⟩ := List.mem_map.1 h
        exact .inr rfl

/-- What is two levels deep stands in the class for the tags. -/
theorem above_eq_of_level_two {above below : List Entry} (h : b.body = above ++ e :: below)
    (he : e.level = 2) : b.tags ≠ [] ∧
      ∃ rest, above = b.lines.map (Entry.mk 1) ++ ⟨1, "class Meta:"⟩ :: rest := by
  have hlines : e ∉ b.lines.map (Entry.mk 1) := fun hm => by
    obtain ⟨x, -, rfl⟩ := List.mem_map.1 hm
    cases he
  rw [body, tagEntries] at h
  split at h
  case isTrue =>
    refine absurd ?_ hlines
    rw [← List.append_nil (b.lines.map _), h]
    exact List.mem_append_right _ List.mem_cons_self
  case isFalse ht =>
    refine ⟨ht, ?_⟩
    rcases List.append_eq_append_iff.1 h with ⟨xs, rfl, hx⟩ | ⟨xs, hx, hy⟩
    · -- the entry comes after the lines, and it is not the heading of the class for the tags
      cases xs with
      | nil =>
        obtain ⟨rfl, -⟩ := List.cons.inj hx
        cases he
      | cons x xs =>
        obtain ⟨rfl, -⟩ := List.cons.inj hx
        exact ⟨xs, rfl⟩
    · cases xs with
      | nil =>
        obtain ⟨rfl, -⟩ := List.cons.inj hy
        cases he
      | cons x xs =>
        obtain ⟨rfl, -⟩ := List.cons.inj hy
        exact absurd (hx ▸ List.mem_append_right _ List.mem_cons_self) hlines

/-- Some line below the heading has text. -/
theorem exists_text_in_body (b : Block) : ∃ e ∈ b.body, e.text ≠ "" := by
  by_cases h : b.tags = []
  · obtain ⟨x, hx, hne⟩ := b.hasContent h
    exact ⟨⟨1, x⟩, List.mem_append_left _ (List.mem_map_of_mem hx), hne⟩
  · refine ⟨⟨1, "class Meta:"⟩, List.mem_append_right _ ?_, by decide⟩
    rw [tagEntries, if_neg h]
    exact List.mem_cons_self

/-- A block has one heading. -/
theorem headings_entries (b : Block) : Outline.headings b.entries = [b.heading] := by
  have hbody : Outline.headings b.body = [] := by
    refine List.map_eq_nil_iff.2 (List.filter_eq_nil_iff.2 fun e he => ?_)
    rcases level_of_mem_body he with hl | hl <;> simp [hl]
  have hhead : Outline.headings [⟨0, b.heading⟩] = [b.heading] := by
    simp [Outline.headings, b.heading_ne_empty]
  rw [entries, ← List.singleton_append, Outline.headings_append, Outline.headings_append, hhead,
    hbody, Outline.headings_blanks, List.append_nil, List.append_nil]

end Block

/-! ### Lines with text -/

theorem assignment_ne_empty (name value : String) : assignment name value ≠ "" := by
  simp [assignment]

/-- An assignment has blanks, so it is not a single word. -/
theorem assignment_ne_of_notMem_blank {word : String} (h : ' ' ∉ word.toList)
    (name value : String) : assignment name value ≠ word := by
  rintro rfl
  simp [assignment] at h

namespace Outline

@[simp] theorem hasText_append (xs ys : List Entry) :
    hasText (xs ++ ys) = (hasText xs || hasText ys) := List.any_append

/-- Lines that each have text have some. -/
theorem hasText_flatMap_line {α : Type} {f : α → String} (h : ∀ x, f x ≠ "") (xs : List α) :
    hasText (xs.flatMap fun x => line (f x)) = !xs.isEmpty := by
  cases xs with
  | nil => rfl
  | cons x xs => simp [hasText, line, h]

theorem flatMap_line {α : Type} (f : α → String) (xs : List α) :
    xs.flatMap (fun x => line (f x)) = xs.map fun x => ⟨0, f x⟩ := List.map_eq_flatMap.symm

/-- Lines that are not indented, one level deeper. -/
theorem deeper_eq {xs : List Entry} (h : ∀ e ∈ xs, e.level = 0) :
    deeper xs = (xs.map (·.text)).map (Entry.mk 1) := by
  rw [deeper, List.map_map]
  refine List.map_congr_left fun e he => ?_
  rw [Entry.deeper, h e he]
  rfl

end Outline

open Outline

namespace ClassPlan

/-- A documentation is written if it has text. -/
theorem hasText_docEntries (text : String) : hasText (docEntries text) = Text.hasText text := by
  unfold docEntries
  split
  case isTrue h =>
    split
    · simp [hasText, line, h]
    · simp [hasText, line, h]
  case isFalse h => simpa [hasText] using h

theorem level_docEntries {text : String} {e : Entry} (he : e ∈ docEntries text) : e.level = 0 := by
  have hline : ∀ {x : String}, e ∈ line x → e.level = 0 := fun h => by
    rw [List.mem_singleton.1 h]
  unfold docEntries at he
  split at he
  case isTrue =>
    split at he
    · exact hline he
    · rcases List.mem_append.1 he with he | he
      · rcases List.mem_append.1 he with he | he
        · exact hline he
        · obtain ⟨x, -, he⟩ := List.mem_flatMap.1 he
          exact hline he
      · exact hline he
  case isFalse => exact absurd he List.not_mem_nil

/-- A documentation that is written starts with quotes. -/
theorem text_of_docEntries_eq_cons {text : String} {e : Entry} {rest : List Entry}
    (h : docEntries text = e :: rest) : ∃ x, e.text = "\"\"\"" ++ x := by
  unfold docEntries at h
  split at h
  case isTrue =>
    split at h
    case h_1 line _ =>
      obtain ⟨rfl, -⟩ := List.cons.inj h
      exact ⟨line ++ "\"\"\"", String.append_assoc⟩
    case h_2 =>
      obtain ⟨rfl, -⟩ := List.cons.inj h
      exact ⟨"", rfl⟩
  case isFalse => cases h

/-- The lines of a class without those for the tags. -/
def fieldEntries (s : Schema) (docStrings : Bool) (c : ClassPlan) : List Entry :=
  (if docStrings then docEntries c.table.entity.documentation else []) ++ columnEntries c.table ++
    keyEntries s c.keys

/-- Nothing is to be written into a class. -/
def isBare (docStrings : Bool) (c : ClassPlan) : Bool :=
  c.table.columns.isEmpty && c.keys.isEmpty && c.table.entity.tags.isEmpty &&
    !(docStrings && Text.hasText c.table.entity.documentation)

/-- The lines for the tags, in a class of their own. -/
def tagLines (c : ClassPlan) : List String :=
  c.table.entity.tags.map fun t => assignment t.name t.value.expression

variable {s : Schema} {docStrings : Bool} {c : ClassPlan}

theorem body_eq (s : Schema) (docStrings : Bool) (c : ClassPlan) :
    c.body s docStrings = c.fieldEntries s docStrings ++ tagEntries c.table.entity.tags := rfl

/-- A class is its heading, then its body one level deeper, and then some more lines. -/
theorem exists_outline_eq_body (s : Schema) (docStrings : Bool) (c : ClassPlan) :
    ∃ rest, c.outline s docStrings =
      line (classHeading c.table.entity.name) ++ deeper (c.body s docStrings) ++ rest := by
  unfold outline Outline.block deeper
  by_cases h : hasText (c.body s docStrings) = true
  · exact ⟨blanks 2, by simp only [h, if_true]⟩
  · refine ⟨(line "pass").map Entry.deeper ++ blanks 2, ?_⟩
    simp only [h]
    rw [if_neg Bool.false_ne_true, List.map_append]
    simp only [List.append_assoc]

theorem level_fieldEntries {e : Entry} (he : e ∈ c.fieldEntries s docStrings) : e.level = 0 := by
  rw [fieldEntries, columnEntries, keyEntries, flatMap_line, flatMap_line] at he
  rcases List.mem_append.1 he with he | he
  · rcases List.mem_append.1 he with he | he
    · split at he
      case isTrue => exact level_docEntries he
      case isFalse => exact absurd he List.not_mem_nil
    · obtain ⟨x, -, rfl⟩ := List.mem_map.1 he
      rfl
  · obtain ⟨x, -, rfl⟩ := List.mem_map.1 he
    rfl

/-- Neither documentation nor columns and keys look like the line of an empty class. -/
theorem map_text_fieldEntries_ne (s : Schema) (docStrings : Bool) (c : ClassPlan) :
    (c.fieldEntries s docStrings).map (·.text) ≠ ["pass"] := by
  intro h
  rw [fieldEntries, columnEntries, keyEntries, flatMap_line, flatMap_line, List.append_assoc,
    List.map_append] at h
  cases hdoc : (if docStrings then docEntries c.table.entity.documentation else []) with
  | nil =>
    rw [hdoc, List.map_nil, List.nil_append] at h
    have hm : "pass" ∈ ["pass"] := List.mem_cons_self
    rw [← h, List.map_append, List.map_map, List.map_map, List.mem_append, List.mem_map,
      List.mem_map] at hm
    rcases hm with ⟨x, -, hx⟩ | ⟨x, -, hx⟩
    · exact assignment_ne_of_notMem_blank (by decide) _ _ hx
    · exact assignment_ne_of_notMem_blank (by decide) _ _ hx
  | cons e rest =>
    rw [hdoc] at h
    obtain ⟨he, -⟩ := List.cons.inj h
    split at hdoc
    case isTrue =>
      obtain ⟨x, hx⟩ := text_of_docEntries_eq_cons hdoc
      have hquotes := congrArg String.toList (hx.symm.trans he)
      simp at hquotes
    case isFalse => cases hdoc

/-- Something is written if there is documentation, a column or a key. -/
theorem hasText_fieldEntries (s : Schema) (docStrings : Bool) (c : ClassPlan) :
    hasText (c.fieldEntries s docStrings) = ((docStrings &&
      Text.hasText c.table.entity.documentation) || !c.table.columns.isEmpty ||
        !c.keys.isEmpty) := by
  have hdoc : hasText (if docStrings then docEntries c.table.entity.documentation else []) =
      (docStrings && Text.hasText c.table.entity.documentation) := by
    cases docStrings with
    | true => rw [if_pos rfl, hasText_docEntries, Bool.true_and]
    | false => rfl
  rw [fieldEntries, hasText_append, hasText_append, hdoc, columnEntries, keyEntries,
    hasText_flatMap_line fun x => assignment_ne_empty _ _,
    hasText_flatMap_line fun x => assignment_ne_empty _ _]

/-- The class for the tags, one level deeper. -/
theorem deeper_tagEntries (tags : List Tag) : deeper (tagEntries tags) =
    if tags = [] then [] else ⟨1, "class Meta:"⟩ ::
      (tags.map fun t => assignment t.name t.value.expression).map (Entry.mk 2) := by
  rw [tagEntries, flatMap_line]
  cases tags with
  | nil => rfl
  | cons t ts => simp [block, line, deeper, Entry.deeper]

/-- Something is written into a class exactly if it is not bare. -/
theorem hasText_body (s : Schema) (docStrings : Bool) (c : ClassPlan) :
    hasText (c.body s docStrings) = !c.isBare docStrings := by
  have htags : hasText (tagEntries c.table.entity.tags) = !c.table.entity.tags.isEmpty := by
    rw [tagEntries]
    cases c.table.entity.tags with
    | nil => rfl
    | cons t ts => rfl
  rw [body_eq, hasText_append, hasText_fieldEntries, htags, isBare]
  cases c.table.columns.isEmpty <;> cases c.keys.isEmpty <;> cases c.table.entity.tags.isEmpty <;>
    simp

theorem isBare_iff : c.isBare docStrings = true ↔ c.table.columns = [] ∧ c.keys = [] ∧
    c.table.entity.tags = [] ∧
      (docStrings = true → Text.hasText c.table.entity.documentation = false) := by
  cases docStrings <;> simp [isBare, and_assoc]

/-- The block of the class of an entity. -/
def block (s : Schema) (docStrings : Bool) (c : ClassPlan) : Block where
  heading := classHeading c.table.entity.name
  lines :=
    if c.isBare docStrings then ["pass"] else (c.fieldEntries s docStrings).map (·.text)
  tags := c.tagLines
  heading_ne_empty := classHeading_ne_empty _
  tags_ne_empty x hx := by
    obtain ⟨t, -, rfl⟩ := List.mem_map.1 hx
    exact assignment_ne_empty _ _
  hasContent ht := by
    split
    case isTrue => exact ⟨"pass", List.mem_cons_self, by decide⟩
    case isFalse hb =>
      have htags : c.table.entity.tags = [] := List.map_eq_nil_iff.1 ht
      have htext : hasText (c.fieldEntries s docStrings) = true := by
        have hbody := hasText_body s docStrings c
        rw [body_eq, htags, hasText_append, Bool.eq_false_iff.2 hb] at hbody
        simpa [tagEntries, hasText] using hbody
      obtain ⟨e, he, hne⟩ := List.any_eq_true.1 htext
      exact ⟨e.text, List.mem_map_of_mem he, by simpa using hne⟩

/-- Nothing stands in the body of a bare class. -/
theorem body_eq_nil (h : c.isBare docStrings = true) : c.body s docStrings = [] := by
  obtain ⟨hc, hk, ht, hd⟩ := isBare_iff.1 h
  have hdoc : (if docStrings then docEntries c.table.entity.documentation else []) = [] := by
    cases docStrings with
    | true => rw [if_pos rfl, docEntries, hd rfl]; rfl
    | false => rfl
  rw [body_eq, fieldEntries, hdoc, columnEntries, keyEntries, hc, hk, ht]
  rfl

/-- **The lines of the class of an entity are those of its block.** -/
theorem outline_eq (s : Schema) (docStrings : Bool) (c : ClassPlan) :
    c.outline s docStrings = (c.block s docStrings).entries := by
  have htext := hasText_body s docStrings c
  rw [outline]
  by_cases h : c.isBare docStrings = true
  · have htags : c.tagLines = [] := by rw [tagLines, (isBare_iff.1 h).2.2.1]; rfl
    rw [body_eq_nil h, Block.entries, Block.body, Block.tagEntries, block]
    simp only [h, if_true, htags]
    rfl
  · rw [Bool.eq_false_iff.2 h] at htext
    simp only [htext, Bool.not_false, if_true]
    rw [body_eq, Outline.block, deeper, List.map_append, ← deeper, ← deeper,
      deeper_eq fun e he => level_fieldEntries he, deeper_tagEntries, Block.entries, Block.body,
      Block.tagEntries, block]
    simp only [h, tagLines, List.map_eq_nil_iff]
    rfl

end ClassPlan

/-- The block of the class of a junction. -/
def Junction.block (s : Schema) (j : Junction) : Block where
  heading := classHeading j.name
  lines := j.fields.map fun f => assignment f.fieldName (f.call s).text
  tags := []
  heading_ne_empty := classHeading_ne_empty _
  tags_ne_empty _ hx := absurd hx List.not_mem_nil
  hasContent _ := ⟨_, List.mem_cons_self, assignment_ne_empty _ _⟩

theorem Junction.outline_eq (s : Schema) (j : Junction) : j.outline s = (j.block s).entries := by
  rw [outline, flatMap_line, Outline.block, deeper, List.map_map, Block.entries, Block.body,
    Block.tagEntries, Junction.block, List.map_map]
  rfl

/-- The blocks of a module. -/
def ModulePlan.blocks (s : Schema) (docStrings : Bool) (m : ModulePlan) : List Block :=
  m.classes.map (·.block s docStrings) ++ m.junctions.map (·.block s)

/-- **The lines of the classes of a module are those of its blocks.** -/
theorem TableModule.classEntries_eq (s : Schema) (docStrings : Bool) (m : ModulePlan) :
    classEntries s docStrings m = (m.blocks s docStrings).flatMap Block.entries := by
  rw [classEntries, ModulePlan.blocks, List.flatMap_append, List.flatMap_map, List.flatMap_map]
  simp only [ClassPlan.outline_eq, Junction.outline_eq]

/-- What stands unindented in the classes are the headings of the blocks. -/
theorem TableModule.headings_classEntries_eq (s : Schema) (docStrings : Bool) (m : ModulePlan) :
    headings (classEntries s docStrings m) = (m.blocks s docStrings).map (·.heading) := by
  rw [classEntries_eq, headings_flatMap Block.headings_entries]

end EntityRelation
