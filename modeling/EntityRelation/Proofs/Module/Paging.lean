import EntityRelation.Outline.Page
import EntityRelation.Proofs.Module.Blocks
import EntityRelation.Proofs.Module.Plan

/-!
# A module is written line by line

A module can be written on a page, one line after the other, with a level that goes up at every
heading and down again at the end of what stands below it. Whether a class needs a line that says
that it is empty is seen by looking back at what has been written since its heading. Written with
care, the level does not go down where there is no higher one (`Page.dedent?`), and the writing
stops if that is asked for.

It is never asked for. Every writer adds the lines of an outline to any page, as much deeper as the
page is, and leaves the level as it was (`Page.append`). **`TableModule.written_in_blocks`**: the
lines of a module are its preamble and its blocks (`InBlocks`), and the page of a module is at level
zero and has these lines after the preamble and after every block.
-/

namespace EntityRelation

namespace Page

/-! ### Lines of an outline -/

/-- The page with the lines of an outline, as much deeper as the page is. -/
def append (p : Page) (entries : List Entry) : Page :=
  { p with entries := p.entries ++ entries.map fun e => { e with level := p.level + e.level } }

/-- The next line is one level higher, if there is a higher one. -/
def dedent? (p : Page) : Option Page := if p.level = 0 then none else some p.dedent

/-- One line after the other, at the level. -/
def writeAll (p : Page) (texts : List String) : Page := texts.foldl write p

theorem append_nil (p : Page) : p.append [] = p := by
  rw [append, List.map_nil, List.append_nil]

@[simp] theorem append_append (p : Page) (xs ys : List Entry) :
    (p.append xs).append ys = p.append (xs ++ ys) := by
  simp [append]

theorem write_eq (p : Page) (text : String) : p.write text = p.append (Outline.line text) := rfl

theorem blank_blank_eq (p : Page) : p.blank.blank = p.append (Outline.blanks 2) := by
  rw [blank, blank, write_eq, write_eq, append_append]
  rfl

theorem writeAll_map_eq {α : Type} (p : Page) (f : α → String) (xs : List α) :
    p.writeAll (xs.map f) = p.append (xs.flatMap fun x => Outline.line (f x)) := by
  induction xs generalizing p with
  | nil => exact p.append_nil.symm
  | cons x xs ih =>
    have hcons : p.writeAll ((x :: xs).map f) = (p.write (f x)).writeAll (xs.map f) := rfl
    rw [hcons, ih, write_eq, append_append, List.flatMap_cons]

/-- What stands below a heading is one level deeper, and the page is at its level again. -/
theorem dedent?_append_indent (p : Page) (heading : String) (xs : List Entry) :
    ((p.write heading).indent.append xs).dedent? = some (p.append (Outline.block heading xs)) := by
  have hlevel : ((p.write heading).indent.append xs).level ≠ 0 := Nat.succ_ne_zero _
  rw [dedent?, if_neg hlevel, write_eq]
  refine congrArg some ?_
  simp only [dedent, indent, append, Outline.block, Outline.deeper, List.map_append, List.map_map,
    List.append_assoc, Nat.add_sub_cancel]
  congr 3
  refine List.map_congr_left fun e _ => ?_
  simp only [Function.comp_apply, Entry.deeper, Entry.mk.injEq, and_true]
  omega

/-- What has been written since a mark is seen when the writer looks back. -/
theorem writtenSince_append (p : Page) (xs : List Entry) :
    (p.append xs).writtenSince p.mark = Outline.hasText xs := by
  simp [writtenSince, mark, append, Outline.hasText, Function.comp_def]

/-- Writers that each add the lines of an outline add those of all of them. -/
theorem foldlM_append {α : Type} {write? : Page → α → Option Page} {outline : α → List Entry}
    (h : ∀ p x, write? p x = some (p.append (outline x))) (p : Page) (xs : List α) :
    xs.foldlM write? p = some (p.append (xs.flatMap outline)) := by
  induction xs generalizing p with
  | nil => rw [List.foldlM_nil, List.flatMap_nil, append_nil]; rfl
  | cons x xs ih =>
    rw [List.foldlM_cons, h, Option.bind_eq_bind, Option.bind_some, ih, append_append,
      List.flatMap_cons]

/-! ### The writers -/

/-- The lines of a documentation. -/
def writeDoc (p : Page) (text : String) : Page :=
  if Text.hasText text then
    match Text.lines (Text.trim text) with
    | [line] => p.write ("\"\"\"" ++ line ++ "\"\"\"")
    | lines => ((p.write "\"\"\"").writeAll lines).write "\"\"\""
  else p

/-- The lines of the class for the tags, if there are some. -/
def writeTags? (p : Page) (tags : List Tag) : Option Page :=
  if tags.isEmpty then some p
  else ((p.write "class Meta:").indent.writeAll
    (tags.map fun t => assignment t.name t.value.expression)).dedent?

/-- What stands below the heading of the class of an entity. -/
def writeBody? (s : Schema) (docStrings : Bool) (p : Page) (c : ClassPlan) : Option Page :=
  let p := if docStrings then p.writeDoc c.table.entity.documentation else p
  let p := p.writeAll (c.table.columns.map fun x => assignment x.column.name x.call.text)
  let p := p.writeAll (c.keys.map fun k => assignment k.fieldName (k.call s).text)
  p.writeTags? c.table.entity.tags

/-- The lines of the class of an entity. Whether it is empty is seen in what has been written. -/
def writeClass? (s : Schema) (docStrings : Bool) (p : Page) (c : ClassPlan) : Option Page := do
  let start := (p.write (classHeading c.table.entity.name)).indent
  let p ← start.writeBody? s docStrings c
  let p ← (if p.writtenSince start.mark then p else p.write "pass").dedent?
  some p.blank.blank

/-- The lines of the class of a junction. -/
def writeJunction? (s : Schema) (p : Page) (j : Junction) : Option Page := do
  let p ← ((p.write (classHeading j.name)).indent.writeAll
    (j.fields.map fun f => assignment f.fieldName (f.call s).text)).dedent?
  some p.blank.blank

theorem writeDoc_eq (p : Page) (text : String) :
    p.writeDoc text = p.append (ClassPlan.docEntries text) := by
  unfold writeDoc ClassPlan.docEntries
  split
  case isTrue =>
    have hlines : ∀ (q : Page) (lines : List String),
        q.writeAll lines = q.append (lines.flatMap Outline.line) := fun q lines => by
      have h := writeAll_map_eq q id lines
      rwa [List.map_id] at h
    rcases Text.lines (Text.trim text) with - | ⟨line, - | ⟨line', lines⟩⟩
    · simp only [hlines, write_eq, append_append]
    · rfl
    · simp only [hlines, write_eq, append_append]
  case isFalse => exact p.append_nil.symm

theorem writeTags?_eq (p : Page) (tags : List Tag) :
    p.writeTags? tags = some (p.append (ClassPlan.tagEntries tags)) := by
  unfold writeTags? ClassPlan.tagEntries
  split
  case isTrue => rw [append_nil]
  case isFalse => rw [writeAll_map_eq, dedent?_append_indent]

/-- Up to the test, the lines are those of the body of the class. -/
theorem writeBody?_eq (s : Schema) (docStrings : Bool) (p : Page) (c : ClassPlan) :
    p.writeBody? s docStrings c = some (p.append (c.body s docStrings)) := by
  have hdoc : (if docStrings then p.writeDoc c.table.entity.documentation else p) =
      p.append (if docStrings then ClassPlan.docEntries c.table.entity.documentation else []) := by
    cases docStrings with
    | true => rw [if_pos rfl, if_pos rfl, writeDoc_eq]
    | false => exact p.append_nil.symm
  rw [writeBody?, hdoc, writeAll_map_eq, writeAll_map_eq, writeTags?_eq, append_append,
    append_append, append_append, ClassPlan.body, List.append_assoc, List.append_assoc]
  rfl

/-- The class of an entity is written as it is laid out. -/
theorem writeClass?_eq (s : Schema) (docStrings : Bool) (p : Page) (c : ClassPlan) :
    p.writeClass? s docStrings c = some (p.append (c.outline s docStrings)) := by
  simp only [writeClass?, writeBody?_eq, Option.bind_eq_bind, Option.bind_some,
    writtenSince_append, ClassPlan.outline]
  split
  case isTrue =>
    rw [dedent?_append_indent, Option.bind_some, blank_blank_eq, append_append]
  case isFalse =>
    rw [write_eq, append_append, dedent?_append_indent, Option.bind_some, blank_blank_eq,
      append_append]

/-- The class of a junction is written as it is laid out. -/
theorem writeJunction?_eq (s : Schema) (p : Page) (j : Junction) :
    p.writeJunction? s j = some (p.append (j.outline s)) := by
  rw [writeJunction?, writeAll_map_eq, dedent?_append_indent, Option.bind_eq_bind,
    Option.bind_some, blank_blank_eq, append_append, Junction.outline]

/-- The base class. -/
def writeBase? (handle : String) (p : Page) : Option Page := do
  let p := (p.write ("class " ++ baseClass ++ "(Model):")).indent
  let p ← ((p.write "class Meta:").indent.write (assignment "database" handle)).dedent?
  p.dedent?

/-- The lines before the classes. -/
def writePreamble? (file handle : String) (p : Page) : Option Page := do
  let p := (p.write (TableModule.rule '=')).write "# PeeWee Database Model"
  let p := (p.write (TableModule.rule '=')).blank.blank
  let p := (p.write "from peewee import *").blank
  let p := p.write
    (assignment handle ("SqliteDatabase(" ++ Text.Quoted.literal file ++ ")"))
  let p := (p.blank.blank.write (TableModule.rule '-')).blank.blank
  let p ← p.writeBase? handle
  some (p.blank.blank.write (TableModule.rule '-')).blank.blank

theorem writeBase?_eq (handle : String) (p : Page) :
    p.writeBase? handle = some (p.append (Outline.block ("class " ++ baseClass ++ "(Model):")
      (Outline.block "class Meta:" (Outline.line (assignment "database" handle))))) := by
  rw [writeBase?, write_eq _ (assignment _ _), dedent?_append_indent, Option.bind_eq_bind,
    Option.bind_some, dedent?_append_indent]

/-- What stands before the classes is written as it is laid out. -/
theorem writePreamble?_eq (file handle : String) (p : Page) :
    p.writePreamble? file handle = some (p.append (TableModule.preamble file handle)) := by
  have hblank : ∀ q : Page, q.blank = q.append (Outline.blanks 1) := fun _ => rfl
  have hblanks : Outline.blanks 2 = Outline.blanks 1 ++ Outline.blanks 1 := rfl
  simp only [writePreamble?, writeBase?_eq, Option.bind_eq_bind, Option.bind_some, hblank, hblanks,
    write_eq, append_append, TableModule.preamble, List.append_assoc]

/-- The class of an entity or of a junction. -/
def writePart? (s : Schema) (docStrings : Bool) (p : Page) :
    ClassPlan ⊕ Junction → Option Page
  | .inl c => p.writeClass? s docStrings c
  | .inr j => p.writeJunction? s j

end Page

/-- The classes of a module as they are written, those of the entities before the junctions. -/
def ModulePlan.parts (m : ModulePlan) : List (ClassPlan ⊕ Junction) :=
  m.classes.map .inl ++ m.junctions.map .inr

/-- The block of a class. -/
def partBlock (s : Schema) (docStrings : Bool) : ClassPlan ⊕ Junction → Block
  | .inl c => c.block s docStrings
  | .inr j => j.block s

theorem ModulePlan.map_partBlock (s : Schema) (docStrings : Bool) (m : ModulePlan) :
    m.parts.map (partBlock s docStrings) = m.blocks s docStrings := by
  rw [parts, List.map_append, List.map_map, List.map_map]
  rfl

namespace TableModule

/-- The page of a module once some of its classes are written. -/
def page? (s : Schema) (docStrings : Bool) (file handle : String)
    (parts : List (ClassPlan ⊕ Junction)) : Option Page := do
  let p ← Page.writePreamble? file handle {}
  parts.foldlM (Page.writePart? s docStrings) p

/-- The page of a module has the lines of the preamble and of the blocks of its classes. -/
theorem page?_eq (s : Schema) (docStrings : Bool) (file handle : String)
    (parts : List (ClassPlan ⊕ Junction)) :
    page? s docStrings file handle parts = some (Page.append {} (preamble file handle ++
      (parts.map (partBlock s docStrings)).flatMap Block.entries)) := by
  have hpart : ∀ (p : Page) (x : ClassPlan ⊕ Junction), p.writePart? s docStrings x =
      some (p.append (partBlock s docStrings x).entries) := by
    intro p x
    cases x with
    | inl c => rw [Page.writePart?, Page.writeClass?_eq, ClassPlan.outline_eq]; rfl
    | inr j => rw [Page.writePart?, Page.writeJunction?_eq, Junction.outline_eq]; rfl
  rw [page?, Page.writePreamble?_eq, Option.bind_eq_bind, Option.bind_some,
    Page.foldlM_append hpart, Page.append_append, List.flatMap_map]

end TableModule

/-! ### The module of a schema -/

namespace Schema

variable {s : Schema} {docStrings : Bool} {id : Nat} {t : Table} {b : Block}

/-- There is nothing to write about an entity. -/
structure IsBare (s : Schema) (docStrings : Bool) (id : Nat) (t : Table) : Prop where
  /-- It has no column. -/
  columns : t.columns = []
  /-- It owns no key. -/
  keys : ∀ l ∈ s.links, ∀ side, (l.endAt side).entity = id → s.keyPlace l side ≠ .here
  /-- It has no tag. -/
  tags : t.entity.tags = []
  /-- Its documentation is not written, or it is blank. -/
  undocumented : docStrings = true → Text.hasText t.entity.documentation = false

/-- A block is that of an entity. -/
structure Describes (s : Schema) (docStrings : Bool) (id : Nat) (t : Table) (b : Block) : Prop where
  /-- Its heading has the name of the entity. -/
  heading : b.heading = classHeading t.entity.name
  /-- The class for the tags has a line for every tag. -/
  tags : b.tags = t.entity.tags.map fun x => assignment x.name x.value.expression
  /-- The line of an empty class stands there if there is nothing to write. -/
  bare : b.lines = ["pass"] ↔ s.IsBare docStrings id t
  /-- Otherwise there are the documentation, the columns and a line for every key that the entity
  owns. -/
  filled : ¬ s.IsBare docStrings id t → ∃ keys : List String,
    keys.length = ((s.sidesOf id).filter fun x => s.keyPlace x.1 x.2 = .here).length ∧
      b.lines = (if docStrings then ClassPlan.docEntries t.entity.documentation else []).map (·.text)
        ++ (ClassPlan.columnEntries t).map (·.text) ++ keys

theorem isBare_planClass (s : Schema) (p : Progress) (id : Nat) (t : Table) (docStrings : Bool) :
    (s.planClass p id t).1.isBare docStrings = true ↔ s.IsBare docStrings id t := by
  have hkeys : (s.planClass p id t).1.keys = [] ↔
      ∀ l ∈ s.links, ∀ side, (l.endAt side).entity = id → s.keyPlace l side ≠ .here := by
    rw [List.eq_nil_iff_forall_not_mem]
    constructor
    · intro h l hl side he hk
      exact h _ (mem_keys_planClass.2 ⟨l, hl, side, he, hk, rfl⟩)
    · intro h k hk
      obtain ⟨l, hl, side, he, hk, -⟩ := mem_keys_planClass.1 hk
      exact h l hl side he hk
  rw [ClassPlan.isBare_iff, hkeys]
  exact ⟨fun ⟨hc, hk, ht, hd⟩ => ⟨hc, hk, ht, hd⟩, fun h => ⟨h.columns, h.keys, h.tags,
    h.undocumented⟩⟩

/-- The block of the plan of a class is that of the entity. -/
theorem describes_block (s : Schema) (p : Progress) (id : Nat) (t : Table) (docStrings : Bool) :
    s.Describes docStrings id t ((s.planClass p id t).1.block s docStrings) where
  heading := rfl
  tags := rfl
  bare := by
    rw [← isBare_planClass s p, ClassPlan.block]
    by_cases h : (s.planClass p id t).1.isBare docStrings = true
    · simp only [h, if_true]
    · simp only [h]
      exact iff_of_false (ClassPlan.map_text_fieldEntries_ne s docStrings _) Bool.false_ne_true
  filled h := by
    rw [← isBare_planClass s p] at h
    refine ⟨(ClassPlan.keyEntries s (s.planClass p id t).1.keys).map (·.text), ?_, ?_⟩
    · rw [ClassPlan.keyEntries, Outline.flatMap_line, List.length_map, List.length_map,
        keys_planClass, List.length_map]
    · have hlines : ((s.planClass p id t).1.block s docStrings).lines =
          ((s.planClass p id t).1.fieldEntries s docStrings).map (·.text) := if_neg h
      rw [hlines, ClassPlan.fieldEntries, List.map_append, List.map_append]
      rfl

end Schema

/-- The options with other ones for what lines are indented by. -/
def Options.indentedBy (o : Options) (useTab : Bool) (indentSpaces : Nat) : Options :=
  { o with useTab, indentSpaces }

namespace TableModule

/-- The module of a schema consists of blocks and is written with balanced levels. -/
structure InBlocks (opts : Options) (s : Schema) (order : List Nat) (file handle : String)
    (classes junctions : List Block) : Prop where
  /-- Whatever lines are indented by, the module has the lines of the preamble and of the blocks. -/
  lines : ∀ useTab indentSpaces, (write (opts.indentedBy useTab indentSpaces) s order).outcome =
    .ok ⟨opts.outputFile, Outline.lines (opts.indentedBy useTab indentSpaces).indentUnit
      (preamble file handle ++ (classes ++ junctions).flatMap Block.entries)⟩
  /-- There is one block for every time that an entity is in the order. -/
  entity_blocks : List.Forall₂ (fun id b => ∃ t, s.tables[id]? = some t ∧
    s.Describes opts.docStrings id t b) order classes
  /-- There is one block for every link between two many ends that stands at such an entity. -/
  junction_blocks : List.Forall₂ (fun l b =>
      b.heading = classHeading (Junction.ofLink s l).name ∧ b.lines.length = 2 ∧ b.tags = [])
    (met (fun id l => l.touches id) order (s.links.filter fun l => l.IsManyToMany)) junctions
  /-- After the preamble, what stands unindented are the headings of the blocks. -/
  headings : Outline.headings ((classes ++ junctions).flatMap Block.entries) =
    (classes ++ junctions).map (·.heading)
  /-- Below a heading the lines are one or two levels deep, there is one with text, and those two
  levels deep stand in the class for the tags. -/
  body : ∀ b ∈ classes ++ junctions, (∀ e ∈ b.body, e.level = 1 ∨ e.level = 2) ∧
    (∃ e ∈ b.body, e.text ≠ "") ∧ ∀ above e below, b.body = above ++ e :: below → e.level = 2 →
      b.tags ≠ [] ∧ ∃ rest, above = b.lines.map (Entry.mk 1) ++ ⟨1, "class Meta:"⟩ :: rest
  /-- The level never goes below zero, and it is zero again in front of every heading and at the
  end. -/
  page : ∀ n, ∃ p, page? s opts.docStrings file handle ((s.plan order).parts.take n) = some p ∧
    p.level = 0 ∧
      p.entries = preamble file handle ++ ((classes ++ junctions).take n).flatMap Block.entries

/-- **A module is written in blocks**: the module of a schema that was built, for any order of its
entities with repeats and omissions, consists of a preamble and of blocks, whatever lines are
indented by; and the level is balanced when it is written line by line. -/
theorem written_in_blocks {es : List Entity} {rs : List Relationship} {s : Schema}
    (hs : (Schema.build es rs).outcome = .ok s) {order : List Nat}
    (horder : ∀ id ∈ order, id < s.size) {opts : Options} {file handle : String}
    (hfile : opts.requireFile = .ok file) (hhandle : opts.requireHandle = .ok handle) :
    ∃ classes junctions, InBlocks opts s order file handle classes junctions := by
  have hr := Schema.resolves_of_build hs
  refine ⟨(s.plan order).classes.map (·.block s opts.docStrings),
    (s.plan order).junctions.map (·.block s), ?_⟩
  have hblocks : (s.plan order).classes.map (·.block s opts.docStrings) ++
      (s.plan order).junctions.map (·.block s) = (s.plan order).blocks s opts.docStrings := rfl
  constructor
  case lines =>
    intro useTab indentSpaces
    have hfile' : (opts.indentedBy useTab indentSpaces).requireFile = .ok file := hfile
    have hhandle' : (opts.indentedBy useTab indentSpaces).requireHandle = .ok handle := hhandle
    have hw := outcome_write_of_resolves hr hfile' hhandle' order
    rwa [classEntries_eq] at hw
  case entity_blocks =>
    refine List.forall₂_map_right_iff.2 ((Schema.forall₂_planClasses {} horder).imp ?_)
    rintro id _ ⟨t, q, ht, rfl⟩
    exact ⟨t, ht, s.describes_block q id t opts.docStrings⟩
  case junction_blocks =>
    rw [Schema.junctions_plan hr horder, List.map_map]
    refine List.forall₂_map_right_iff.2 (List.forall₂_same.2 fun l _ => ?_)
    exact ⟨rfl, rfl, rfl⟩
  case headings =>
    exact Outline.headings_flatMap Block.headings_entries _
  case body =>
    intro b _
    exact ⟨fun e he => Block.level_of_mem_body he, b.exists_text_in_body,
      fun above e below h he => Block.above_eq_of_level_two h he⟩
  case page =>
    intro n
    refine ⟨_, page?_eq s opts.docStrings file handle _, rfl, ?_⟩
    rw [hblocks, ← ModulePlan.map_partBlock, ← List.map_take, Page.append]
    simp

/-- A class with documentation and a tag stands between an empty class and its repetition, and a
junction comes after them. -/
theorem repeated_class_written_in_blocks :
    ∃ s, (Schema.build [{ name := "A", documentation := "pass", tags := [⟨"managed", .flag true⟩] },
        { name := "B" }]
        [{ first := { reference := "A", cardinality := "*" }
           second := { reference := "B", cardinality := "*" } }]).outcome = .ok s ∧
      (∀ id ∈ [1, 0, 1], id < s.size) ∧ ∃ classes junctions,
        InBlocks { databaseFile := some "a.db", databaseHandle := some "db" } s [1, 0, 1] "a.db" "db"
          classes junctions := by
  have h : ∀ {es : List Entity} {rs : List Relationship} {s : Schema},
      (Schema.build es rs).outcome = .ok s → (∀ id ∈ [1, 0, 1], id < s.size) →
      ∃ s, (Schema.build es rs).outcome = .ok s ∧ (∀ id ∈ [1, 0, 1], id < s.size) ∧
        ∃ classes junctions,
          InBlocks { databaseFile := some "a.db", databaseHandle := some "db" } s [1, 0, 1] "a.db"
            "db" classes junctions :=
    fun hs horder => ⟨_, hs, horder, written_in_blocks hs horder rfl rfl⟩
  exact h rfl (by decide)

end TableModule

end EntityRelation
