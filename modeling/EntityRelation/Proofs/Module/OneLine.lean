import EntityRelation.Proofs.Module.Fields
import EntityRelation.Proofs.Module.Plan
import EntityRelation.Proofs.Text.OneLine

/-!
# Every entry is one line

The lines of a module are made of names of the diagram, values of tags and words of the generator.
An outline is unbroken if no entry of it has a line feed (`Outline.Unbroken`). Documentation is
unbroken whatever it says, since it is taken apart into lines (`ClassPlan.unbroken_docEntries`), and
so is the call of a column, which does not have the column's name in it (`TypedColumn.oneLine_call`).
Everything else is as its names are: the classes of a schema are unbroken in every order if the names
of the schema are on one line each (`TableModule.unbroken_classEntries`).
-/

namespace EntityRelation

open Text

/-! ### Names of a schema -/

/-- The name of a tag and the element that it may name have no line feeds. -/
structure Tag.OnOneLine (t : Tag) : Prop where
  /-- The name. -/
  name : OneLine t.name
  /-- The element, if the tag names one. -/
  element : ∀ name ∈ t.value.element?, OneLine name

instance (t : Tag) : Decidable t.OnOneLine :=
  decidable_of_iff (OneLine t.name ∧ ∀ name ∈ t.value.element?, OneLine name)
    ⟨fun h => ⟨h.1, h.2⟩, fun h => ⟨h.name, h.element⟩⟩

/-- The names in a table have no line feeds. -/
structure Table.OnOneLine (t : Table) : Prop where
  /-- The name of the entity. -/
  name : OneLine t.entity.name
  /-- The names of the columns. -/
  columns : ∀ c ∈ t.columns, OneLine c.column.name
  /-- The tags of the entity. -/
  tags : ∀ x ∈ t.entity.tags, x.OnOneLine

/-- The names of a link have no line feeds. -/
structure Link.OnOneLine (l : Link) : Prop where
  /-- The name of the link. -/
  name : ∀ name ∈ l.name, OneLine name
  /-- The given names of the ends. -/
  givenName : ∀ side, ∀ name ∈ (l.endAt side).givenName, OneLine name
  /-- The names of the ends. -/
  endName : ∀ side, OneLine (l.endAt side).name
  /-- The tags of the link. -/
  tags : ∀ x ∈ l.tags, x.OnOneLine

/-- The names in a schema have no line feeds. -/
structure Schema.OnOneLine (s : Schema) : Prop where
  /-- Those in the tables. -/
  tables : ∀ t ∈ s.tables, t.OnOneLine
  /-- Those of the links. -/
  links : ∀ l ∈ s.links, l.OnOneLine

theorem Schema.oneLine_nameOf {s : Schema} (h : ∀ t ∈ s.tables, t.OnOneLine) (id : Nat) :
    OneLine (s.nameOf id) := by
  rw [nameOf]
  cases ht : s.tables[id]? with
  | none => decide
  | some t => exact (h t (List.mem_of_getElem? ht)).name

theorem Schema.OnOneLine.nameOf {s : Schema} (h : s.OnOneLine) (id : Nat) :
    OneLine (s.nameOf id) := oneLine_nameOf h.tables id

/-! ### Field calls -/

theorem Argument.oneLine_text {a : Argument} (hk : OneLine a.key) (hv : OneLine a.value) :
    OneLine a.text := by
  cases a with
  | positional value => exact hv
  | keyword key value =>
    show OneLine (key ++ "=" ++ value)
    rw [oneLine_append_iff, oneLine_append_iff]
    exact ⟨⟨hk, by decide⟩, hv⟩

theorem FieldCall.oneLine_text {f : FieldCall} (hc : OneLine f.callee)
    (ha : ∀ a ∈ f.arguments, OneLine a.text) : OneLine f.text := by
  have hargs : OneLine (", ".intercalate (f.arguments.map Argument.text)) :=
    oneLine_intercalate (by decide) (List.forall_mem_map.2 ha)
  rw [text, oneLine_append_iff, oneLine_append_iff, oneLine_append_iff]
  exact ⟨⟨⟨hc, by decide⟩, hargs⟩, by decide⟩

theorem Tag.oneLine_argument {t : Tag} (h : t.OnOneLine) : OneLine t.argument.text := by
  have hv : OneLine t.value.expression := TagValue.oneLine_expression h.element
  unfold argument Argument.named
  split
  · exact hv
  · exact Argument.oneLine_text h.name hv

/-- The call of a column is made of words and of the length. -/
theorem TypedColumn.oneLine_call (c : TypedColumn) : OneLine c.call.text := by
  have hclass : OneLine c.type.fieldClass := by
    cases c.type <;> decide
  have hlength : OneLine (toString c.column.length.toNat) := by
    rw [Nat.toString_eq_ofList_toDigits, oneLine_ofList_iff]
    exact Number.newline_notMem_digits _
  have hkey : OneLine "max_length" := by decide
  refine FieldCall.oneLine_text hclass fun a ha => ?_
  have ha := c.arguments_call_sublist.subset ha
  simp only [List.mem_cons, List.not_mem_nil, or_false] at ha
  rcases ha with rfl | rfl | rfl | rfl
  · decide
  · decide
  · decide
  · exact Argument.oneLine_text hkey hlength

/-- A call with an option for the way back. -/
theorem oneLine_backref {name : String} (h : OneLine name) :
    OneLine (Argument.keyword "backref" (Quoted.literal name)).text := by
  have hkey : OneLine "backref" := by decide
  exact Argument.oneLine_text hkey (oneLine_literal_iff.2 h)

namespace ForeignKey

theorem oneLine_base {s : Schema} {k : ForeignKey} (h : OneLine (s.nameOf k.target)) :
    OneLine (k.base s).callee ∧ ∀ a ∈ (k.base s).arguments, OneLine a.text := by
  have hkey : OneLine "ForeignKeyField" := by decide
  have hdeferred : OneLine "DeferredForeignKey" := by decide
  have hself : OneLine (Quoted.literal "self") := by decide
  unfold base
  cases k.reach with
  | direct => exact ⟨hkey, List.forall_mem_singleton.2 h⟩
  | ahead => exact ⟨hdeferred, List.forall_mem_singleton.2 (oneLine_literal_iff.2 h)⟩
  | itself => exact ⟨hkey, List.forall_mem_singleton.2 hself⟩

theorem oneLine_options {k : ForeignKey} (hb : ∀ b ∈ k.backref, OneLine b)
    (ht : ∀ t ∈ k.tags, t.OnOneLine) : ∀ a ∈ k.options, OneLine a.text := by
  intro a ha
  rw [options, List.mem_append, List.mem_append] at ha
  rcases ha with (ha | ha) | ha
  · obtain ⟨b, hk, rfl⟩ := Option.map_eq_some_iff.1 (Option.mem_toList.1 ha)
    exact oneLine_backref (hb b hk)
  · split at ha
    · obtain rfl := List.mem_singleton.1 ha
      decide
    · exact absurd ha List.not_mem_nil
  · obtain ⟨t, hk, rfl⟩ := List.mem_map.1 ha
    exact Tag.oneLine_argument (ht t hk)

theorem oneLine_call {s : Schema} {k : ForeignKey} (hn : OneLine (s.nameOf k.target))
    (hb : ∀ b ∈ k.backref, OneLine b) (ht : ∀ t ∈ k.tags, t.OnOneLine) :
    OneLine (k.call s).text := by
  obtain ⟨hc, ha⟩ := oneLine_base hn
  exact FieldCall.oneLine_text hc (List.forall_mem_append.2 ⟨ha, oneLine_options hb ht⟩)

end ForeignKey

theorem JunctionField.oneLine_call {s : Schema} {f : JunctionField}
    (hn : OneLine (s.nameOf f.entity)) (hb : OneLine f.backref) : OneLine (f.call s).text := by
  have hkey : OneLine "ForeignKeyField" := by decide
  refine FieldCall.oneLine_text hkey (List.forall_mem_cons.2 ⟨hn, ?_⟩)
  exact List.forall_mem_singleton.2 (oneLine_backref hb)

/-! ### Outlines -/

namespace Outline

/-- No entry has a line feed. -/
def Unbroken (entries : List Entry) : Prop := ∀ e ∈ entries, OneLine e.text

variable {xs ys : List Entry}

@[simp] theorem unbroken_nil : Unbroken [] := by
  simp [Unbroken]

@[simp] theorem unbroken_append_iff : Unbroken (xs ++ ys) ↔ Unbroken xs ∧ Unbroken ys :=
  List.forall_mem_append

@[simp] theorem unbroken_line_iff {text : String} : Unbroken (line text) ↔ OneLine text := by
  simp [Unbroken, line]

@[simp] theorem unbroken_blanks (n : Nat) : Unbroken (blanks n) := by
  intro e he
  rw [List.eq_of_mem_replicate he]
  decide

@[simp] theorem unbroken_deeper_iff : Unbroken (deeper xs) ↔ Unbroken xs :=
  List.forall_mem_map

@[simp] theorem unbroken_block_iff {heading : String} :
    Unbroken (block heading xs) ↔ OneLine heading ∧ Unbroken xs := by
  simp [block]

theorem unbroken_flatMap {α : Type} {f : α → List Entry} {zs : List α}
    (h : ∀ z ∈ zs, Unbroken (f z)) : Unbroken (zs.flatMap f) := by
  intro e he
  obtain ⟨z, hz, he⟩ := List.mem_flatMap.1 he
  exact h z hz e he

end Outline

theorem oneLine_assignment {name value : String} (hn : OneLine name) (hv : OneLine value) :
    OneLine (assignment name value) := by
  rw [assignment, oneLine_append_iff, oneLine_append_iff]
  exact ⟨⟨hn, by decide⟩, hv⟩

theorem oneLine_classHeading {name : String} (h : OneLine name) : OneLine (classHeading name) := by
  simp only [classHeading, oneLine_append_iff]
  exact ⟨⟨⟨⟨by decide, h⟩, by decide⟩, by decide⟩, by decide⟩

open Outline

namespace ClassPlan

/-- Documentation is taken apart into lines, so it may be any text. -/
theorem unbroken_docEntries (text : String) : Unbroken (docEntries text) := by
  have hquotes : OneLine "\"\"\"" := by decide
  unfold docEntries
  split
  case isFalse => exact unbroken_nil
  case isTrue =>
    split
    case h_1 line hl =>
      have hline : OneLine line := oneLine_of_mem_lines (hl ▸ List.mem_singleton_self line)
      rw [unbroken_line_iff, oneLine_append_iff, oneLine_append_iff]
      exact ⟨⟨hquotes, hline⟩, hquotes⟩
    case h_2 =>
      rw [unbroken_append_iff, unbroken_append_iff, unbroken_line_iff]
      refine ⟨⟨hquotes, unbroken_flatMap fun line hl => ?_⟩, hquotes⟩
      exact unbroken_line_iff.2 (oneLine_of_mem_lines hl)

theorem unbroken_columnEntries {t : Table} (h : ∀ c ∈ t.columns, OneLine c.column.name) :
    Unbroken (columnEntries t) :=
  unbroken_flatMap fun c hc => unbroken_line_iff.2 (oneLine_assignment (h c hc) c.oneLine_call)

theorem unbroken_keyEntries {s : Schema} {ks : List ForeignKey}
    (h : ∀ k ∈ ks, OneLine k.fieldName ∧ OneLine (k.call s).text) : Unbroken (keyEntries s ks) :=
  unbroken_flatMap fun k hk => unbroken_line_iff.2 (oneLine_assignment (h k hk).1 (h k hk).2)

theorem unbroken_tagEntries {tags : List Tag} (h : ∀ t ∈ tags, t.OnOneLine) :
    Unbroken (tagEntries tags) := by
  unfold tagEntries
  split
  · exact unbroken_nil
  · rw [unbroken_block_iff]
    refine ⟨by decide, unbroken_flatMap fun t ht => unbroken_line_iff.2 ?_⟩
    exact oneLine_assignment (h t ht).name (TagValue.oneLine_expression (h t ht).element)

/-- A class is unbroken if its table and its keys are. -/
theorem unbroken_outline {s : Schema} {c : ClassPlan} (ht : c.table.OnOneLine)
    (hk : ∀ k ∈ c.keys, OneLine k.fieldName ∧ OneLine (k.call s).text) (docStrings : Bool) :
    Unbroken (c.outline s docStrings) := by
  have hdoc : Unbroken (if docStrings then docEntries c.table.entity.documentation else []) := by
    split
    · exact unbroken_docEntries _
    · exact unbroken_nil
  have hbody : Unbroken (c.body s docStrings) := by
    rw [body, unbroken_append_iff, unbroken_append_iff, unbroken_append_iff]
    exact ⟨⟨⟨hdoc, unbroken_columnEntries ht.columns⟩, unbroken_keyEntries hk⟩,
      unbroken_tagEntries ht.tags⟩
  unfold outline
  rw [unbroken_append_iff, unbroken_block_iff]
  refine ⟨⟨oneLine_classHeading ht.name, ?_⟩, unbroken_blanks 2⟩
  split
  · exact hbody
  · rw [unbroken_append_iff, unbroken_line_iff]
    exact ⟨hbody, by decide⟩

end ClassPlan

/-! ### Junctions -/

namespace Junction

variable {s : Schema} {l : Link}

theorem oneLine_label (hs : s.OnOneLine) (hl : l.OnOneLine) (side : Side) :
    OneLine (label s (l.endAt side)) := by
  rw [label]
  cases hn : (l.endAt side).givenName with
  | none => exact hs.nameOf _
  | some name => exact hl.givenName side name hn

theorem oneLine_field (hs : s.OnOneLine) (hl : l.OnOneLine) (side : Side) (e : LinkEnd) :
    OneLine (field s e (l.endAt side)).fieldName ∧
      OneLine ((field s e (l.endAt side)).call s).text := by
  have hback : OneLine (field s e (l.endAt side)).backref := by
    rw [field]
    cases hn : (l.endAt side).givenName with
    | none =>
      show OneLine (lower (s.nameOf (l.endAt side).entity) ++ "s")
      rw [oneLine_append_iff]
      exact ⟨oneLine_lower (hs.nameOf _), by decide⟩
    | some name => exact hl.givenName side name hn
  exact ⟨oneLine_lower (hs.nameOf _), JunctionField.oneLine_call (hs.nameOf _) hback⟩

theorem unbroken_outline_ofLink (hs : s.OnOneLine) (hl : l.OnOneLine) :
    Unbroken ((ofLink s l).outline s) := by
  have hname : OneLine (ofLink s l).name := by
    rw [ofLink]
    cases hn : l.name with
    | none =>
      show OneLine (label s l.first ++ "_" ++ label s l.second)
      rw [oneLine_append_iff, oneLine_append_iff]
      exact ⟨⟨oneLine_label hs hl .first, by decide⟩, oneLine_label hs hl .second⟩
    | some name => exact hl.name name hn
  have hfields : ∀ f ∈ (ofLink s l).fields, OneLine f.fieldName ∧ OneLine (f.call s).text := by
    refine List.forall_mem_cons.2 ⟨oneLine_field hs hl .second l.first, ?_⟩
    exact List.forall_mem_singleton.2 (oneLine_field hs hl .first l.second)
  rw [outline, unbroken_append_iff, unbroken_block_iff]
  refine ⟨⟨oneLine_classHeading hname, unbroken_flatMap fun f hf => ?_⟩, unbroken_blanks 2⟩
  exact unbroken_line_iff.2 (oneLine_assignment (hfields f hf).1 (hfields f hf).2)

end Junction

/-! ### Modules -/

/-- The key of a side of a link is on one line. -/
theorem Schema.oneLine_keyAt {s : Schema} {l : Link} (hs : s.OnOneLine) (hl : l.OnOneLine)
    (p : Progress) (side : Side) : OneLine (keyAt p l side).fieldName ∧
      OneLine ((keyAt p l side).call s).text :=
  ⟨hl.endName side.opposite,
    ForeignKey.oneLine_call (hs.nameOf _) (hl.givenName side) hl.tags⟩

namespace TableModule

theorem unbroken_preamble {file handle : String} (hf : OneLine file) (hh : OneLine handle) :
    Unbroken (preamble file handle) := by
  have hrule : ∀ c, c ≠ '\n' → OneLine (rule c) := by
    intro c hc
    rw [rule, oneLine_ofList_iff, List.mem_cons, not_or]
    exact ⟨by decide, fun h => hc (List.eq_of_mem_replicate h).symm⟩
  have hcall : OneLine ("SqliteDatabase(" ++ Quoted.literal file ++ ")") := by
    rw [oneLine_append_iff, oneLine_append_iff, oneLine_literal_iff]
    exact ⟨⟨by decide, hf⟩, by decide⟩
  have hbase : OneLine ("class " ++ baseClass ++ "(Model):") := by decide
  have hdatabase : OneLine "database" := by decide
  simp only [preamble, unbroken_append_iff, unbroken_line_iff, unbroken_block_iff, unbroken_blanks,
    hrule _ (by decide : '=' ≠ '\n'), hrule _ (by decide : '-' ≠ '\n'),
    oneLine_assignment hh hcall, oneLine_assignment hdatabase hh, hbase, true_and, and_true]
  decide

/-- **The classes of a schema are unbroken** in every order, if the names of the schema are. -/
theorem unbroken_classEntries {s : Schema} (hs : s.OnOneLine) (docStrings : Bool)
    (order : List Nat) : Unbroken (classEntries s docStrings (s.plan order)) := by
  rw [classEntries, unbroken_append_iff]
  constructor
  · refine unbroken_flatMap fun c hc => ?_
    refine ClassPlan.unbroken_outline (hs.tables _ (Schema.table_mem_of_mem_plan hc)) ?_ docStrings
    intro k hk
    obtain ⟨p, l, hl, side, -, rfl⟩ := Schema.exists_keyAt_of_mem_keys hc hk
    exact Schema.oneLine_keyAt hs (hs.links l hl) p side
  · refine unbroken_flatMap fun j hj => ?_
    obtain ⟨l, hl, rfl⟩ := Schema.exists_ofLink_of_mem_plan hj
    exact Junction.unbroken_outline_ofLink hs (hs.links l hl)

end TableModule

end EntityRelation
