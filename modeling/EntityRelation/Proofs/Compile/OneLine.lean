import EntityRelation.Proofs.Catalog.Acceptance
import EntityRelation.Proofs.Compile.Stages
import EntityRelation.Proofs.Module.OneLine

/-!
# Modules are split at their line feeds

A line of a module that had a line feed in it would be two lines of the file, the second one without
its indentation. What a diagram says in free text, its documentation and the texts of its tags, may
have any number of lines. Its names are written as they are, and so are the file and the handle of
the database. **`compile_splits_into_lines`**: if no name of the diagram and neither of the two
options has a line feed, no line of a module has one, so that the text of the module is split at its
line feeds into the lines and an empty text after the last one.

The condition is on the names as the diagram has them. Names of ends and the two options are trimmed
before they are used, so a line feed at the end of one of them would do no harm.
-/

namespace EntityRelation

open Dependency Text

/-! ### Names of a diagram -/

/-- The names in an entity have no line feeds. -/
structure Entity.OnOneLine (e : Entity) : Prop where
  /-- The name of the entity. -/
  name : OneLine e.name
  /-- The names of the columns. -/
  columns : ∀ c ∈ e.columns, OneLine c.name
  /-- The tags. -/
  tags : ∀ t ∈ e.tags, t.OnOneLine

/-- The names of a relationship have no line feeds. -/
structure Relationship.OnOneLine (r : Relationship) : Prop where
  /-- The name of the relationship. -/
  name : ∀ name ∈ r.name, OneLine name
  /-- The names of the ends. -/
  ends : ∀ e ∈ [r.first, r.second], ∀ name ∈ e.name, OneLine name
  /-- The tags. -/
  tags : ∀ t ∈ r.tags, t.OnOneLine

/-- The names in a diagram have no line feeds. -/
structure Diagram.OnOneLine (d : Diagram) : Prop where
  /-- Those in the entities. -/
  entities : ∀ e ∈ d.entities, e.OnOneLine
  /-- Those of the relationships. -/
  relationships : ∀ r ∈ d.relationships, r.OnOneLine

/-- What the options say of the database has no line feeds. -/
structure Options.OnOneLine (o : Options) : Prop where
  /-- The file. -/
  file : ∀ file ∈ o.databaseFile, OneLine file
  /-- The handle. -/
  handle : ∀ handle ∈ o.databaseHandle, OneLine handle

instance (e : Entity) : Decidable e.OnOneLine :=
  decidable_of_iff (OneLine e.name ∧ (∀ c ∈ e.columns, OneLine c.name) ∧ ∀ t ∈ e.tags, t.OnOneLine)
    ⟨fun h => ⟨h.1, h.2.1, h.2.2⟩, fun h => ⟨h.name, h.columns, h.tags⟩⟩

instance (r : Relationship) : Decidable r.OnOneLine :=
  decidable_of_iff ((∀ name ∈ r.name, OneLine name) ∧
      (∀ e ∈ [r.first, r.second], ∀ name ∈ e.name, OneLine name) ∧ ∀ t ∈ r.tags, t.OnOneLine)
    ⟨fun h => ⟨h.1, h.2.1, h.2.2⟩, fun h => ⟨h.name, h.ends, h.tags⟩⟩

/-! ### From the diagram to the schema -/

namespace Schema

variable {s : Schema} {es : List Entity} {rs : List Relationship}

theorem TableOf.onOneLine {e : Entity} {t : Table} (h : TableOf e t) (he : e.OnOneLine) :
    t.OnOneLine where
  name := h.entity ▸ he.name
  columns c hc := he.columns c.column (h.columns ▸ List.mem_map_of_mem hc)
  tags := h.entity ▸ he.tags

theorem LinkOf.onOneLine {n : Nat} {r : Relationship} {l : Link} (h : s.Resolves es rs)
    (hn : ∀ id, OneLine (s.nameOf id)) (hl : LinkOf s.idOf? n r l) (hr : r.OnOneLine) :
    l.OnOneLine := by
  have hgiven : ∀ side, ∀ name ∈ (l.endAt side).givenName, OneLine name := by
    intro side name hname
    refine oneLine_of_bind_trim? ((hl.endAt side).givenName ▸ hname) (hr.ends _ ?_)
    cases side with
    | first => exact List.mem_cons_self
    | second => exact List.mem_cons_of_mem _ List.mem_cons_self
  constructor
  case name =>
    intro name hname
    rw [hl.name] at hname
    exact hr.name name (Option.filter_eq_some_iff.1 hname).1
  case givenName => exact hgiven
  case endName =>
    intro side
    rw [(hl.endAt side).name, ← h.nameOf_entity (hl.endAt side)]
    cases hname : (l.endAt side).givenName with
    | none => exact oneLine_lower (hn _)
    | some name => exact hgiven side name hname
  case tags =>
    rw [hl.tags]
    exact hr.tags

/-- The names in a schema have no line feeds if those it comes from have none. -/
theorem Resolves.onOneLine (h : s.Resolves es rs) (hes : ∀ e ∈ es, e.OnOneLine)
    (hrs : ∀ r ∈ rs, r.OnOneLine) : s.OnOneLine := by
  have htables : ∀ t ∈ s.tables, t.OnOneLine := by
    intro t ht
    obtain ⟨i, hi⟩ := List.getElem?_of_mem ht
    obtain ⟨e, he, het⟩ := forall₂_getElem?_right h.tables hi
    exact het.onOneLine (hes e (List.mem_of_getElem? he))
  refine ⟨htables, fun l hl => ?_⟩
  obtain ⟨r, hr, -, hrl⟩ := h.exists_relationship hl
  exact hrl.onOneLine h (oneLine_nameOf htables) (hrs r hr)

end Schema

/-! ### Lines as they are written out -/

theorem Options.oneLine_require {name : String} {value : Option String} {v : String}
    (hv : require name value = .ok v) (h : ∀ x ∈ value, OneLine x) : OneLine v := by
  unfold require at hv
  split at hv
  case h_1 w hw =>
    cases hv
    exact oneLine_of_bind_trim? hw h
  case h_2 => cases hv

/-- Lines that are written out have no line feeds if their entries have none. -/
theorem Outline.Unbroken.oneLine_of_mem_lines {unit line : String} {entries : List Entry}
    (h : Unbroken entries) (hunit : OneLine unit) (hl : line ∈ lines unit entries) :
    OneLine line := by
  obtain ⟨e, he, rfl⟩ := List.mem_map.1 hl
  unfold Entry.line
  split
  · decide
  · rw [oneLine_append_iff]
    refine ⟨?_, h e he⟩
    rw [OneLine, String.toList_join, List.mem_flatMap]
    rintro ⟨x, hx, hn⟩
    rw [List.eq_of_mem_replicate hx] at hn
    exact hunit hn

/-- The text of a module whose lines have no line feeds is split into the lines again. -/
theorem TableModule.split_content {m : TableModule} (hne : m.lines ≠ [])
    (h : ∀ line ∈ m.lines, OneLine line) :
    (m.content.split '\n').toList.map (·.copy) = m.lines ++ [""] := by
  have hcontent : m.content = "\n".intercalate (m.lines ++ [""]) := by
    rw [String.intercalate_append_of_ne_nil hne (by simp), content]
    simp
  have hsplit := @String.toList_split_intercalate '\n' (m.lines ++ [""])
    (List.forall_mem_append.2 ⟨h, by simp⟩)
  rw [if_neg (by simp)] at hsplit
  rw [hcontent]
  exact hsplit

/-! ### Modules -/

namespace Stages

variable {c : Catalog} {package : String} {opts : Options} {es : List Entity} {s : Schema}
variable {o : Order} {m : TableModule}

/-- The schema of a package has the names of the diagram. -/
theorem onOneLine (h : Stages c package opts es s o m) (hd : c.diagram.OnOneLine) :
    s.OnOneLine := by
  refine h.resolves.onOneLine (fun e he => ?_) fun r hr => ?_
  · obtain ⟨p, hp, rfl⟩ := map_eq_ok_iff.1 h.entities
    obtain ⟨i, hi⟩ := Catalog.package_eq_ok_iff.1 hp
    exact hd.entities e (List.mem_flatMap.2 ⟨p, hi.mem, he⟩)
  · obtain ⟨⟨r, i⟩, hri, rfl⟩ := List.mem_map.1 hr
    exact hd.relationships r (List.mem_of_getElem? (Catalog.mem_between_iff.1 hri).1)

theorem oneLine_of_mem_lines (h : Stages c package opts es s o m) (hd : c.diagram.OnOneLine)
    (hopts : opts.OnOneLine) : ∀ line ∈ m.lines, OneLine line := by
  obtain ⟨file, handle, hf, hh, hlines⟩ := h.lines_eq
  have hpreamble : Outline.Unbroken (TableModule.preamble file handle) :=
    TableModule.unbroken_preamble (Options.oneLine_require hf hopts.file)
      (Options.oneLine_require hh hopts.handle)
  have hclasses := TableModule.unbroken_classEntries (h.onOneLine hd) opts.docStrings o.placed
  intro line hl
  rw [hlines] at hl
  exact (Outline.unbroken_append_iff.2 ⟨hpreamble, hclasses⟩).oneLine_of_mem_lines
    opts.oneLine_indentUnit hl

theorem lines_ne_nil (h : Stages c package opts es s o m) : m.lines ≠ [] := by
  obtain ⟨file, handle, -, -, hlines⟩ := h.lines_eq
  rw [hlines]
  simp [Outline.lines, TableModule.preamble, Outline.line]

end Stages

/-- **Modules are split at their line feeds**: if no name in a diagram and nothing that the options
say of the database has a line feed, no line of a module has one, and the text of the module, split
at its line feeds, is its lines and an empty text. -/
theorem compile_splits_into_lines {d : Diagram} {c : Catalog} (hc : Catalog.ofDiagram d = .ok c)
    (hd : d.OnOneLine) {opts : Options} (hopts : opts.OnOneLine) {package : String}
    {m : TableModule} (hm : (compile c package opts).outcome = .ok m) :
    (∀ line ∈ m.lines, OneLine line) ∧
      (m.content.split '\n').toList.map (·.copy) = m.lines ++ [""] := by
  obtain rfl := Catalog.diagram_of_ofDiagram hc
  obtain ⟨es, s, o, hs⟩ := compile_eq_ok_iff.1 hm
  have hlines := hs.oneLine_of_mem_lines hd hopts
  exact ⟨hlines, TableModule.split_content hs.lines_ne_nil hlines⟩

/-- An entity and a relationship with texts of several lines, which end in every way. -/
def Diagram.talkative : Diagram where
  packages := [{ name := "p", entities :=
    [{ name := "A"
       documentation := "First.\r\nSecond.\rStill the second.\n\n\r\nLast.\n"
       columns := [{ name := "id", type := "INTEGER" }]
       tags := [⟨"note", .text "one\ntwo\r\n\nthree\r"⟩] },
     { name := "B" }] }]
  relationships :=
    [{ first := { reference := "A", cardinality := "*" }
       second := { reference := "B", cardinality := "0..1" }
       tags := [⟨"help_text", .text "\none\n"⟩, ⟨"model", .element "A"⟩] }]

/-- The talkative diagram is compiled to a module that is split at its line feeds. -/
theorem compile_splits_into_lines_of_talkative :
    Catalog.ofDiagram .talkative = .ok ⟨.talkative⟩ ∧ Diagram.talkative.OnOneLine ∧
      Options.complete.OnOneLine ∧ ∃ m, (compile ⟨.talkative⟩ "p" .complete).outcome = .ok m ∧
        (∀ line ∈ m.lines, OneLine line) ∧
          (m.content.split '\n').toList.map (·.copy) = m.lines ++ [""] := by
  obtain ⟨m, hm⟩ := @exists_compile_eq_ok ⟨.talkative⟩ "p" .complete _ _ rfl rfl rfl
  have hd : Diagram.talkative.OnOneLine := ⟨by decide +kernel, by decide +kernel⟩
  have hopts : Options.complete.OnOneLine := ⟨by decide, by decide⟩
  exact ⟨rfl, hd, hopts, m, hm, compile_splits_into_lines rfl hd hopts hm⟩

end EntityRelation
