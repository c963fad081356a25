import EntityRelation.Proofs.Module.Blocks

/-!
# The fields of a class

A class has a field for every column and then one for every key. The lines of the fields stand one
below the other in the class, in this order and with nothing between them
(`ClassPlan.exists_outline_eq`). The call of a column has some of four arguments, each at its place
(`TypedColumn.arguments_call_sublist`); what the call of a key has is told by `ForeignKey.options`.
-/

namespace EntityRelation

/-- A field of a class. -/
structure Field where
  /-- The name that is bound. -/
  name : String
  /-- The call that it is bound to. -/
  call : FieldCall
  deriving DecidableEq, Repr

/-- The line of a field. -/
def Field.entry (f : Field) : Entry := ⟨1, assignment f.name f.call.text⟩

/-- The arguments of a column are some of four, in their order. -/
theorem TypedColumn.arguments_call_sublist (c : TypedColumn) :
    c.call.arguments.Sublist [.keyword "null" "True", .keyword "unique" "True",
      .keyword "primary_key" "True", .keyword "max_length" (toString c.column.length.toNat)] := by
  have hopt : ∀ (b : Prop) [Decidable b] (a : Argument),
      (if b then [a] else []).Sublist [a] := by
    intro b _ a
    split
    · exact List.Sublist.refl _
    · exact List.nil_sublist _
  exact (((hopt _ _).append (hopt _ _)).append (hopt _ _)).append (hopt _ _)

namespace ClassPlan

variable {s : Schema} {c : ClassPlan}

/-- The fields of a class. -/
def fields (s : Schema) (c : ClassPlan) : List Field :=
  c.table.columns.map (fun x => ⟨x.column.name, x.call⟩)
    ++ c.keys.map fun k => ⟨k.fieldName, k.call s⟩

theorem deeper_fieldEntries (s : Schema) (c : ClassPlan) :
    Outline.deeper (columnEntries c.table ++ keyEntries s c.keys) =
      (c.fields s).map Field.entry := by
  rw [columnEntries, keyEntries, Outline.flatMap_line, Outline.flatMap_line, fields,
    Outline.deeper, List.map_append, List.map_append, List.map_map, List.map_map, List.map_map,
    List.map_map]
  rfl

/-- The lines of the fields stand together in a class. -/
theorem exists_outline_eq (s : Schema) (c : ClassPlan) (docStrings : Bool) :
    ∃ above below, c.outline s docStrings = above ++ (c.fields s).map Field.entry ++ below := by
  obtain ⟨docs, hbody⟩ : ∃ docs, c.body s docStrings =
      docs ++ (columnEntries c.table ++ keyEntries s c.keys) ++ tagEntries c.table.entity.tags :=
    ⟨_, by rw [body, List.append_assoc _ (columnEntries _)]⟩
  obtain ⟨rest, hrest⟩ := c.exists_outline_eq_body s docStrings
  refine ⟨Outline.line (classHeading c.table.entity.name) ++ Outline.deeper docs,
    Outline.deeper (tagEntries c.table.entity.tags) ++ rest, ?_⟩
  rw [hrest, hbody, ← deeper_fieldEntries]
  simp only [Outline.deeper, List.map_append, List.append_assoc]

end ClassPlan

end EntityRelation
