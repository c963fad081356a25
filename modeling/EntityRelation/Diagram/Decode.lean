import EntityRelation.Diagram
import EntityRelation.Tree.Read

/-!
# Diagrams out of trees

How a diagram stands in a tree: every part is a record with the field names below. A field that is
left out has the value that the type of the part gives it, except for names, types, references,
cardinalities, ends and values of tags, which have to be given.
-/

namespace EntityRelation

/-- The greatest length of a column. -/
def Column.maxLength : Nat := UInt32.size - 1

/-- A value of the given kind. -/
def TagValue.ofTree? (kind : String) (t : Tree) : Option TagValue :=
  match kind, t.resolve with
  | "string", .text s => some (.text s)
  | "number", .number n => some (.number n)
  | "boolean", .bool b => some (.flag b)
  | "reference", .text s => some (.element s)
  | _, _ => none

/-- A tag stands in a record whose fields are told by their names, and every scalar in that record
stands for a value. -/
def Tag.ofTree? (t : Tree) : Option Tag :=
  match t.bare with
  | .record fs => do
    if (Tree.record fs).hasInvalid then none
    let r ← Record.known? ["name", "kind", "value"] fs
    let name ← r.required? "name" Tree.text?
    let kind ← r.required? "kind" fun t =>
      match t.resolve with
      | .text s => some s
      | _ => none
    let value ← r.required? "value" (TagValue.ofTree? kind)
    some ⟨name, value⟩
  | _ => none

/-- A column. -/
def Column.ofTree? (t : Tree) : Option Column := do
  let r ← t.record? ["name", "type", "length", "nullable", "unique", "primary_key"]
  some {
    name := ← r.required? "name" Tree.text?
    type := ← r.required? "type" Tree.text?
    length := ← r.defaulted? "length" 0 fun t => (t.natural? maxLength).map UInt32.ofNat
    nullable := ← r.defaulted? "nullable" false Tree.bool?
    unique := ← r.defaulted? "unique" false Tree.bool?
    primaryKey := ← r.defaulted? "primary_key" false Tree.bool? }

/-- An entity. -/
def Entity.ofTree? (t : Tree) : Option Entity := do
  let r ← t.record? ["name", "documentation", "columns", "tags"]
  some {
    name := ← r.required? "name" Tree.text?
    documentation := ← r.defaulted? "documentation" "" Tree.text?
    columns := ← r.defaulted? "columns" [] (Tree.list? Column.ofTree?)
    tags := ← r.defaulted? "tags" [] (Tree.list? Tag.ofTree?) }

/-- An end of a relationship. -/
def End.ofTree? (t : Tree) : Option End := do
  let r ← t.record? ["reference", "cardinality", "name", "navigable"]
  some {
    reference := ← r.required? "reference" Tree.text?
    cardinality := ← r.required? "cardinality" Tree.text?
    name := ← r.defaulted? "name" none (Tree.optional? Tree.text?)
    navigable := ← r.defaulted? "navigable" true Tree.bool? }

/-- A relationship. -/
def Relationship.ofTree? (t : Tree) : Option Relationship := do
  let r ← t.record? ["name", "end1", "end2", "tags"]
  some {
    name := ← r.defaulted? "name" none (Tree.optional? Tree.text?)
    first := ← r.required? "end1" End.ofTree?
    second := ← r.required? "end2" End.ofTree?
    tags := ← r.defaulted? "tags" [] (Tree.list? Tag.ofTree?) }

/-- A package. -/
def Package.ofTree? (t : Tree) : Option Package := do
  let r ← t.record? ["name", "documentation", "entities"]
  some {
    name := ← r.required? "name" Tree.text?
    documentation := ← r.defaulted? "documentation" "" Tree.text?
    entities := ← r.defaulted? "entities" [] (Tree.list? Entity.ofTree?) }

/-- A diagram. -/
def Diagram.ofTree? (t : Tree) : Option Diagram := do
  let r ← t.record? ["name", "packages", "relationships"]
  some {
    name := ← r.defaulted? "name" "" Tree.text?
    packages := ← r.defaulted? "packages" [] (Tree.list? Package.ofTree?)
    relationships := ← r.defaulted? "relationships" [] (Tree.list? Relationship.ofTree?) }

end EntityRelation
