import EntityRelation.ForeignKey
import EntityRelation.Junction
import EntityRelation.Outline

/-!
# Plans of classes

What stands in the class of an entity, before it is laid out: the documentation, the columns, what
becomes of every end of a link that stands at the entity, and the tags. The lines of the class and
the events that its writing reports are both told from the plan.
-/

namespace EntityRelation

/-- What becomes of one end of a link at an entity. -/
structure Visit where
  /-- The link. -/
  link : Link
  /-- The side. -/
  side : Side
  /-- The outcome. -/
  outcome : Outcome
  deriving DecidableEq, Repr

/-- The plan of the class of an entity. -/
structure ClassPlan where
  /-- The entity. -/
  table : Table
  /-- Every end that stands at the entity, link by link. -/
  visits : List Visit
  deriving DecidableEq, Repr

/-- The class that all classes of a module extend. -/
def baseClass : String := "BaseModel"

/-- The first line of a class. -/
def classHeading (name : String) : String := "class " ++ name ++ "(" ++ baseClass ++ "):"

/-- A name and what it stands for, on one line. -/
def assignment (name value : String) : String := name ++ " = " ++ value

namespace Visit

/-- The key that comes of an end. -/
def key? (v : Visit) : Option ForeignKey :=
  match v.outcome with
  | .key k => some k
  | _ => none

/-- Every end of the links that stands at an entity, each settled after the ones before it. -/
def ofSides (s : Schema) : Progress → List (Link × Side) → List Visit × Progress
  | p, [] => ([], p)
  | p, (l, side) :: rest =>
    let o := s.outcome p l side
    let (vs, p) := ofSides s (o.advance p) rest
    (⟨l, side, o⟩ :: vs, p)

end Visit

/-- The ends of links that stand at an entity. -/
def Schema.sidesOf (s : Schema) (entity : Nat) : List (Link × Side) :=
  (s.linksOf entity).flatMap fun l => (l.sidesAt entity).map fun side => (l, side)

namespace ClassPlan

/-- The lines of a documentation. -/
def docEntries (text : String) : List Entry :=
  if Text.hasText text then
    match Text.lines (Text.trim text) with
    | [line] => Outline.line ("\"\"\"" ++ line ++ "\"\"\"")
    | lines =>
      Outline.line "\"\"\"" ++ lines.flatMap Outline.line ++ Outline.line "\"\"\""
  else []

/-- The lines of the columns. -/
def columnEntries (t : Table) : List Entry :=
  t.columns.flatMap fun c => Outline.line (assignment c.column.name c.call.text)

/-- The keys of a class in their order. -/
def keys (c : ClassPlan) : List ForeignKey := c.visits.filterMap Visit.key?

/-- The lines of the keys. -/
def keyEntries (s : Schema) (ks : List ForeignKey) : List Entry :=
  ks.flatMap fun k => Outline.line (assignment k.fieldName (k.call s).text)

/-- The lines of the tags. -/
def tagEntries (tags : List Tag) : List Entry :=
  if tags.isEmpty then []
  else Outline.block "class Meta:"
    (tags.flatMap fun t => Outline.line (assignment t.name t.value.expression))

/-- The lines below the first line of a class. -/
def body (s : Schema) (docStrings : Bool) (c : ClassPlan) : List Entry :=
  (if docStrings then docEntries c.table.entity.documentation else [])
    ++ columnEntries c.table ++ keyEntries s c.keys ++ tagEntries c.table.entity.tags

/-- The lines of a class. A class with nothing in it says so. -/
def outline (s : Schema) (docStrings : Bool) (c : ClassPlan) : List Entry :=
  let entries := c.body s docStrings
  let filled := if Outline.hasText entries then entries else entries ++ Outline.line "pass"
  Outline.block (classHeading c.table.entity.name) filled ++ Outline.blanks 2

/-- An event for a field whose name stands in `seen`. -/
def repeatEvents (entity : String) (seen : List String) (field : String) : List Event :=
  if seen.contains field then [.fieldRepeated entity field] else []

/-- The events for the columns, after fields with the names `seen`. -/
def columnEvents (entity : String) (seen : List String) : List TypedColumn → List Event
  | [] => []
  | c :: rest =>
    repeatEvents entity seen c.column.name ++ columnEvents entity (c.column.name :: seen) rest

/-- The events for a key, after fields with the names `seen`. -/
def keyEvents (s : Schema) (entity : String) (seen : List String) (k : ForeignKey) : List Event :=
  (if k.reach = .ahead then [.referenceAhead entity (s.nameOf k.target)] else [])
    ++ repeatEvents entity seen k.fieldName

/-- The events for the ends, after fields with the names `seen`. -/
def visitEvents (s : Schema) (entity : String) (seen : List String) : List Visit → List Event
  | [] => []
  | v :: rest =>
    s.settledEvent v.link v.side v.outcome :: match v.key? with
      | some k => keyEvents s entity seen k ++ visitEvents s entity (k.fieldName :: seen) rest
      | none => visitEvents s entity seen rest

/-- The events for a class. -/
def events (s : Schema) (c : ClassPlan) : List Event :=
  let entity := c.table.entity.name
  let columns := c.table.columns
  columnEvents entity [] columns
    ++ visitEvents s entity (columns.map (·.column.name)) c.visits

end ClassPlan

/-- The lines of the class of a junction. -/
def Junction.outline (s : Schema) (j : Junction) : List Entry :=
  Outline.block (classHeading j.name)
    (j.fields.flatMap fun f => Outline.line (assignment f.fieldName (f.call s).text))
    ++ Outline.blanks 2

end EntityRelation
