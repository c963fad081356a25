import EntityRelation.ClassPlan
import EntityRelation.Dependency.OfSchema
import EntityRelation.Settings

/-!
# Table modules

The module that declares the tables of a schema: the handle of the database and a base class, then
a class for every entity in a given order, then a class for every junction in the order in which
its link was first met. A column that has no field call stops the writing.
-/

namespace EntityRelation

/-- A module, ready to be stored. -/
structure TableModule where
  /-- The name of its file. -/
  fileName : String
  /-- Its lines. -/
  lines : List String
  deriving DecidableEq, Repr

/-- The text of a module. Every line is ended, and a module without lines is an empty line. -/
def TableModule.content (m : TableModule) : String := "\n".intercalate m.lines ++ "\n"

/-- The plan of a module. -/
structure ModulePlan where
  /-- The classes of the entities. -/
  classes : List ClassPlan
  /-- The classes of the junctions. -/
  junctions : List Junction
  deriving DecidableEq, Repr

namespace Schema

/-- The plan of the class of a table, and the progress when it is written. -/
def planClass (s : Schema) (p : Progress) (id : Nat) (t : Table) : ClassPlan × Progress :=
  let (visits, p) := Visit.ofSides s p (s.sidesOf id)
  (⟨t, visits⟩, p.write id)

/-- The plans of the classes of entities, one after the other. -/
def planClasses (s : Schema) : Progress → List Nat → List ClassPlan × Progress
  | p, [] => ([], p)
  | p, id :: rest =>
    match s.tables[id]? with
    | none => planClasses s p rest
    | some t =>
      let (c, p) := s.planClass p id t
      let (cs, p) := planClasses s p rest
      (c :: cs, p)

/-- The plan of the module that declares entities in a given order. -/
def plan (s : Schema) (order : List Nat) : ModulePlan :=
  let (classes, p) := s.planClasses {} order
  ⟨classes, p.queued.filterMap fun id => s.links[id]?.map (Junction.ofLink s)⟩

end Schema

namespace TableModule

/-- A line of the same character after a hash. -/
def rule (c : Char) : String := String.ofList ('#' :: List.replicate 79 c)

/-- The lines before the classes. -/
def preamble (file handle : String) : List Entry :=
  Outline.line (rule '=') ++ Outline.line "# PeeWee Database Model" ++ Outline.line (rule '=')
    ++ Outline.blanks 2 ++ Outline.line "from peewee import *" ++ Outline.blanks 1
    ++ Outline.line (assignment handle ("SqliteDatabase(" ++ Text.Quoted.literal file ++ ")"))
    ++ Outline.blanks 2 ++ Outline.line (rule '-') ++ Outline.blanks 2
    ++ Outline.block ("class " ++ baseClass ++ "(Model):")
        (Outline.block "class Meta:" (Outline.line (assignment "database" handle)))
    ++ Outline.blanks 2 ++ Outline.line (rule '-') ++ Outline.blanks 2

/-- Every column has a field call. -/
def checkColumns : List TypedColumn → Except Failure Unit
  | [] => .ok ()
  | c :: rest => do
    discard c.column.call
    checkColumns rest

/-- The lines of the classes. -/
def classEntries (s : Schema) (docStrings : Bool) (p : ModulePlan) : List Entry :=
  p.classes.flatMap (·.outline s docStrings) ++ p.junctions.flatMap (·.outline s)

/-- The module that declares the entities of a schema in a given order. -/
def write (o : Options) (s : Schema) (order : List Nat) : Logged TableModule := do
  let file ← o.requireFile
  let handle ← o.requireHandle
  let plan := s.plan order
  checkColumns (plan.classes.flatMap (·.table.columns))
  let entries := preamble file handle ++ classEntries s o.docStrings plan
  Logged.reportAll (plan.classes.flatMap (·.events s))
  Logged.report (.moduleWritten order.length plan.junctions.length entries.length)
  pure ⟨o.outputFile, Outline.lines o.indentUnit entries⟩

end TableModule

end EntityRelation
