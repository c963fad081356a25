import EntityRelation.Failure
import EntityRelation.Text.Blank

/-!
# Settings

The options of the generator and of the log. Two options have no default: the file of the database
and the name of its handle in the module. The options are valid when both have text and lines are
indented by something.
-/

namespace EntityRelation

/-- The options of the generator. -/
structure Options where
  /-- Lines are indented by tabs. -/
  useTab : Bool := false
  /-- Lines are indented by so many spaces, if not by tabs. -/
  indentSpaces : Nat := 4
  /-- The file of the database. -/
  databaseFile : Option String := none
  /-- The handle of the database in the module. -/
  databaseHandle : Option String := none
  /-- Documentation is written into the classes. -/
  docStrings : Bool := true
  /-- The name of the module's file. -/
  outputFile : String := "model.py"
  deriving DecidableEq, Repr

/-- The options of the log. -/
structure LogOptions where
  /-- The name of the level. -/
  level : String
  /-- The file of the log. -/
  file : Option String := none
  /-- The name of the format. -/
  format : String := "text"
  /-- The log goes to the standard output, if not to a file. -/
  stdout : Bool := false
  deriving DecidableEq, Repr

/-- The settings of a run. -/
structure Settings where
  /-- The options of the generator. -/
  generator : Options := {}
  /-- The options of the log, if there is one. -/
  logging : Option LogOptions := none
  deriving DecidableEq, Repr

namespace Options

/-- The trimmed value of an option that has to be there. -/
def require (name : String) (value : Option String) : Except Failure String :=
  match value.bind Text.trim? with
  | some v => .ok v
  | none => .error (.missingOption name)

/-- The file of the database. -/
def requireFile (o : Options) : Except Failure String := require "db_filename" o.databaseFile

/-- The handle of the database. -/
def requireHandle (o : Options) : Except Failure String := require "db_variable" o.databaseHandle

/-- The options are complete, and lines are indented by something. -/
def validate (o : Options) : Except Failure Unit := do
  discard o.requireFile
  discard o.requireHandle
  if !o.useTab && o.indentSpaces == 0 then .error .noIndent else .ok ()

/-- What a line is indented by at each level. -/
def indentUnit (o : Options) : String :=
  if o.useTab then "\t" else String.ofList (List.replicate o.indentSpaces ' ')

end Options

end EntityRelation
