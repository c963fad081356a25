import EntityRelation.CommandLine.Help
import EntityRelation.Diagram.Format
import EntityRelation.Publish
import EntityRelation.Settings.Load

/-!
# The command line

What the program does for its arguments, and what it answers: an exit code and what it prints. A
failure is explained by the chain of its causes, the outermost first.
-/

namespace EntityRelation.CommandLine

/-- What a run answers. -/
structure Reply where
  /-- The exit code. -/
  exit : UInt8
  /-- What goes to the standard output. -/
  output : String := ""
  /-- What goes to the standard error. -/
  error : String := ""
  deriving DecidableEq, Repr

/-- A text whose lines after the first are indented by `indent`. -/
def hang (indent s : String) : String := ("\n" ++ indent).intercalate (s.splitOn "\n")

/-- The causes of a failure, each in a paragraph of its own. -/
def causes : List String → String
  | [] => ""
  | [cause] => "\n\nCaused by:\n    " ++ hang "    " cause
  | chain =>
    "\n\nCaused by:" ++ String.join (chain.zipIdx.map fun (cause, i) =>
      "\n    " ++ toString i ++ ": " ++ hang "       " cause)

/-- A failure in words, from the outermost cause to the innermost. -/
def explain : List String → String
  | [] => ""
  | outermost :: chain => "Error: " ++ outermost ++ causes chain ++ "\n"

/-- A step of a command. It fails with the chain of its causes. -/
abbrev Step (m : Type → Type) := ExceptT (List String) m

variable {m : Type → Type} [Monad m] {α : Type}

/-- A run as a step. -/
def step (x : Run m α) : Step m α := ExceptT.mk do return (← x.run).mapError Failure.chain

/-- A run as a step that says what it was about if it fails. -/
def stepIn (context : String) (x : Run m α) : Step m α :=
  ExceptT.mk do return (← x.run).mapError fun f => context :: f.chain

variable [FileSystem m]

/-- The catalog in a file. -/
def loadCatalog (path : String) : Step m Catalog :=
  stepIn ("loading model " ++ path) (Catalog.load path)

/-- A module is generated; the answer is what is printed. -/
def generate (g : Generate) : Step m String := do
  let settings ← stepIn ("loading " ++ g.config) (Settings.load g.config)
  step settings.startLog
  step (ExceptT.mk (pure settings.generator.validate))
  let catalog ← loadCatalog g.model
  let package ← step (ExceptT.mk (pure (catalog.select g.package)))
  let mod ← stepIn ("compiling package " ++ package.name)
    (Run.perform (compile catalog package.name settings.generator))
  if g.dryRun then return mod.content
  else
    let directory := packageDirectory g.output package.name
    discard (stepIn ("preparing " ++ directory) (prepareDirectory directory g.overwrite))
    let path ← step (mod.store directory)
    return "Generated " ++ path ++ "\n"

/-- The packages of a catalog, one a line. -/
def listPackages (c : Catalog) : String :=
  paragraph (c.packages.map fun p => s!"{p.name} ({p.entities.length} entities)")

/-- The answer to a command. -/
def answer (x : Step m String) : m Reply := do
  match ← x.run with
  | .ok output => return { exit := 0, output }
  | .error chain => return { exit := 1, error := explain chain }

/-- What the program does for its arguments. -/
def run (args : List String) : m Reply :=
  match Request.ofArguments args with
  | .generate g => answer (generate g)
  | .packages model => answer do return listPackages (← loadCatalog model)
  | .help topic => pure { exit := 0, output := topic.text }
  | .version => pure { exit := 0, output := versionText }
  | .misuse => pure { exit := 2, error := Topic.program.text }

end EntityRelation.CommandLine
