import EntityRelation.Event.Line
import EntityRelation.FileSystem
import EntityRelation.FileSystem.Tree

/-!
# A world in a value

A tree of files that answers all requests of a run, together with what the run has reported so far.
The log is a file of the tree, as long as that file is there, or stands in the output.
-/

namespace EntityRelation

/-- Where the lines of a log stand. -/
inductive LogPlace where
  /-- In the file at a location. -/
  | file (location : Location)
  /-- In the output. -/
  | output
  deriving DecidableEq, Repr

/-- A log that has been opened. -/
structure OpenLog where
  /-- Where its lines stand. -/
  place : LogPlace
  /-- How it is kept. -/
  plan : LogPlan
  deriving DecidableEq, Repr

/-- Files, and what has been reported. -/
structure World where
  /-- The files. -/
  files : FileTree := {}
  /-- What has been reported, in order. -/
  events : List Event := []
  /-- The log, if there is one. -/
  log : Option OpenLog := none
  /-- The lines of the log in the output. -/
  output : String := ""

namespace World

/-- The log with one more line. -/
def addLine (w : World) (line : String) : LogPlace → World
  | .output => { w with output := w.output ++ line }
  | .file l =>
    match w.files.node? l with
    | some (.file content) => { w with files := w.files.put l (.file (content ++ line.toUTF8)) }
    | _ => w

/-- Something happened. -/
def report (w : World) (e : Event) : World :=
  let w := { w with events := w.events ++ [e] }
  match w.log with
  | some log => if log.plan.limit.shows e.level then w.addLine (e.line log.plan.json) log.place else w
  | none => w

/-- The log is opened. -/
def openLog (w : World) (plan : LogPlan) : Except FileError World :=
  match plan.target with
  | .output => .ok { w with log := some ⟨.output, plan⟩ }
  | .file path => do
    let files ← w.files.write path ByteArray.empty
    let l ← files.locate path
    .ok { w with files, log := some ⟨.file l, plan⟩ }

/-- A change of the files that may be refused. -/
def changeFiles (change : FileTree → Except FileError FileTree) :
    StateM World (Except FileError Unit) := do
  let w ← get
  match change w.files with
  | .ok files => do
    set { w with files }
    return .ok ()
  | .error e => return .error e

end World

instance : FileSystem (StateM World) where
  read path := do return (← get).files.read path
  write path content := World.changeFiles fun t => t.write path content
  isThere path := do return (← get).files.isThere path
  isDirectory path := do return (← get).files.isDirectory path
  makeDirectory path := World.changeFiles fun t => t.makeDirectory path
  removeDirectory path := do
    let w ← get
    let (r, files) := w.files.removeDirectory path
    set { w with files }
    return r
  openLog plan := do
    match (← get).openLog plan with
    | .ok w => do
      set w
      return .ok ()
    | .error e => return .error e
  report e := modify fun w => w.report e

end EntityRelation
