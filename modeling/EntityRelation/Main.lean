import EntityRelation.CommandLine
import EntityRelation.Event.Line

/-!
# The program

The files and the log of the machine answer what a run asks for. Nothing is decided here.
-/

namespace EntityRelation.Machine

/-- A log that has been opened, with its file if it has one. -/
structure Log where
  /-- How it is kept. -/
  plan : LogPlan
  /-- Its file. -/
  file : Option IO.FS.Handle

/-- What the system says when it refuses. -/
def fileError : IO.Error → FileError
  | .noFileOrDirectory .. => .notFound
  | .alreadyExists .. => .alreadyExists
  | .inappropriateType _ code _ =>
    if code = 20 then .notADirectory else if code = 21 then .isADirectory else .invalidArgument
  | .unsatisfiedConstraints .. => .notEmpty
  | .invalidArgument .. => .invalidArgument
  | e => .other (toString e)

/-- An action of the machine, which may be refused. -/
def attempt (x : IO α) : IO (Except FileError α) := do
  match ← x.toBaseIO with
  | .ok a => return .ok a
  | .error e => return .error (fileError e)

/-- An action of the machine is not refused. -/
def succeeds (x : IO α) : IO Bool := do return (← attempt x).isOk

/-- The log is opened, with an empty file if it has one. -/
def start (plan : LogPlan) : IO Log := do
  match plan.target with
  | .file path => return ⟨plan, some (← IO.FS.Handle.mk path .write)⟩
  | .output => return ⟨plan, none⟩

/-- One line of the log. -/
def Log.add (log : Log) (line : String) : IO Unit := do
  match log.file with
  | some h => do
    h.putStr line
    h.flush
  | none => IO.print line

/-- The machine, with a log once it has been opened. -/
abbrev Run := ReaderT (IO.Ref (Option Log)) IO

instance : FileSystem Run where
  read path := attempt (IO.FS.readBinFile path)
  write path content := attempt (IO.FS.writeBinFile path content)
  isThere path := succeeds (IO.FS.Handle.mk path .read)
  isDirectory path := succeeds (IO.FS.Handle.mk (path ++ "/.") .read)
  makeDirectory path := attempt (IO.FS.createDir path)
  removeDirectory path := attempt (IO.FS.removeDirAll path)
  openLog plan := fun current => attempt do current.set (some (← start plan))
  report e := fun current => do
    match ← current.get with
    | some log => if log.plan.limit.shows e.level then log.add (e.line log.plan.json)
    | none => pure ()

/-- A run of the program: what it prints, and its exit code. -/
def program (args : List String) : IO UInt32 := do
  let reply ← (CommandLine.run args : Run CommandLine.Reply).run (← IO.mkRef none)
  IO.print reply.output
  IO.eprint reply.error
  return reply.exit.toUInt32

end EntityRelation.Machine

/-- The program. -/
def main (args : List String) : IO UInt32 := EntityRelation.Machine.program args
