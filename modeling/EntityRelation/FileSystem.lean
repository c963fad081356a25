import EntityRelation.Event
import EntityRelation.Failure
import EntityRelation.FileSystem.Path

/-!
# File systems

What a run asks of the system it runs on: files and directories by their paths, and a log. What is
asked may be refused. Anything that answers these requests can run what is written in them, a value
that holds files as well as the machine.
-/

namespace EntityRelation

/-- Where a log goes. -/
inductive LogTarget where
  /-- To the file at a path. -/
  | file (path : String)
  /-- To the standard output. -/
  | output
  deriving DecidableEq, Repr

/-- How a log is kept. -/
structure LogPlan where
  /-- Where it goes. -/
  target : LogTarget
  /-- The least important level that is shown. -/
  limit : Level
  /-- Its lines are JSON. -/
  json : Bool
  deriving DecidableEq, Repr

/-- A system of files and directories with a log. -/
class FileSystem (m : Type → Type) where
  /-- The bytes of a file. -/
  read : String → m (Except FileError ByteArray)
  /-- A file gets new bytes; it is made if it is not there. -/
  write : String → ByteArray → m (Except FileError Unit)
  /-- There is something at the path. -/
  isThere : String → m Bool
  /-- There is a directory at the path. -/
  isDirectory : String → m Bool
  /-- A directory is made in one that is there. -/
  makeDirectory : String → m (Except FileError Unit)
  /-- A directory goes, with all that it holds. -/
  removeDirectory : String → m (Except FileError Unit)
  /-- From now on there is a log; a file for it starts empty. -/
  openLog : LogPlan → m (Except FileError Unit)
  /-- Something happened. -/
  report : Event → m Unit

namespace FileSystem

variable {m : Type → Type} [Monad m] [FileSystem m]

/-- A directory that could not be made is no mistake if it is there. -/
def unlessThere (path : String) (r : Except FileError Unit) : m (Except FileError Unit) :=
  match r with
  | .ok () => pure (.ok ())
  | .error e => do return if ← isDirectory path then .ok () else .error e

/-- The first of some paths becomes a directory; each of them lies in the one that follows, which is
made before it if it is missing. -/
def makeFirst : List String → m (Except FileError Unit)
  | [] => pure (.error (.other "failed to create whole tree"))
  | path :: above =>
    if path.isEmpty then pure (.ok ())
    else do
      match ← makeDirectory path with
      | .error .notFound => do
        match ← makeFirst above with
        | .ok () => unlessThere path (← makeDirectory path)
        | .error e => return .error e
      | r => unlessThere path r

/-- A directory is made if it is missing, with all that hold it. -/
def makeDirectories (path : String) : m (Except FileError Unit) := makeFirst (Path.ancestors path)

/-- The text of a file. -/
def readText (path : String) : m (Except FileError String) := do
  match ← read path with
  | .error e => return .error e
  | .ok bytes =>
    match String.fromUTF8? bytes with
    | some s => return .ok s
    | none => return .error .notText

end FileSystem

end EntityRelation
