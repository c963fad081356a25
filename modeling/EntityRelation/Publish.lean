import EntityRelation.Compile
import EntityRelation.Run
import EntityRelation.Text.Lowercase

/-!
# Publishing modules

A module goes into a directory of its package, below a base directory. A directory that is there is
used as it is, or is cleared first. Nothing is touched before the module has been compiled.
-/

namespace EntityRelation

/-- What became of a directory before a module was written into it. -/
inductive DirectoryState where
  /-- It was made. -/
  | created
  /-- What it held went. -/
  | overwritten
  /-- It was left as it is. -/
  | reused
  deriving DecidableEq, Repr

/-- The directory of a package: its name in small letters, below the base. -/
def packageDirectory (base package : String) : String := Path.join base (Text.lower package)

/-- The path of a module's file in a directory. -/
def TableModule.path (mod : TableModule) (directory : String) : String :=
  Path.join directory mod.fileName

variable {m : Type → Type} [Monad m] [FileSystem m]

/-- The directory is there, and empty if it was there before and is to be overwritten. -/
def prepareDirectory (directory : String) (overwrite : Bool) : Run m DirectoryState := do
  if !(← Run.query (FileSystem.isThere directory)) then
    Run.ask .file (FileSystem.makeDirectories directory)
    return .created
  else if overwrite then
    Run.report (.directoryReplaced directory)
    Run.ask .file (FileSystem.removeDirectory directory)
    Run.ask .file (FileSystem.makeDirectories directory)
    return .overwritten
  else
    Run.report (.directoryReused directory)
    return .reused

/-- The module is written into a directory; the answer is the path of its file. -/
def TableModule.store (mod : TableModule) (directory : String) : Run m String := do
  let path := mod.path directory
  Run.ask .file (FileSystem.write path mod.content.toUTF8)
  Run.report (.moduleStored path)
  return path

/-- A package is compiled and its module is written into the directory of the package. -/
def publish (o : Options) (c : Catalog) (package base : String) (overwrite : Bool) :
    Run m String := do
  let mod ← Run.perform (compile c package o)
  let directory := packageDirectory base package
  discard (prepareDirectory directory overwrite)
  mod.store directory

end EntityRelation
