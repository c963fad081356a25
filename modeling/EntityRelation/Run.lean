import EntityRelation.FileSystem
import EntityRelation.Logged

/-!
# Runs

A run on a system of files: it may fail, and what it has done until then stays done. Requests to the
system and computations that report events are parts of runs.
-/

namespace EntityRelation

/-- A run on the system `m`. -/
abbrev Run (m : Type → Type) := ExceptT Failure m

namespace Run

variable {m : Type → Type} [Monad m] {α : Type}

/-- An answer of the system, in which a refusal becomes a failure. -/
def ask (refused : FileError → Failure) (x : m (Except FileError α)) : Run m α :=
  ExceptT.mk do return (← x).mapError refused

/-- A computation, whose events are reported whether it fails or not. -/
def perform [FileSystem m] (x : Logged α) : Run m α := do
  x.events.forM fun e => ExceptT.lift (FileSystem.report e)
  ExceptT.mk (pure x.outcome)

/-- An event is reported. -/
def report [FileSystem m] (e : Event) : Run m Unit := ExceptT.lift (FileSystem.report e)

/-- A question to the system that is always answered. -/
def query (x : m α) : Run m α := ExceptT.lift x

end Run

end EntityRelation
