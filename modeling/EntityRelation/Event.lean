import EntityRelation.Dependency.Strength
import EntityRelation.Text.Lowercase

/-!
# Events

What a run reports on its way. Each event says what happened, and has a level, a message and
fields that are made from it.
-/

namespace EntityRelation

/-- How much an event matters, most first. -/
inductive Level where
  | error | warn | info | debug | trace
  deriving DecidableEq, Repr

namespace Level

/-- The name of a level in capitals. -/
def name : Level → String
  | error => "ERROR"
  | warn => "WARN"
  | info => "INFO"
  | debug => "DEBUG"
  | trace => "TRACE"

/-- The place of a level, most important first. -/
def rank : Level → Nat
  | error => 0
  | warn => 1
  | info => 2
  | debug => 3
  | trace => 4

/-- The level that a text names, in any case; `info` for every other text. -/
def parse (s : String) : Level :=
  match Text.lower s with
  | "trace" => trace
  | "debug" => debug
  | "info" => info
  | "warn" => warn
  | "error" => error
  | _ => info

/-- An event of level `l` is shown where the level is `limit`. -/
def shows (limit l : Level) : Bool := l.rank ≤ limit.rank

end Level

/-- The value of a field of an event. -/
inductive EventValue where
  /-- A count. -/
  | count (n : Nat)
  /-- A text that is shown as it is. -/
  | plain (s : String)
  /-- A text that is shown in quotes. -/
  | quoted (s : String)
  deriving DecidableEq, Repr

/-- Something that happened in a run. -/
inductive Event where
  /-- A diagram was read from a file. -/
  | diagramLoaded (path : String)
  /-- A relationship has an end outside the package. -/
  | relationshipOutside (first second : String)
  /-- A package was resolved. -/
  | schemaResolved (entities relationships : Nat)
  /-- One entity has to be declared before another. -/
  | dependencyFound (parent child : String) (strength : Strength)
  /-- A dependency was given up. -/
  | dependencyBroken (parent child : String) (strength : Strength)
  /-- A package was compiled. -/
  | packageCompiled (package : String) (entities relationships broken : Nat)
  /-- It was settled what one end of a relationship becomes. -/
  | endSettled (entity : String) (relationship : Nat) (outcome : String)
  /-- A key refers to a class that comes later. -/
  | referenceAhead (owner target : String)
  /-- A class has two fields of one name. -/
  | fieldRepeated (entity field : String)
  /-- A module was written. -/
  | moduleWritten (entities junctions lines : Nat)
  /-- An old directory gives way. -/
  | directoryReplaced (path : String)
  /-- An old directory is used. -/
  | directoryReused (path : String)
  /-- A module was stored in a file. -/
  | moduleStored (path : String)
  deriving DecidableEq, Repr

namespace Event

/-- How much an event matters. -/
def level : Event → Level
  | diagramLoaded .. => .debug
  | relationshipOutside .. => .debug
  | schemaResolved .. => .debug
  | dependencyFound .. => .debug
  | dependencyBroken .. => .debug
  | packageCompiled .. => .info
  | endSettled .. => .trace
  | referenceAhead .. => .debug
  | fieldRepeated .. => .warn
  | moduleWritten .. => .info
  | directoryReplaced .. => .info
  | directoryReused .. => .info
  | moduleStored .. => .info

/-- What an event says. -/
def message : Event → String
  | diagramLoaded .. => "Loaded model document"
  | relationshipOutside .. => "Ignoring relationship leaving the compiled set"
  | schemaResolved .. => "Normalized model"
  | dependencyFound .. => "Dependency edge"
  | dependencyBroken .. => "Broke dependency cycle"
  | packageCompiled .. => "Compiled package"
  | endSettled .. => "Classified relationship end"
  | referenceAhead .. => "Forward reference"
  | fieldRepeated .. => "Field name repeats in class; name the relationship ends to disambiguate"
  | moduleWritten .. => "Emitted schema module"
  | directoryReplaced .. => "Overwriting previous folder"
  | directoryReused .. => "Using existing folder"
  | moduleStored .. => "Wrote generated module"

/-- The fields of an event in their order. -/
def fields : Event → List (String × EventValue)
  | diagramLoaded path => [("path", .plain path)]
  | relationshipOutside first second => [("end1", .plain first), ("end2", .plain second)]
  | schemaResolved entities relationships =>
    [("entities", .count entities), ("relationships", .count relationships)]
  | dependencyFound parent child strength =>
    [("parent", .quoted parent), ("child", .quoted child), ("kind", .plain strength.name)]
  | dependencyBroken parent child strength =>
    [("parent", .quoted parent), ("child", .quoted child), ("kind", .plain strength.name)]
  | packageCompiled package entities relationships broken =>
    [("package", .quoted package), ("entities", .count entities),
      ("relationships", .count relationships), ("cycles_broken", .count broken)]
  | endSettled entity relationship outcome =>
    [("entity", .quoted entity), ("relationship", .count relationship),
      ("outcome", .quoted outcome)]
  | referenceAhead owner target => [("owner", .plain owner), ("target", .quoted target)]
  | fieldRepeated entity field => [("entity", .quoted entity), ("field", .quoted field)]
  | moduleWritten entities junctions lines =>
    [("entities", .count entities), ("junctions", .count junctions), ("lines", .count lines)]
  | directoryReplaced path => [("path", .plain path)]
  | directoryReused path => [("path", .plain path)]
  | moduleStored path => [("path", .plain path)]

end Event

end EntityRelation
