import EntityRelation.Catalog
import EntityRelation.Diagram.Decode
import EntityRelation.Json.Reader
import EntityRelation.Run
import EntityRelation.Text.Lowercase
import EntityRelation.Toml.Reader
import EntityRelation.Yaml.Reader

/-!
# Diagrams in files

The formats in which a diagram stands in a file. The extension of the file tells the format, in any
case of letters.
-/

namespace EntityRelation

namespace Diagram

/-- A format of a file. -/
inductive Format where
  | json | yaml | toml
  deriving DecidableEq, Repr

namespace Format

/-- The format that an extension in small letters tells. -/
def ofExtension? (extension : String) : Option Format :=
  match extension with
  | "json" => some json
  | "yaml" => some yaml
  | "yml" => some yaml
  | "toml" => some toml
  | _ => none

/-- The tree of a text. -/
def tree? (f : Format) (s : String) : Option Tree :=
  match f with
  | json => Json.parse? s
  | yaml => Yaml.parse? s
  | toml => Toml.parse? s

end Format

/-- The extension of a path in small letters. -/
def extension (path : String) : String := Text.lower ((Path.extension? path).getD "")

/-- The diagram that a file with this path and text holds. -/
def ofText (path text : String) : Except Failure Diagram :=
  match Format.ofExtension? (extension path) with
  | none => .error (.unknownFormat (extension path) path)
  | some f =>
    match (f.tree? text).bind ofTree? with
    | some d => .ok d
    | none => .error .diagramMalformed

variable {m : Type → Type} [Monad m] [FileSystem m]

/-- The diagram in a file. -/
def load (path : String) : Run m Diagram := do
  let text ← Run.ask .file (FileSystem.readText path)
  let d ← ExceptT.mk (pure (ofText path text))
  Run.report (.diagramLoaded path)
  return d

end Diagram

/-- The catalog of the diagram in a file. -/
def Catalog.load {m : Type → Type} [Monad m] [FileSystem m] (path : String) : Run m Catalog := do
  let d ← Diagram.load path
  ExceptT.mk (pure (Catalog.ofDiagram d))

end EntityRelation
