import EntityRelation.Settings
import EntityRelation.Diagram.Encode
import EntityRelation.Toml.Reader
import EntityRelation.Tree.Read

/-!
# Settings in trees

How settings stand in a tree, and the tree of settings, in which every field is given.
-/

namespace EntityRelation

/-- The greatest number of spaces. -/
def Options.maxSpaces : Nat := Nat.pow 2 64 - 1

/-- The options of the generator. -/
def Options.ofTree? (t : Tree) : Option Options := do
  let r ← t.record? ["use_tab", "indent_spaces", "db_filename", "db_variable", "doc_string",
    "output_file"]
  some {
    useTab := ← r.defaulted? "use_tab" false Tree.bool?
    indentSpaces := ← r.defaulted? "indent_spaces" 4 (Tree.natural? maxSpaces)
    databaseFile := ← r.optional? "db_filename" Tree.text?
    databaseHandle := ← r.optional? "db_variable" Tree.text?
    docStrings := ← r.defaulted? "doc_string" true Tree.bool?
    outputFile := ← r.defaulted? "output_file" "model.py" Tree.text? }

/-- The options of the log. -/
def LogOptions.ofTree? (t : Tree) : Option LogOptions := do
  let r ← t.record? ["level", "file", "format", "stdout"]
  some {
    level := ← r.required? "level" Tree.text?
    file := ← r.optional? "file" Tree.text?
    format := ← r.defaulted? "format" "text" Tree.text?
    stdout := ← r.defaulted? "stdout" false Tree.bool? }

/-- The settings of a run. -/
def Settings.ofTree? (t : Tree) : Option Settings := do
  let r ← t.record? ["generator", "logging"]
  some {
    generator := ← r.defaulted? "generator" {} Options.ofTree?
    logging := ← r.optional? "logging" LogOptions.ofTree? }

/-- The settings in a TOML text. -/
def Settings.ofToml (s : String) : Except Failure Settings :=
  match (Toml.parse? s).bind Settings.ofTree? with
  | some settings => .ok settings
  | none => .error .settingsMalformed

/-- The options of the generator as a tree. -/
def Options.toTree (o : Options) : Tree :=
  .record [("use_tab", .bool o.useTab), ("indent_spaces", .ofNat o.indentSpaces),
    ("db_filename", .ofOption o.databaseFile), ("db_variable", .ofOption o.databaseHandle),
    ("doc_string", .bool o.docStrings), ("output_file", .text o.outputFile)]

/-- The options of the log as a tree. -/
def LogOptions.toTree (o : LogOptions) : Tree :=
  .record [("level", .text o.level), ("file", .ofOption o.file), ("format", .text o.format),
    ("stdout", .bool o.stdout)]

/-- The settings as a tree. -/
def Settings.toTree (s : Settings) : Tree :=
  .record [("generator", s.generator.toTree),
    ("logging", (s.logging.map LogOptions.toTree).getD .null)]

end EntityRelation
