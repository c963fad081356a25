import EntityRelation.CommandLine.Arguments

/-!
# Help

The texts that the program shows about itself.
-/

namespace EntityRelation.CommandLine

/-- Lines, each with its end. -/
def paragraph (lines : List String) : String := String.join (lines.map (· ++ "\n"))

/-- The version of the program. -/
def versionText : String := paragraph ["erd_peewee 0.1.0"]

/-- What is said of a topic. -/
def Topic.text : Topic → String
  | program => paragraph [
      "Generate PeeWee models from an ER model",
      "",
      "Usage: erd_peewee <COMMAND>",
      "",
      "Commands:",
      "  generate  Generate the PeeWee module for one package",
      "  packages  List the packages of a model",
      "  help      Print this message or the help of the given subcommand(s)",
      "",
      "Options:",
      "  -h, --help     Print help",
      "  -V, --version  Print version"]
  | generate => paragraph [
      "Generate the PeeWee module for one package",
      "",
      "Usage: erd_peewee generate [OPTIONS] --model <MODEL> --output <OUTPUT_BASE>",
      "",
      "Options:",
      "      --model <MODEL>         Model file (.json, .yaml, .yml or .toml)",
      "      --config <CONFIG_PATH>  Configuration file [default: erd_peewee.toml]",
      "      --package <PACKAGE>     Package to generate; optional when the model has a single package",
      "      --output <OUTPUT_BASE>  Base directory; the module goes into <output>/<package>",
      "      --overwrite             Replace an existing package directory instead of reusing it",
      "      --dry-run               Print the module instead of writing it",
      "  -h, --help                  Print help"]
  | packages => paragraph [
      "List the packages of a model",
      "",
      "Usage: erd_peewee packages --model <MODEL>",
      "",
      "Options:",
      "      --model <MODEL>  ",
      "  -h, --help           Print help"]
  | help => paragraph [
      "Print this message or the help of the given subcommand(s)",
      "",
      "Usage: erd_peewee help [COMMAND]...",
      "",
      "Arguments:",
      "  [COMMAND]...  Print help for the subcommand(s)"]

end EntityRelation.CommandLine
