/-!
# Arguments

The arguments of the command line: a command and its options, or a request for help or for the
version. Options come in any order, each once. The value of an option stands after it, or after an
equals sign in the same argument; in an argument of its own it does not start with a hyphen.
-/

namespace EntityRelation.CommandLine

/-- What follows the name of an option. -/
inductive Operand where
  /-- Nothing. -/
  | nothing
  /-- A text. -/
  | text
  /-- A path, which is not empty. -/
  | path
  deriving DecidableEq, Repr

/-- The options of a command by their names. -/
abbrev Options := List (String × Operand)

/-- The options that were given, with their values. -/
abbrev Given := List (String × String)

/-- What help is about. -/
inductive Topic where
  | program | generate | packages | help
  deriving DecidableEq, Repr

/-- Why no options were found. -/
inductive Stop where
  /-- The arguments are wrong. -/
  | misuse
  /-- Help was asked for. -/
  | help
  deriving DecidableEq, Repr

/-- The parts of an argument before and after its first equals sign. -/
def splitAtEquals (cs : List Char) : String × Option String :=
  match cs.dropWhile (· != '=') with
  | [] => (String.ofList cs, none)
  | _ :: value => (String.ofList (cs.takeWhile (· != '=')), some (String.ofList value))

/-- One more option, unless it was given before or lacks its path. -/
def addOption (given : Given) (name value : String) (operand : Operand) : Except Stop Given :=
  if given.any (·.1 == name) ∨ operand = .path ∧ value.isEmpty then .error .misuse
  else .ok (given ++ [(name, value)])

/-- The argument may stand for the value of the option before it. -/
def isValue (arg : String) : Bool := !arg.startsWith "-" || arg == "-"

/-- The options in some arguments, after those that were given before. -/
def readOptions (options : Options) : Given → List String → Except Stop Given
  | given, [] => .ok given
  | given, arg :: rest =>
    match arg.toList with
    | ['-', '-'] => if rest.isEmpty then .ok given else .error .misuse
    | '-' :: '-' :: cs =>
      match splitAtEquals cs with
      | ("help", none) => .error .help
      | (name, value?) =>
        match options.lookup name, value?, rest with
        | some .nothing, none, rest => do
          let given ← addOption given name "" .nothing
          readOptions options given rest
        | some .text, some value, rest => do
          let given ← addOption given name value .text
          readOptions options given rest
        | some .path, some value, rest => do
          let given ← addOption given name value .path
          readOptions options given rest
        | some .text, none, value :: rest =>
          if isValue value then do
            let given ← addOption given name value .text
            readOptions options given rest
          else .error .misuse
        | some .path, none, value :: rest =>
          if isValue value then do
            let given ← addOption given name value .path
            readOptions options given rest
          else .error .misuse
        | _, _, _ => .error .misuse
    | '-' :: 'h' :: _ => .error .help
    | _ => .error .misuse
  termination_by _ args => args.length

/-! ### Commands -/

/-- What is to be generated, and where it goes. -/
structure Generate where
  /-- The file of the diagram. -/
  model : String
  /-- The file of the settings. -/
  config : String
  /-- The package, if it was named. -/
  package : Option String
  /-- The base directory. -/
  output : String
  /-- A directory that is there is cleared. -/
  overwrite : Bool
  /-- The module is printed instead of being stored. -/
  dryRun : Bool
  deriving DecidableEq, Repr

/-- What the arguments ask for. -/
inductive Request where
  /-- A module. -/
  | generate (g : Generate)
  /-- The packages of the diagram in a file. -/
  | packages (model : String)
  /-- Help. -/
  | help (topic : Topic)
  /-- The version of the program. -/
  | version
  /-- Nothing that makes sense. -/
  | misuse
  deriving DecidableEq, Repr

/-- The options of `generate`. -/
def generateOptions : Options :=
  [("model", .path), ("config", .path), ("package", .text), ("output", .path),
    ("overwrite", .nothing), ("dry-run", .nothing)]

/-- The options of `packages`. -/
def packagesOptions : Options := [("model", .path)]

/-- The settings are in this file if no other one is given. -/
def defaultConfig : String := "erd_peewee.toml"

namespace Request

/-- What options ask for that were read. -/
def ofGiven (topic : Topic) (r : Except Stop Given) (make : Given → Option Request) : Request :=
  match r with
  | .ok given => (make given).getD .misuse
  | .error .help => .help topic
  | .error .misuse => .misuse

/-- The module that options ask for. -/
def ofGenerate? (given : Given) : Option Request := do
  some (.generate {
    model := ← given.lookup "model"
    config := (given.lookup "config").getD defaultConfig
    package := given.lookup "package"
    output := ← given.lookup "output"
    overwrite := (given.lookup "overwrite").isSome
    dryRun := (given.lookup "dry-run").isSome })

/-- What the arguments after `help` ask for. -/
def ofTopics : List String → Request
  | [] => .help .program
  | ["generate"] => .help .generate
  | ["packages"] => .help .packages
  | ["help"] => .help .help
  | _ => .misuse

/-- What an argument in the place of a command asks for. -/
def ofFlag (arg : String) : Request :=
  match arg.toList with
  | '-' :: 'h' :: _ => .help .program
  | '-' :: 'V' :: _ => .version
  | _ => if arg = "--help" then .help .program else if arg = "--version" then .version else .misuse

/-- What arguments ask for. -/
def ofArguments : List String → Request
  | [] => .misuse
  | "generate" :: rest => ofGiven .generate (readOptions generateOptions [] rest) ofGenerate?
  | "packages" :: rest =>
    ofGiven .packages (readOptions packagesOptions [] rest)
      fun given => (given.lookup "model").map .packages
  | "help" :: rest => ofTopics rest
  | arg :: _ => ofFlag arg

end Request

end EntityRelation.CommandLine
