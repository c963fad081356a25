/-!
# Failures

What can go wrong, by cause. A failure that lies in a part of the diagram is a flaw of that part.
Each cause has a message, and a failure of the file system is itself the cause of the failure that
reports it.
-/

namespace EntityRelation

/-- What the file system refuses. -/
inductive FileError where
  | notFound | alreadyExists | notADirectory | isADirectory | invalidArgument | nameTooLong
  | notEmpty
  /-- The name of a file holds a character that no name may hold. -/
  | badName
  /-- The bytes of a file are no text. -/
  | notText
  /-- Any other refusal, in the words of the system. -/
  | other (text : String)
  deriving DecidableEq, Repr

/-- The words for a refusal. -/
def FileError.text : FileError → String
  | notFound => "No such file or directory (os error 2)"
  | alreadyExists => "File exists (os error 17)"
  | notADirectory => "Not a directory (os error 20)"
  | isADirectory => "Is a directory (os error 21)"
  | invalidArgument => "Invalid argument (os error 22)"
  | nameTooLong => "File name too long (os error 36)"
  | notEmpty => "Directory not empty (os error 39)"
  | badName => "file name contained an unexpected NUL byte"
  | notText => "stream did not contain valid UTF-8"
  | other text => text

/-- What is wrong with a part of a diagram. -/
inductive Flaw where
  /-- No package has this name. -/
  | noSuchPackage
  /-- The diagram has no packages. -/
  | noPackages
  /-- The diagram has several packages, and none was chosen. -/
  | severalPackages (names : List String)
  /-- The entity at this place of the package, counted from one, has a blank name. -/
  | unnamedEntity (place : Nat)
  /-- Two entities have this name. -/
  | repeatedEntity
  /-- An end refers to an entity that is not there. -/
  | unknownEntity (reference : String)
  /-- An end has a cardinality that means nothing. -/
  | unknownCardinality (marker : String)
  /-- A flaw in the words of whoever found it. -/
  | stated (text : String)
  deriving DecidableEq, Repr

/-- A cardinality that means nothing, in words. -/
def unknownCardinalityText (marker : String) : String := "unrecognized cardinality `" ++ marker ++ "`"

/-- The words for a flaw. -/
def Flaw.text : Flaw → String
  | noSuchPackage => "no such package in model"
  | noPackages => "model contains no packages"
  | severalPackages names =>
    "model contains several packages, choose one of: " ++ ", ".intercalate names
  | unnamedEntity place => s!"entity #{place} has no name"
  | repeatedEntity => "entity name is declared more than once"
  | unknownEntity reference => "end references unknown entity `" ++ reference ++ "`"
  | unknownCardinality marker => unknownCardinalityText marker
  | stated text => text

/-- Why a run failed. -/
inductive Failure where
  /-- A required option of the generator is missing or blank. -/
  | missingOption (name : String)
  /-- Lines are to be indented by no spaces. -/
  | noIndent
  /-- The settings could not be read from a file. -/
  | settingsUnreadable (path : String) (cause : FileError)
  /-- The settings are not well formed. -/
  | settingsMalformed
  /-- A part of the diagram has a flaw. -/
  | flawed (element : String) (flaw : Flaw)
  /-- A text names no column type. -/
  | unknownType (type : String)
  /-- The type of a column names no column type. -/
  | unknownTypeOf (column type : String)
  /-- The type of a column of an entity names no column type. -/
  | unknownTypeIn (entity column type : String)
  /-- No dependency among the waiting entities can be given up. -/
  | stalled (waiting : Nat)
  /-- The file system refuses. -/
  | file (cause : FileError)
  /-- A diagram is not well formed. -/
  | diagramMalformed
  /-- Files with this extension hold no diagram. -/
  | unknownFormat (extension path : String)
  deriving DecidableEq, Repr

namespace Failure

/-- What a failure says. -/
def message : Failure → String
  | missingOption name =>
    "Configuration error: Missing required option `generator." ++ name ++ "`"
  | noIndent =>
    "Configuration error: indent_spaces must be greater than zero when use_tab is disabled"
  | settingsUnreadable path cause =>
    "Configuration error: Failed to read config file " ++ path ++ ": " ++ cause.text
  | settingsMalformed => "Configuration error: Failed to parse config file"
  | flawed element flaw => "Data model error in " ++ element ++ ": " ++ flaw.text
  | unknownType type => "Type mapping error: Unsupported column type: " ++ type
  | unknownTypeOf column type =>
    "Type mapping error: Unsupported column type `" ++ type ++ "` for column " ++ column
  | unknownTypeIn entity column type =>
    "Type mapping error: Unsupported column type `" ++ type ++ "` for " ++ entity ++ "." ++ column
  | stalled waiting =>
    s!"Internal invariant violated: no removable dependency edge among {waiting} stalled entities"
  | file cause => "IO error: " ++ cause.text
  | diagramMalformed => "Serialization error: Failed to parse model"
  | unknownFormat extension path =>
    "Serialization error: Unsupported model format `" ++ extension ++ "` for " ++ path

/-- The message of a failure and, after it, the message of what caused it. -/
def chain (f : Failure) : List String :=
  match f with
  | file cause => [f.message, cause.text]
  | _ => [f.message]

end Failure

end EntityRelation
