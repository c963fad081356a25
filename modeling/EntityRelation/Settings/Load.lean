import EntityRelation.Run
import EntityRelation.Settings.Codec

/-!
# Settings in files

How settings are loaded, and how the log that they ask for is opened before anything else is done
with them.
-/

namespace EntityRelation

variable {m : Type → Type} [Monad m] [FileSystem m]

/-- The settings in a file. -/
def Settings.load (path : String) : Run m Settings := do
  let text ← Run.ask (.settingsUnreadable path) (FileSystem.readText path)
  ExceptT.mk (pure (Settings.ofToml text))

/-- The settings in a file, with complete options for the generator. -/
def Settings.loadValid (path : String) : Run m Settings := do
  let s ← Settings.load path
  ExceptT.mk (pure s.generator.validate)
  return s

/-- Where the log goes: to its file, or else to the standard output if that is asked for. -/
def LogOptions.target? (o : LogOptions) : Option LogTarget :=
  match o.file with
  | some path => some (.file path)
  | none => if o.stdout then some .output else none

/-- A text without regard to the case of ASCII letters. -/
def lowerAscii (s : String) : String := s.map Char.toLower

/-- The log that the options ask for, if they ask for one. -/
def LogOptions.plan? (o : LogOptions) : Option LogPlan :=
  o.target?.map fun target => ⟨target, Level.parse o.level, lowerAscii o.format == "json"⟩

/-- The log is opened. The directory of its file is made if it is missing. -/
def LogPlan.start (plan : LogPlan) : Run m Unit := do
  match plan.target with
  | .file path =>
    match Path.parent? path with
    | some parent => Run.ask .file (FileSystem.makeDirectories parent)
    | none => pure ()
  | .output => pure ()
  Run.ask .file (FileSystem.openLog plan)

/-- The log that the settings ask for is opened. -/
def Settings.startLog (s : Settings) : Run m Unit :=
  match s.logging.bind LogOptions.plan? with
  | some plan => plan.start
  | none => pure ()

end EntityRelation
