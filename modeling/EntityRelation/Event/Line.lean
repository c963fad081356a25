import EntityRelation.Diagram.Encode
import EntityRelation.Event
import EntityRelation.Json.Printer

/-!
# Events as lines of a log

An event as one line of text, or as one line of JSON. In text, a value that is shown as it is may
hold line ends of its own.
-/

namespace EntityRelation

/-- A value in a line of text. -/
def EventValue.text : EventValue → String
  | count n => toString n
  | plain s => s
  | quoted s => Json.quote s

/-- A value in a line of JSON. -/
def EventValue.toTree : EventValue → Tree
  | count n => .ofNat n
  | plain s => .text s
  | quoted s => .text s

namespace Event

/-- An event in text: its level, its message and its fields. -/
def textLine (e : Event) : String :=
  " ".intercalate
    (e.level.name :: e.message :: e.fields.map fun (name, v) => name ++ "=" ++ v.text)

/-- An event in JSON. -/
def jsonLine (e : Event) : String :=
  Json.render (.record [("level", .text e.level.name),
    ("fields", .record (("message", .text e.message)
      :: e.fields.map fun (name, v) => (name, v.toTree)))])

/-- An event as a line with its end. -/
def line (json : Bool) (e : Event) : String :=
  (if json then e.jsonLine else e.textLine) ++ "\n"

end Event

end EntityRelation
