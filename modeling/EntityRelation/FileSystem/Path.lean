/-!
# Paths

A path is a text of names with slashes between them. Repeated slashes count as one, and so do the
names `.` behind others. A path is absolute when it starts with a slash.
-/

namespace EntityRelation.Path

/-- The path starts at the root. -/
def isAbsolute (p : String) : Bool := p.toList.head? == some '/'

/-- A slash is missing at the end of a path to which a name is to be added. -/
def lacksSlash (p : String) : Bool := !p.isEmpty && p.toList.getLast? != some '/'

/-- A path below another one. An absolute path stays what it is. -/
def join (base p : String) : String :=
  if isAbsolute p then p else if lacksSlash base then base ++ "/" ++ p else base ++ p

/-- The names of a path in their order, among them `.` and `..`. -/
def names (p : String) : List String :=
  ((p.toList.splitOn '/').map String.ofList).filter fun name => !name.isEmpty

/-- The path ends in a slash. -/
def endsInSlash (p : String) : Bool := p.toList.getLast? == some '/'

/-- The reversed path without the slashes and names `.` at its end. The root keeps its slash, and a
name that is the whole path stays. -/
def trimmed : List Char → List Char
  | [] => []
  | c :: rest =>
    if c = '/' ∧ !rest.isEmpty ∨ c = '.' ∧ rest.head? = some '/' then trimmed rest else c :: rest

/-- The path of what holds the last name, unless there is no name. -/
def parent? (p : String) : Option String :=
  match trimmed p.toList.reverse with
  | [] => none
  | ['/'] => none
  | cs => some (String.ofList (trimmed (cs.dropWhile (· != '/'))).reverse)

/-- At most `n` paths: a path, what holds it, what holds that, and so on. -/
def upward : Nat → String → List String
  | 0, _ => []
  | n + 1, p =>
    p :: match parent? p with
      | some q => upward n q
      | none => []

/-- A path and all that hold it, the innermost first. -/
def ancestors (p : String) : List String := upward (p.length + 1) p

/-- The last name of a path, unless it is `.` or `..`. -/
def fileName? (p : String) : Option String :=
  match (trimmed p.toList.reverse).takeWhile (· != '/') with
  | [] => none
  | ['.'] => none
  | ['.', '.'] => none
  | cs => some (String.ofList cs.reverse)

/-- What follows the last point of the last name, unless the name starts with it. -/
def extension? (p : String) : Option String := do
  let cs := (← fileName? p).toList.reverse
  match cs.dropWhile (· != '.') with
  | '.' :: _ :: _ => some (String.ofList (cs.takeWhile (· != '.')).reverse)
  | _ => none

end EntityRelation.Path
