import EntityRelation.Failure
import EntityRelation.FileSystem.Path

/-!
# Trees of files

Files and directories as a value. Every file and directory has a location, the list of names that
lead to it from the root; the root itself is always there. A path is followed name by name from the
root: what is passed on the way has to be a directory, `.` stays and `..` goes back. What a change
does is said by what stands at each location after it (`node?_put`, `node?_clear`, `node?_drop`).
-/

namespace EntityRelation

/-- The names that lead to a file or directory, the outermost first. -/
abbrev Location := List String

/-- A file or a directory. -/
inductive Node where
  /-- A directory. -/
  | directory
  /-- A file with its bytes. -/
  | file (content : ByteArray)

/-- A tree of files and directories. -/
structure FileTree where
  /-- What stands below the root, each location once. -/
  entries : List (Location × Node) := []

namespace FileTree

/-- What stands at a location. -/
def node? (t : FileTree) (l : Location) : Option Node :=
  if l = [] then some .directory else t.entries.lookup l

/-- Something stands at a location, instead of what stood there. -/
def put (t : FileTree) (l : Location) (n : Node) : FileTree :=
  ⟨t.entries.filter (·.1 != l) ++ [(l, n)]⟩

/-- What stands below a location goes. -/
def clear (t : FileTree) (l : Location) : FileTree :=
  ⟨t.entries.filter fun e => !(l.isPrefixOf e.1 && l != e.1)⟩

/-- What stands at a location and below it goes. -/
def drop (t : FileTree) (l : Location) : FileTree :=
  ⟨t.entries.filter fun e => !l.isPrefixOf e.1⟩

/-- Looking up a key among the entries that were kept for their keys. -/
theorem lookup_filter_key (p : Location → Bool) (es : List (Location × Node)) (l : Location) :
    (es.filter fun e => p e.1).lookup l = if p l then es.lookup l else none := by
  induction es with
  | nil => simp
  | cons e es ih =>
    obtain ⟨k, n⟩ := e
    by_cases hl : l = k
    · subst hl
      by_cases hp : p l = true
      · simp [hp]
      · rw [List.filter_cons_of_neg (by simpa using hp), ih]
        simp [hp]
    · have hne := beq_false_of_ne hl
      by_cases hp : p k = true
      · rw [List.filter_cons_of_pos (by simpa using hp)]
        simp [List.lookup_cons, hne, ih]
      · rw [List.filter_cons_of_neg (by simpa using hp), ih]
        simp [List.lookup_cons, hne]

/-- What is put somewhere stands there, and all else stands where it stood. -/
theorem node?_put (t : FileTree) (l : Location) (n : Node) (k : Location) :
    (t.put l n).node? k =
      if k = [] then some .directory else if k = l then some n else t.node? k := by
  by_cases hk : k = []
  · simp [node?, hk]
  · have h := lookup_filter_key (· != l) t.entries k
    simp only [node?, put, hk, if_false, List.lookup_append]
    rw [h]
    by_cases hl : k = l
    · simp [hl]
    · simp [List.lookup_cons, hl, beq_false_of_ne hl]

/-- Where something is cleared, all that does not stand below it stays. -/
theorem node?_clear (t : FileTree) (l k : Location) :
    (t.clear l).node? k =
      if k = [] then some .directory else if l.isPrefixOf k && l != k then none else t.node? k := by
  by_cases hk : k = []
  · simp [node?, hk]
  · have h := lookup_filter_key (fun e => !(l.isPrefixOf e && l != e)) t.entries k
    simp only [node?, clear, hk, if_false]
    rw [h]
    by_cases hl : (l.isPrefixOf k && l != k) = true <;> simp [hl]

/-- Where something is dropped, all that does not stand there or below it stays. -/
theorem node?_drop (t : FileTree) (l k : Location) :
    (t.drop l).node? k =
      if k = [] then some .directory else if l.isPrefixOf k then none else t.node? k := by
  by_cases hk : k = []
  · simp [node?, hk]
  · have h := lookup_filter_key (fun e => !l.isPrefixOf e) t.entries k
    simp only [node?, drop, hk, if_false]
    rw [h]
    by_cases hl : l.isPrefixOf k = true <;> simp [hl]

/-! ### Following paths -/

/-- The longest name, in bytes. -/
def maxName : Nat := 255

/-- The longest path, in bytes. -/
def maxPath : Nat := 4095

/-- A name may be as long as this. -/
def checkName (name : String) : Except FileError Unit :=
  if name.utf8ByteSize ≤ maxName then .ok () else .error .nameTooLong

/-- A path may consist of this at all. -/
def checkPath (p : String) : Except FileError Unit :=
  if p.toList.contains '\x00' then .error .badName
  else if p.isEmpty then .error .notFound
  else if maxPath < p.utf8ByteSize then .error .nameTooLong
  else .ok ()

/-- The location to which names lead from a directory. -/
def follow (t : FileTree) : Location → List String → Except FileError Location
  | l, [] => .ok l
  | l, name :: rest =>
    if name = "." then follow t l rest
    else if name = ".." then follow t l.dropLast rest
    else do
      checkName name
      match t.node? (l ++ [name]) with
      | none => .error .notFound
      | some .directory => follow t (l ++ [name]) rest
      | some (.file _) => if rest.isEmpty then .ok (l ++ [name]) else .error .notADirectory

/-- The location of the directory to which names lead from the root. -/
def followToDirectory (t : FileTree) (names : List String) : Except FileError Location :=
  t.follow [] (names ++ ["."])

/-- The location to which a path leads. A slash at its end asks for a directory. -/
def locate (t : FileTree) (p : String) : Except FileError Location := do
  checkPath p
  if Path.endsInSlash p then t.followToDirectory (Path.names p) else t.follow [] (Path.names p)

/-- There is something to which a path leads. -/
def isThere (t : FileTree) (p : String) : Bool := (t.locate p).isOk

/-- There is a directory to which a path leads. -/
def isDirectory (t : FileTree) (p : String) : Bool :=
  match (t.locate p).toOption.bind t.node? with
  | some .directory => true
  | _ => false

/-- The name stands for a directory that is there. -/
def isDots (name : String) : Bool := name == "." || name == ".."

/-- The location that a path names in a directory that is there. The answer is `none` where the path
ends in no name of its own. -/
def place (t : FileTree) (p : String) : Except FileError (Option Location) := do
  checkPath p
  match (Path.names p).getLast? with
  | none => .ok none
  | some name =>
    let l ← t.followToDirectory (Path.names p).dropLast
    if isDots name then .ok none
    else .ok (some (l ++ [name]))

/-! ### Reading and changing -/

/-- The bytes of a file. -/
def read (t : FileTree) (p : String) : Except FileError ByteArray := do
  match t.node? (← t.locate p) with
  | some (.file content) => .ok content
  | some .directory => .error .isADirectory
  | none => .error .notFound

/-- A file gets new bytes. -/
def write (t : FileTree) (p : String) (content : ByteArray) : Except FileError FileTree := do
  match ← t.place p with
  | none => .error .isADirectory
  | some l =>
    if Path.endsInSlash p then .error .isADirectory
    else
      l.getLast?.forM checkName
      match t.node? l with
      | some .directory => .error .isADirectory
      | _ => .ok (t.put l (.file content))

/-- A directory is made. -/
def makeDirectory (t : FileTree) (p : String) : Except FileError FileTree := do
  match ← t.place p with
  | none => .error .alreadyExists
  | some l =>
    l.getLast?.forM checkName
    match t.node? l with
    | some _ => .error .alreadyExists
    | none => .ok (t.put l .directory)

/-- The directory at a location goes after it has been cleared. The path that led there is followed
anew, and has to end in a name of its own. -/
def dropCleared (t : FileTree) (p : String) (l : Location) : Except FileError FileTree := do
  discard (t.followToDirectory (Path.names p).dropLast)
  match (Path.names p).getLast? with
  | none => .error (.other "Device or resource busy (os error 16)")
  | some "." => .error .invalidArgument
  | some ".." => .error .notEmpty
  | some _ => .ok (t.drop l)

/-- The directory to which a path leads is cleared, and then goes. The tree stays cleared where the
directory cannot go; that the path now leads nowhere is no mistake. -/
def removeDirectory (t : FileTree) (p : String) : Except FileError Unit × FileTree :=
  match t.locate p with
  | .error e => (.error e, t)
  | .ok l =>
    match t.node? l with
    | some .directory =>
      match (t.clear l).dropCleared p l with
      | .ok t => (.ok (), t)
      | .error .notFound => (.ok (), t.clear l)
      | .error e => (.error e, t.clear l)
    | _ => (.error .notADirectory, t)

end FileTree

end EntityRelation
