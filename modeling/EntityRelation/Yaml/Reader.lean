import EntityRelation.Tree.Read
import EntityRelation.Yaml.Token

/-!
# Reading YAML

A YAML text as a tree. A plain scalar is a bare word, every other scalar is a text, and a name that
refers back stands for the tree that got it. A text holds one document at most; a text without one
is an empty word. Every mistake in the text makes the whole of it unreadable.
-/

namespace EntityRelation.Yaml

/-- What is to be read, and what has been read that can be referred to. -/
structure Reading where
  /-- The tokens that are left. -/
  tokens : List Token
  /-- What the handles of marks stand for. -/
  handles : List (String × String) := []
  /-- The numbers of the names. -/
  numbers : List (String × Nat) := []
  /-- The trees with a number. -/
  named : List (Nat × Tree) := []

/-- Reading of a part, which may fail. -/
abbrev Read := StateT Reading Option

/-- The next token. -/
def peek : Read (Option Token) := do return (← get).tokens.head?

/-- The next token is passed over. -/
def skip : Read Unit := modify fun r => { r with tokens := r.tokens.tail }

/-- The next token is passed over, and has to be there. -/
def take : Read Token := do
  match ← peek with
  | some t => do
    skip
    return t
  | none => failure

/-- The next token is one of these. -/
def nextIs (ts : List Token) : Read Bool := do return (← peek).any ts.contains

/-! ### Names and marks -/

/-- A number for a name: the number of other names that were given before. -/
def give (name : String) : Read Nat := do
  let r ← get
  let n := r.numbers.length
  set { r with
    numbers := (name, n) :: r.numbers.filter (·.1 != name)
    named := (n, .invalid) :: r.named }
  return n

/-- A tree gets a number. -/
def store (n : Nat) (t : Tree) : Read Unit :=
  modify fun r => { r with named := (n, t) :: r.named }

/-- The tree that a name stands for. It stands for no value within that tree itself. -/
def lookUp (name : String) : Read Tree := do
  let r ← get
  match (r.numbers.lookup name).bind fun n => r.named.lookup n with
  | some t => return t
  | none => failure

/-- What stands before a node. -/
structure Properties where
  /-- Its name. -/
  anchor : Option String := none
  /-- Its mark, with the handle written out. -/
  tag : Option String := none

/-- What the handles stand for in every document. -/
def commonHandles : List (String × String) := [("!", "!"), ("!!", "tag:yaml.org,2002:")]

/-- A mark with its handle written out. -/
def writtenOut (handle rest : String) : Read String := do
  if handle.isEmpty then return rest
  match ((← get).handles ++ commonHandles).lookup handle with
  | some start => return start ++ rest
  | none => failure

/-- What stands before a node: a name and a mark, in either order. -/
def properties : Read Properties := do
  match ← peek with
  | some (.anchor name) => do
    skip
    match ← peek with
    | some (.tag handle rest) => do
      skip
      return ⟨some name, some (← writtenOut handle rest)⟩
    | _ => return ⟨some name, none⟩
  | some (.tag handle rest) => do
    skip
    match ← peek with
    | some (.anchor name) => do
      skip
      return ⟨some name, some (← writtenOut handle rest)⟩
    | _ => return ⟨none, some (← writtenOut handle rest)⟩
  | _ => return {}

/-- What a mark says. -/
def markOf (tag : String) : Mark :=
  match tag with
  | "tag:yaml.org,2002:null" => .nothing
  | "tag:yaml.org,2002:bool" => .truth
  | "tag:yaml.org,2002:int" => .whole
  | "tag:yaml.org,2002:float" => .real
  | _ => if tag.startsWith "!" then .foreign else .text

namespace Properties

/-- Nothing stands before the node. -/
def isEmpty (p : Properties) : Bool := p.anchor.isNone && p.tag.isNone

/-- The node with its mark. -/
def mark (p : Properties) (t : Tree) : Tree :=
  match p.tag with
  | some tag => .marked (markOf tag) t
  | none => t

/-- A scalar with its mark. A single exclamation mark says nothing of it. -/
def scalar (p : Properties) (text : String) (plain : Bool) : Tree :=
  let t := if plain then .word text else .text text
  if p.tag = some "!" then t else p.mark t

end Properties

/-! ### Nodes -/

/-- What stands where nothing is written. -/
def empty : Tree := .word ""

/-- A record, whose keys have to be scalars. -/
def recordOf (fields : List (Tree × Tree)) : Tree :=
  match fields.mapM fun f => f.1.text?.map fun name => (name, f.2) with
  | some fields => .record fields
  | none => .invalid

mutual

/-- A node, in at most `fuel` steps. Lists and records by indentation only stand where `block` says
so, and a list that is no deeper than the record around it where `flush` says so. -/
def node : Nat → Bool → Bool → Read Tree
  | 0, _, _ => failure
  | fuel + 1, block, flush => do
    match ← peek with
    | some (.alias name) => do
      skip
      lookUp name
    | _ => do
      let p ← properties
      let number ← p.anchor.mapM give
      let t ← content fuel block flush p
      number.forM fun n => store n t
      return t

/-- A node after what stands before it. -/
def content : Nat → Bool → Bool → Properties → Read Tree
  | 0, _, _, _ => failure
  | fuel + 1, block, flush, p => do
    match ← peek, block, flush with
    | some .item, _, true => return p.mark (.list (← flushItems fuel))
    | some (.scalar text plain), _, _ => do
      skip
      return p.scalar text plain
    | some .openList, _, _ => do
      skip
      return p.mark (.list (← flowItems fuel true))
    | some .openRecord, _, _ => do
      skip
      return p.mark (recordOf (← flowFields fuel true))
    | some .blockList, true, _ => do
      skip
      return p.mark (.list (← blockItems fuel))
    | some .blockRecord, true, _ => do
      skip
      return p.mark (recordOf (← blockFields fuel))
    | _, _, _ => if p.isEmpty then failure else return p.mark empty

/-- A node, or nothing if one of the tokens `ends` comes first. -/
def nodeUnless : Nat → List Token → Bool → Bool → Read Tree
  | 0, _, _, _ => failure
  | fuel + 1, ends, block, flush => do
    if ← nextIs ends then return empty else node fuel block flush

/-- The items of a list by indentation. -/
def blockItems : Nat → Read (List Tree)
  | 0 => failure
  | fuel + 1 => do
    match ← take with
    | .blockEnd => return []
    | .item => do
      let t ← nodeUnless fuel [.item, .blockEnd] true false
      return t :: (← blockItems fuel)
    | _ => failure

/-- The items of a list that is no deeper than the record around it. -/
def flushItems : Nat → Read (List Tree)
  | 0 => failure
  | fuel + 1 => do
    if ← nextIs [.item] then
      skip
      let t ← nodeUnless fuel [.item, .key, .value, .blockEnd] true false
      return t :: (← flushItems fuel)
    else return []

/-- The value of a field, or nothing if there is no colon. -/
def fieldValue : Nat → List Token → Bool → Read Tree
  | 0, _, _ => failure
  | fuel + 1, ends, block => do
    if ← nextIs [.value] then
      skip
      nodeUnless fuel ends block block
    else return empty

/-- The fields of a record by indentation. -/
def blockFields : Nat → Read (List (Tree × Tree))
  | 0 => failure
  | fuel + 1 => do
    match ← take with
    | .blockEnd => return []
    | .key => do
      let k ← nodeUnless fuel [.key, .value, .blockEnd] true true
      let v ← fieldValue fuel [.key, .value, .blockEnd] true
      return (k, v) :: (← blockFields fuel)
    | _ => failure

/-- A field that stands as an item of a list between brackets. -/
def loneField : Nat → Read (Tree × Tree)
  | 0 => failure
  | fuel + 1 => do
    if ← nextIs [.value, .comma, .closeList] then
      skip
      return (empty, ← fieldValue fuel [.comma, .closeList] false)
    else
      let k ← node fuel false false
      return (k, ← fieldValue fuel [.comma, .closeList] false)

/-- The items of a list between brackets, with a comma before each but the first. -/
def flowItems : Nat → Bool → Read (List Tree)
  | 0, _ => failure
  | fuel + 1, first => do
    if ← nextIs [.closeList] then
      skip
      return []
    if !first then
      if (← take) != .comma then failure
    match ← peek with
    | some .closeList => do
      skip
      return []
    | some .key => do
      skip
      let f ← loneField fuel
      return recordOf [f] :: (← flowItems fuel false)
    | _ => do
      let t ← node fuel false false
      return t :: (← flowItems fuel false)

/-- The fields of a record between braces, with a comma before each but the first. -/
def flowFields : Nat → Bool → Read (List (Tree × Tree))
  | 0, _ => failure
  | fuel + 1, first => do
    if ← nextIs [.closeRecord] then
      skip
      return []
    if !first then
      if (← take) != .comma then failure
    match ← peek with
    | some .closeRecord => do
      skip
      return []
    | some .key => do
      skip
      let k ← nodeUnless fuel [.value, .comma, .closeRecord] false false
      let v ← fieldValue fuel [.comma, .closeRecord] false
      return (k, v) :: (← flowFields fuel false)
    | _ => do
      let k ← node fuel false false
      return (k, empty) :: (← flowFields fuel false)

end

/-! ### Documents -/

/-- The directives before a document. There is one version at most, of a known number, and each
handle is given a meaning once. -/
def directives : Bool → List Token → Option (List (String × String) × List Token)
  | hasVersion, .version major minor :: ts =>
    if hasVersion ∨ major ≠ 1 ∨ minor ≠ 1 ∧ minor ≠ 2 then none else directives true ts
  | hasVersion, .handle name start :: ts => do
    let (handles, ts) ← directives hasVersion ts
    if handles.any (·.1 == name) then none else some ((name, start) :: handles, ts)
  | _, ts => some ([], ts)

/-- The next token belongs to what stands around documents. -/
def Token.isOutside : Token → Bool
  | .version _ _ => true
  | .handle _ _ => true
  | .documentStart => true
  | .documentEnd => true
  | _ => false

/-- The one document of a text. -/
def document (fuel : Nat) : Read Tree := do
  let (handles, tokens) ← directives false (← get).tokens
  let bare := tokens.length = (← get).tokens.length
  set { (← get) with tokens, handles }
  match ← peek with
  | none => if bare then return empty else failure
  | some .documentStart => do
    skip
    match ← peek with
    | none => return empty
    | some t => if t.isOutside then return empty else node fuel true false
  | some _ => if bare then node fuel true false else failure

/-- The text with its lines ended by line feeds or separators. -/
def normalLines : List Char → List Char
  | '\r' :: '\n' :: cs => '\n' :: normalLines cs
  | '\r' :: cs => '\n' :: normalLines cs
  | '\u0085' :: cs => '\n' :: normalLines cs
  | c :: cs => c :: normalLines cs
  | [] => []

/-- The character may stand in a text. -/
def isAllowed (c : Char) : Bool :=
  ['\t', '\n', '\r', '\u0085'].contains c || (' ' ≤ c && c ≤ '~')
    || ('\u00a0' ≤ c && c ≤ '\ufffd' && c != '\ufeff') || 65536 ≤ c.toNat

/-- The tree of a text. -/
def parse? (s : String) : Option Tree := do
  let cs := match s.toList with
    | '\ufeff' :: cs => cs
    | cs => cs
  if !cs.all isAllowed then none
  let tokens ← Token.scan? (normalLines cs)
  let (t, r) ← (document (8 * tokens.length + 8)).run { tokens }
  if r.tokens.all (· == .documentEnd) then some t else none

end EntityRelation.Yaml
