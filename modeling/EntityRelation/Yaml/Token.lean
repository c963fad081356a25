import EntityRelation.Yaml.Scalar

/-!
# Tokens of YAML

A YAML text as signs, names and scalars, with the lists and records that indentation makes opened
and closed by signs of their own. A record outside brackets opens when its first colon comes, and
its first key stands before the colon; so a place where a key may have started is remembered until
the line ends, and the signs are put there afterwards.
-/

namespace EntityRelation.Yaml

/-- A piece of a YAML text. -/
inductive Token where
  /-- The version of the format. -/
  | version (major minor : Nat)
  /-- What a handle of marks stands for. -/
  | handle (name start : String)
  /-- A document begins. -/
  | documentStart
  /-- A document ends. -/
  | documentEnd
  /-- A list that is told by its indentation begins. -/
  | blockList
  /-- A record that is told by its indentation begins. -/
  | blockRecord
  /-- What was told by its indentation ends. -/
  | blockEnd
  /-- A list between brackets begins. -/
  | openList
  /-- A list between brackets ends. -/
  | closeList
  /-- A record between braces begins. -/
  | openRecord
  /-- A record between braces ends. -/
  | closeRecord
  /-- An item follows. -/
  | item
  /-- A comma. -/
  | comma
  /-- A key follows. -/
  | key
  /-- A value follows. -/
  | value
  /-- What was given this name stands here too. -/
  | alias (name : String)
  /-- What follows gets this name. -/
  | anchor (name : String)
  /-- What follows has this mark. -/
  | tag (handle rest : String)
  /-- A scalar. -/
  | scalar (text : String) (plain : Bool)
  deriving DecidableEq, Repr

/-- A place where a key may have started. -/
structure PendingKey where
  /-- The number of tokens before it. -/
  before : Nat
  /-- Nothing but a key can start there. -/
  required : Bool
  /-- The place. -/
  start : Cursor

/-- How far the tokens of a text have been told. -/
structure Scanner where
  /-- What follows. -/
  place : Cursor
  /-- The tokens before it. -/
  tokens : Array Token := #[]
  /-- The columns of the lists and records that are open by indentation, the innermost first. -/
  indents : List Nat := []
  /-- The number of brackets that are open. -/
  depth : Nat := 0
  /-- A key may start here. -/
  keyAllowed : Bool := true
  /-- For every open bracket, the innermost first, and for the text around them all: the place where
  a key may have started. -/
  pending : List (Option PendingKey) := [none]

namespace Scanner

/-- Brackets are open. -/
def inFlow (s : Scanner) : Bool := s.depth != 0

/-- The least column of what belongs to the innermost list or record. -/
def inner (s : Scanner) : Nat :=
  match s.indents with
  | [] => 0
  | i :: _ => i + 1

/-- The place after some characters of the line. -/
def advance (s : Scanner) (n : Nat) : Scanner := { s with place := s.place.advance n }

/-- A token is told. -/
def push (s : Scanner) (t : Token) : Scanner := { s with tokens := s.tokens.push t }

/-- Whether a key may start here is settled. -/
def allowKey (s : Scanner) (b : Bool) : Scanner := { s with keyAllowed := b }

/-! ### Indentation -/

/-- Everything that is indented by more than `column` is closed. -/
def unroll (column : Nat) (s : Scanner) : Scanner :=
  let closed := s.indents.takeWhile (column < ·)
  { s with
    indents := s.indents.dropWhile (column < ·)
    tokens := s.tokens ++ closed.map fun _ => Token.blockEnd }

/-- Everything that is open by indentation is closed. -/
def unrollAll (s : Scanner) : Scanner :=
  { s with indents := [], tokens := s.tokens ++ s.indents.map fun _ => Token.blockEnd }

/-- A token is put after the first `n` ones. -/
def insert (s : Scanner) (n : Nat) (t : Token) : Scanner :=
  { s with tokens := s.tokens.insertIdxIfInBounds n t }

/-- A list or record is opened at a column after the first `n` tokens, if the column is deeper than
what is open. -/
def roll (column n : Nat) (t : Token) (s : Scanner) : Scanner :=
  if !s.inFlow ∧ s.inner ≤ column then
    { s.insert n t with indents := column :: s.indents }
  else s

/-! ### Places where a key may have started -/

/-- The place is given up; a mistake where nothing but a key could start. -/
def giveUp : Option PendingKey → Option (Option PendingKey)
  | some k => if k.required then none else some none
  | none => some none

/-- The line of the place has ended, or it is too far back. -/
def PendingKey.isStale (c : Cursor) (k : PendingKey) : Bool :=
  decide (k.start.line < c.line) || decide (k.start.index + 1024 < c.index)

/-- The places whose line has ended are given up. -/
def dropStale? (s : Scanner) : Option Scanner := do
  let pending ← s.pending.mapM fun k =>
    if k.any (PendingKey.isStale s.place) then giveUp k else some k
  some { s with pending }

/-- The innermost place is given up. -/
def dropKey? (s : Scanner) : Option Scanner := do
  match s.pending with
  | [] => some s
  | k :: rest => some { s with pending := (← giveUp k) :: rest }

/-- A key may start here. -/
def saveKey? (s : Scanner) : Option Scanner := do
  if !s.keyAllowed then some s
  else
    let s ← s.dropKey?
    let required := !s.inFlow && s.indents.head? == some s.place.column
    some { s with pending := some ⟨s.tokens.size, required, s.place⟩ :: s.pending.tail }

/-! ### Signs -/

/-- A sign of one character after which no key starts, or one does. -/
def sign (t : Token) (keyAllowed : Bool) (s : Scanner) : Scanner :=
  ((s.push t).allowKey keyAllowed).advance 1

/-- An opening bracket. -/
def open? (t : Token) (s : Scanner) : Option Scanner := do
  let s ← s.saveKey?
  some (sign t true { s with depth := s.depth + 1, pending := none :: s.pending })

/-- A closing bracket. -/
def close? (t : Token) (s : Scanner) : Option Scanner := do
  let s ← s.dropKey?
  let s := if s.inFlow then { s with depth := s.depth - 1, pending := s.pending.tail } else s
  some (sign t false s)

/-- The sign of an item or a key, which opens a list or a record where it may start one. -/
def entry? (opening t : Token) (s : Scanner) : Option Scanner := do
  if !s.inFlow ∧ !s.keyAllowed then none
  else
    let s := s.roll s.place.column s.tokens.size opening
    let s ← s.dropKey?
    some (sign t (!s.inFlow || t == .item) s)

/-- A colon. The key before it, if there is one, is marked as such. -/
def value? (s : Scanner) : Option Scanner := do
  match s.pending with
  | some k :: rest =>
    let s := (s.insert k.before .key).roll k.start.column k.before .blockRecord
    some (sign .value false { s with pending := none :: rest })
  | _ =>
    if !s.inFlow ∧ !s.keyAllowed then none
    else
      let s := s.roll s.place.column s.tokens.size .blockRecord
      some (sign .value (!s.inFlow) s)

/-- The line that begins or ends a document. -/
def marker? (t : Token) (s : Scanner) : Option Scanner := do
  let s ← s.unrollAll.dropKey?
  some (((s.push t).allowKey false).advance 3)

/-! ### Names and marks -/

/-- The character may stand in a name. -/
def isNameChar (c : Char) : Bool := c.isAlphanum || c == '_' || c == '-'

/-- The character may stand in a mark. -/
def isTagChar (c : Char) : Bool :=
  isNameChar c || (";/?:@&=+$.!~*'()".toList).contains c

/-- A name after its sign. -/
def name? (make : String → Token) (s : Scanner) : Option Scanner := do
  let s ← s.saveKey?
  let (name, c) := s.place.skip.takeWhile isNameChar
  let ends := atGap c.rest || c.rest.head?.any fun x => ("?:,]\x7d%@".toList).contains x
    || x == '\x60'
  if name.isEmpty ∨ !ends then none
  else some ({ s with place := c }.push (make (String.ofList name)) |>.allowKey false)

/-- The characters of a mark, in which others are written by their codes. -/
def uri? (verbatim : Bool) : Nat → Cursor → Option (List Char × Cursor)
  | 0, _ => none
  | fuel + 1, c =>
    match c.rest with
    | '%' :: a :: b :: _ =>
      if (Json.hex? [a, b]).isSome then do
        let (cs, c) ← uri? verbatim fuel (c.advance 3)
        some ('%' :: a :: b :: cs, c)
      else none
    | x :: _ =>
      if isTagChar x ∨ verbatim ∧ [',', '[', ']'].contains x then do
        let (cs, c) ← uri? verbatim fuel (c.advance 1)
        some (x :: cs, c)
      else if x = '%' then none
      else some ([], c)
    | [] => some ([], c)

/-- The handle of a mark: an exclamation mark, a name, and another one if it is there. -/
def tagHandle (c : Cursor) : List Char × Cursor :=
  let (name, c) := c.skip.takeWhile isNameChar
  match c.rest with
  | '!' :: _ => ('!' :: name ++ ['!'], c.advance 1)
  | _ => ('!' :: name, c)

/-- The handle and the rest of a mark, and the place after it. A mark between angle brackets has no
handle, and neither has a single exclamation mark. -/
def tagParts? (c : Cursor) : Option (List Char × List Char × Cursor) := do
  let fuel := c.rest.length + 1
  match c.rest with
  | _ :: '<' :: _ =>
    let (cs, c) ← uri? true fuel (c.advance 2)
    if cs.isEmpty ∨ c.rest.head? ≠ some '>' then none else some ([], cs, c.advance 1)
  | _ =>
    let (handle, c) := tagHandle c
    if handle.length > 1 ∧ handle.getLast? = some '!' then
      let (cs, c) ← uri? false fuel c
      if cs.isEmpty then none else some (handle, cs, c)
    else
      let (cs, c) ← uri? false fuel c
      match handle.tail ++ cs with
      | [] => some ([], ['!'], c)
      | cs => some (['!'], cs, c)

/-- A mark. -/
def tag? (s : Scanner) : Option Scanner := do
  let s ← s.saveKey?
  let (handle, rest, c) ← tagParts? s.place
  if atGap c.rest ∨ s.inFlow ∧ c.rest.head? = some ',' then
    some ({ s with place := c }.push (.tag (String.ofList handle) (String.ofList rest))
      |>.allowKey false)
  else none

/-! ### Directives -/

/-- The number of a version, and the place after it. -/
def versionNumber? (c : Cursor) : Option (Nat × Cursor) :=
  let (ds, c) := c.takeWhile Char.isDigit
  if ds.isEmpty ∨ 9 < ds.length then none
  else some (ds.foldl (fun n d => 10 * n + (d.toNat - 48)) 0, c)

/-- What a directive with a name says, and the place after it. -/
def directive? (name : List Char) (c : Cursor) : Option (Token × Cursor) := do
  let c := c.skipWhile isBlank
  match String.ofList name with
  | "YAML" =>
    let (major, c) ← versionNumber? c
    if c.rest.head? ≠ some '.' then none
    let (minor, c) ← versionNumber? (c.advance 1)
    some (.version major minor, c)
  | "TAG" =>
    if c.rest.head? ≠ some '!' then none
    let (handle, c) := tagHandle c
    if handle.length > 1 ∧ handle.getLast? ≠ some '!' then none
    if !c.rest.head?.any isBlank then none
    let c := c.skipWhile isBlank
    let (start, c) ← uri? true (c.rest.length + 1) c
    if start.isEmpty ∨ !atGap c.rest then none
    some (.handle (String.ofList handle) (String.ofList start), c)
  | _ => none

/-- A line with a directive. -/
def directiveLine? (s : Scanner) : Option Scanner := do
  let s ← s.unrollAll.dropKey?
  let (name, c) := s.place.skip.takeWhile isNameChar
  if !atGap c.rest then none
  let (t, c) ← directive? name c
  let c := (c.skipWhile isBlank).skipComment
  if !atGap c.rest then none
  some ({ s with place := c.skip }.push t |>.allowKey false)

/-! ### Scalars -/

/-- A plain scalar. -/
def plainScalar? (s : Scanner) : Option Scanner := do
  let s ← s.saveKey?
  let (cs, c, broken) ← plain? s.inFlow s.inner (s.place.rest.length + 1) {} s.place
  some ({ s with place := c }.push (.scalar (String.ofList cs) true) |>.allowKey broken)

/-- A scalar between quotes. -/
def quotedScalar? (quote : Char) (s : Scanner) : Option Scanner := do
  let s ← s.saveKey?
  let c := s.place.skip
  let (cs, c) ← quoted? quote (c.rest.length + 1) c
  some ({ s with place := c }.push (.scalar (String.ofList cs) false) |>.allowKey false)

/-- A scalar that is a block of lines. -/
def blockScalar? (literal : Bool) (s : Scanner) : Option Scanner := do
  let s ← s.dropKey?
  let (cs, c) ← block? literal s.indents.head? s.place.skip
  some ({ s with place := c }.push (.scalar (String.ofList cs) false) |>.allowKey true)

/-! ### The next token -/

/-- The next token starts after blanks, comments and line ends, in at most `fuel` of these. A tab is
blank only where no key may start. -/
def skipGap : Nat → Scanner → Scanner
  | 0, s => s
  | fuel + 1, s =>
    let tabs := s.inFlow || !s.keyAllowed
    let c := (s.place.skipWhile fun x => x == ' ' || tabs && x == '\t').skipComment
    if c.rest.head?.any isBreak then
      skipGap fuel { s with place := c.skip, keyAllowed := s.keyAllowed || !s.inFlow }
    else { s with place := c }

/-- A plain scalar may start with the character. -/
def startsPlain (c : Char) : Bool :=
  !(isBlank c || isBreak c || isFlowSign c || ("-?:#&*!|>'\"%@".toList).contains c || c == '\x60')

/-- The token that starts with a character, or nothing if none does. -/
def token? (x : Char) (rest : List Char) (s : Scanner) : Option Scanner :=
  let gap := atGap rest
  match x with
  | '[' => s.open? .openList
  | '\x7b' => s.open? .openRecord
  | ']' => s.close? .closeList
  | '\x7d' => s.close? .closeRecord
  | ',' => s.dropKey?.map (sign .comma true)
  | '*' => s.name? .alias
  | '&' => s.name? .anchor
  | '!' => s.tag?
  | '\'' => s.quotedScalar? '\''
  | '"' => s.quotedScalar? '"'
  | '-' => if gap then s.entry? .blockList .item else s.plainScalar?
  | '?' => if s.inFlow || gap then s.entry? .blockRecord .key else s.plainScalar?
  | ':' => if s.inFlow || gap then s.value? else s.plainScalar?
  | '|' => if s.inFlow then none else s.blockScalar? true
  | '>' => if s.inFlow then none else s.blockScalar? false
  | x => if startsPlain x then s.plainScalar? else none

/-- All tokens, in at most `fuel` steps. -/
def run? : Nat → Scanner → Option Scanner
  | 0, _ => none
  | fuel + 1, s => do
    let s ← (s.skipGap (s.place.rest.length + 1)).dropStale?
    let s := if s.inFlow then s else s.unroll s.place.column
    match s.place.rest with
    | [] => s.unrollAll.dropKey?
    | x :: rest =>
      let s ←
        if s.place.column = 0 ∧ x = '%' then s.directiveLine?
        else if s.place.atMarker '-' then s.marker? .documentStart
        else if s.place.atMarker '.' then s.marker? .documentEnd
        else s.token? x rest
      run? fuel s

end Scanner

/-- The tokens of a text whose lines end in line feeds or separators. -/
def Token.scan? (cs : List Char) : Option (List Token) :=
  (Scanner.run? (cs.length + 1) { place := { rest := cs } }).map (·.tokens.toList)

end EntityRelation.Yaml
