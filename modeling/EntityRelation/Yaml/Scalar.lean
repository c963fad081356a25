import EntityRelation.Json.Text
import EntityRelation.Yaml.Cursor

/-!
# Scalars in YAML

A scalar is plain, or stands between quotes, or is a block of lines below a sign. In the first two a
single line end between words counts as a blank and further line ends stay; a block keeps its lines
or folds them in the same way, and says what becomes of the line ends after it.
-/

namespace EntityRelation.Yaml

/-- The blanks and line ends between two words of a scalar. -/
structure Gap where
  /-- The blanks before the first line end. -/
  blanks : List Char := []
  /-- The line ends. -/
  breaks : List Char := []
  /-- A line end before all of these was taken away by a backslash. -/
  escaped : Bool := false

namespace Gap

/-- There is a line end in the gap. -/
def isBroken (g : Gap) : Bool := g.escaped || !g.breaks.isEmpty

/-- There is nothing in the gap. -/
def isEmpty (g : Gap) : Bool := g.blanks.isEmpty && !g.isBroken

/-- What line ends become between two words. -/
def fold : List Char → List Char
  | ['\n'] => [' ']
  | '\n' :: more => more
  | breaks => breaks

/-- What the gap becomes between two words. -/
def text (g : Gap) : List Char :=
  if g.escaped then g.breaks else if g.breaks.isEmpty then g.blanks else fold g.breaks

/-- The gap at a place, after what is already known of it, in at most `fuel` steps. A tab that
starts a line before the column `indent` is a mistake. -/
def read (indent : Nat) : Nat → Gap → Cursor → Option (Gap × Cursor)
  | 0, g, c => some (g, c)
  | fuel + 1, g, c =>
    match c.rest with
    | [] => some (g, c)
    | x :: _ =>
      if isBlank x then
        if !g.isBroken then read indent fuel { g with blanks := g.blanks ++ [x] } c.skip
        else if x = '\t' ∧ c.column < indent then none
        else read indent fuel g c.skip
      else if isBreak x then read indent fuel { g with breaks := g.breaks ++ [x] } c.skip
      else some (g, c)

end Gap

/-! ### Plain scalars -/

/-- The character has a meaning of its own between brackets. -/
def isFlowSign (c : Char) : Bool :=
  c == ',' || c == '[' || c == ']' || c == '\x7b' || c == '\x7d'

/-- The characters of a plain scalar up to the next gap or sign. Between brackets, a colon right
before a sign is a mistake. -/
def plainRun? (inFlow : Bool) : List Char → Option (List Char)
  | [] => some []
  | c :: rest =>
    let next := rest.head?
    if isBlank c ∨ isBreak c then some []
    else if inFlow ∧ c = ':' ∧ (next = some '?' ∨ next.any isFlowSign) then none
    else if c = ':' ∧ atGap rest ∨ inFlow ∧ isFlowSign c then some []
    else (plainRun? inFlow rest).map (c :: ·)

/-- A plain scalar that goes on after a gap, in at most `fuel` steps, where lines are indented by
at least `indent`: its characters, the place after it, and whether a line end comes before that
place. -/
def plain? (inFlow : Bool) (indent : Nat) :
    Nat → Gap → Cursor → Option (List Char × Cursor × Bool)
  | 0, _, _ => none
  | fuel + 1, g, c => do
    if c.atDocumentMarker ∨ c.rest.head? = some '#' then some ([], c, g.isBroken)
    else
      let run ← plainRun? inFlow c.rest
      let lead := if run.isEmpty then [] else g.text
      let g := if run.isEmpty then g else {}
      let c := c.advance run.length
      if !c.rest.isEmpty ∧ atGap c.rest then
        let (g, c) ← g.read indent (c.rest.length + 1) c
        if !inFlow ∧ c.column < indent then some (lead ++ run, c, g.isBroken)
        else
          let (more, c, broken) ← plain? inFlow indent fuel g c
          some (lead ++ run ++ more, c, broken)
      else some (lead ++ run, c, g.isBroken)

/-! ### Scalars in quotes -/

/-- The character that a letter after a backslash stands for. -/
def escaped? (c : Char) : Option Char :=
  match c with
  | '0' => some '\x00'
  | 'a' => some '\x07'
  | 'b' => some '\x08'
  | 't' => some '\t'
  | '\t' => some '\t'
  | 'n' => some '\n'
  | 'v' => some '\x0b'
  | 'f' => some '\x0c'
  | 'r' => some '\r'
  | 'e' => some '\x1b'
  | ' ' => some ' '
  | '"' => some '"'
  | '/' => some '/'
  | '\\' => some '\\'
  | 'N' => some '\u0085'
  | '_' => some '\u00a0'
  | 'L' => some '\u2028'
  | 'P' => some '\u2029'
  | _ => none

/-- The number of digits of an escape that gives a code point. -/
def codeLength? (c : Char) : Option Nat :=
  match c with
  | 'x' => some 2
  | 'u' => some 4
  | 'U' => some 8
  | _ => none

/-- The character of the escape after a backslash, and the place after it. -/
def escape? (c : Cursor) : Option (Char × Cursor) :=
  match c.rest with
  | [] => none
  | x :: rest =>
    match codeLength? x with
    | some n => do
      let ds := rest.take n
      let code ← Json.hex? ds
      if ds.length = n ∧ code.isValidChar then some (Char.ofNat code, c.advance (n + 1)) else none
    | none => (escaped? x).map fun y => (y, c.advance 1)

/-- A scalar up to its closing quote, in at most `fuel` steps. -/
def quoted? (quote : Char) : Nat → Cursor → Option (List Char × Cursor)
  | 0, _ => none
  | fuel + 1, c =>
    match c.rest with
    | [] => none
    | x :: rest =>
      if c.atDocumentMarker then none
      else if x = '\'' ∧ quote = '\'' ∧ rest.head? = some '\'' then do
        let (s, c) ← quoted? quote fuel (c.advance 2)
        some (x :: s, c)
      else if x = quote then some ([], c.advance 1)
      else if x = '\\' ∧ quote = '"' then
        if rest.head?.any isBreak then do
          let (g, c) ← Gap.read 0 c.rest.length { escaped := true } (c.advance 1).skip
          let (s, c) ← quoted? quote fuel c
          some (g.text ++ s, c)
        else do
          let (y, c) ← escape? (c.advance 1)
          let (s, c) ← quoted? quote fuel c
          some (y :: s, c)
      else if isBlank x ∨ isBreak x then do
        let (g, c) ← Gap.read 0 (c.rest.length + 1) {} c
        let (s, c) ← quoted? quote fuel c
        some (g.text ++ s, c)
      else do
        let (s, c) ← quoted? quote fuel (c.advance 1)
        some (x :: s, c)

/-! ### Blocks -/

/-- What becomes of the line ends after a block. -/
inductive Chomp where
  /-- They go. -/
  | strip
  /-- One stays. -/
  | clip
  /-- They stay. -/
  | keep
  deriving DecidableEq

/-- The sign for what becomes of the line ends. -/
def chomp? (cs : List Char) : Option Chomp :=
  match cs with
  | '+' :: _ => some .keep
  | '-' :: _ => some .strip
  | _ => none

/-- The digit for the indentation; a zero is a mistake. -/
def increment? (cs : List Char) : Option (Option Nat) :=
  match cs with
  | d :: _ => if d = '0' then none else if d.isDigit then some (some (d.toNat - 48)) else some none
  | [] => some none

/-- The signs after the sign of a block, in either order, and the place after them. -/
def blockSigns? (c : Cursor) : Option (Chomp × Option Nat × Cursor) := do
  match chomp? c.rest with
  | some chomp =>
    let c := c.advance 1
    let increment ← increment? c.rest
    some (chomp, increment, if increment.isSome then c.advance 1 else c)
  | none =>
    match ← increment? c.rest with
    | some n =>
      let c := c.advance 1
      match chomp? c.rest with
      | some chomp => some (chomp, some n, c.advance 1)
      | none => some (.clip, some n, c)
    | none => some (.clip, none, c)

/-- The empty lines of a block, in at most `fuel` steps: their line ends, the deepest column that
was reached, and the place after them. Without an indentation all spaces at the start of a line
count as blank. -/
def blockBreaks? (indent : Option Nat) :
    Nat → List Char → Nat → Cursor → Option (List Char × Nat × Cursor)
  | 0, breaks, deepest, c => some (breaks, deepest, c)
  | fuel + 1, breaks, deepest, c =>
    let spaces := c.rest.takeWhile (· == ' ')
    let n := match indent with
      | some i => min spaces.length (i - c.column)
      | none => spaces.length
    let c := c.advance n
    let deepest := max deepest c.column
    let shallow := indent.all fun i => c.column < i
    match c.rest with
    | x :: _ =>
      if shallow ∧ x = '\t' then none
      else if isBreak x then blockBreaks? indent fuel (breaks ++ [x]) deepest c.skip
      else some (breaks, deepest, c)
    | [] => some (breaks, deepest, c)

/-- The lines of a block, in at most `fuel` steps: what they make up, the line end after the last
one, the line ends after that, and the place. The line end before the next line is `lead`, the ones
after it are `trail`, and `leadBlank` says that the line before it starts with a blank. -/
def blockLines? (literal : Bool) (indent : Nat) :
    Nat → List Char → List Char → Bool → Cursor →
      Option (List Char × List Char × List Char × Cursor)
  | 0, _, _, _, _ => none
  | fuel + 1, lead, trail, leadBlank, c => do
    if c.column ≠ indent ∨ c.rest.isEmpty then some ([], lead, trail, c)
    else
      let blank := c.rest.head?.any isBlank
      let front :=
        if !literal ∧ lead = ['\n'] ∧ !leadBlank ∧ !blank then
          if trail.isEmpty then [' '] else trail
        else lead ++ trail
      let (line, c) := c.takeWhile fun _ => true
      let lead := c.rest.take 1
      let c := c.skip
      let (trail, _, c) ← blockBreaks? (some indent) (c.rest.length + 1) [] 0 c
      let (more, lead, trail, c) ← blockLines? literal indent fuel lead trail blank c
      some (front ++ line ++ more, lead, trail, c)

/-- A block after its sign, where the lines around it are indented by `outer`, or by nothing at all
if that is `none`. -/
def block? (literal : Bool) (outer : Option Nat) (c : Cursor) : Option (List Char × Cursor) := do
  let (chomp, increment, c) ← blockSigns? c
  let c := (c.skipWhile isBlank).skipComment
  if !atGap c.rest then none
  else
    let c := c.skip
    let indent := increment.map fun n => outer.getD 0 + n
    let (trail, deepest, c) ← blockBreaks? indent (c.rest.length + 1) [] 0 c
    let least := match outer with
      | some o => o + 1
      | none => 1
    let indent := indent.getD (max deepest least)
    let (text, lead, trail, c) ←
      blockLines? literal indent (c.rest.length + 1) [] trail false c
    match chomp with
    | .strip => some (text, c)
    | .clip => some (text ++ lead, c)
    | .keep => some (text ++ lead ++ trail, c)

end EntityRelation.Yaml
