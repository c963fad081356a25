import EntityRelation.Tree.Word

/-!
# Reading a tree

How a place that asks for a text, a truth value, a whole number, a list or a record reads the tree
that stands there. A record is opened by the names of its fields: fields with other names are
passed over, and a field that is given twice is a mistake. A tuple is a record with its fields in
order, the last ones left out at will.
-/

namespace EntityRelation

namespace Tree

/-- The tree without the mark in front of it. -/
def bare : Tree → Tree
  | .marked _ t => t
  | t => t

/-- The text that stands here. -/
def text? (t : Tree) : Option String :=
  match t.bare with
  | .text s => some s
  | .word s => some s
  | _ => none

/-- The truth value that stands here. -/
def bool? (t : Tree) : Option Bool :=
  match t.bare with
  | .bool b => some b
  | .word s => Word.bool? s
  | _ => none

/-- The whole number up to `limit` that stands here. -/
def natural? (limit : Nat) (t : Tree) : Option Nat :=
  match t.bare with
  | .number (.whole n) => if 0 ≤ n ∧ n ≤ limit then some n.toNat else none
  | .word s => (Word.natural? s).filter (· ≤ limit)
  | _ => none

/-- The list that stands here, each item read by `item`. -/
def list? (item : Tree → Option α) (t : Tree) : Option (List α) :=
  match t.bare with
  | .list ts => ts.mapM item
  | .tuple ts => ts.mapM item
  | .word "" => some []
  | _ => none

/-- What stands here, or nothing. A word with a mark is nothing only if the mark says so, and then
it must say so too. -/
def optional? (item : Tree → Option α) (t : Tree) : Option (Option α) :=
  match t with
  | .null => some none
  | .word s => if Word.isNothing s then some none else (item t).map some
  | .marked .nothing (.word s) => if Word.isNull s then some none else none
  | _ => (item t).map some

/-- The scalar that stands here, with a bare word read as what it looks like and one with a mark as
what the mark says. -/
def resolve : Tree → Tree
  | .word s => Word.scalar s
  | .marked m (.word s) => Word.markedScalar m s
  | .marked m (.text s) => Word.markedScalar m s
  | .marked .foreign _ => .invalid
  | t => t

/-- The scalar that stands here stands for no value. -/
def isInvalid : Tree → Bool
  | .invalid => true
  | _ => false

mutual

/-- Some scalar in the tree stands for no value. -/
def hasInvalid : Tree → Bool
  | .list ts => anyInvalid ts
  | .tuple ts => anyInvalid ts
  | .record fs => anyInvalidField fs
  | .marked m t => (Tree.marked m t).resolve.isInvalid || t.hasInvalid
  | t => t.isInvalid

/-- Some scalar in the trees stands for no value. -/
def anyInvalid : List Tree → Bool
  | [] => false
  | t :: ts => t.hasInvalid || anyInvalid ts

/-- Some scalar in the fields stands for no value. -/
def anyInvalidField : List (String × Tree) → Bool
  | [] => false
  | f :: fs => f.2.hasInvalid || anyInvalidField fs

end

end Tree

/-- An opened record. -/
structure Record where
  /-- The fields that are given, each once. -/
  fields : List (String × Tree)
  /-- The fields were told by their places. -/
  positional : Bool

/-- The fields with one of the names, if none of these is given twice. -/
def Record.known? (names : List String) (fields : List (String × Tree)) : Option Record :=
  let known := fields.filter fun f => names.contains f.1
  if (known.map (·.1)).Nodup then some ⟨known, false⟩ else none

/-- The record that stands here, opened by the names of its fields. -/
def Tree.record? (names : List String) (t : Tree) : Option Record :=
  match t.bare with
  | .record fs => Record.known? names fs
  | .tuple ts => if ts.length ≤ names.length then some ⟨names.zip ts, true⟩ else none
  | .word "" => some ⟨[], false⟩
  | _ => none

namespace Record

/-- A field that has to be given. -/
def required? (r : Record) (name : String) (read : Tree → Option α) : Option α :=
  (r.fields.lookup name).bind read

/-- A field with a value for when it is left out. -/
def defaulted? (r : Record) (name : String) (value : α) (read : Tree → Option α) : Option α :=
  match r.fields.lookup name with
  | some t => read t
  | none => some value

/-- A field that may say nothing, and may be left out where fields are told by their names. -/
def optional? (r : Record) (name : String) (read : Tree → Option α) : Option (Option α) :=
  match r.fields.lookup name with
  | some t => t.optional? read
  | none => if r.positional then none else some none

end Record

end EntityRelation
