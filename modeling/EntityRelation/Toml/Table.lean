import EntityRelation.Tree

/-!
# Tables in TOML

A table is made in one of three ways: by a heading of its own, as a step on the way to another
heading, or as a step of a key with dots. Only what a step made may be made again: a heading may
take a table that was a step to another heading, and a key with dots may go on through tables that
were steps. Everything else that is said twice is a mistake.
-/

namespace EntityRelation.Toml

/-- What made a table. -/
inductive Origin where
  /-- A heading. -/
  | heading
  /-- A step on the way to a heading. -/
  | headingStep
  /-- A step of a key with dots. -/
  | keyStep
  deriving DecidableEq, Repr

/-- What stands at a key of a table. -/
inductive Item where
  /-- A value. -/
  | value (t : Tree)
  /-- A table. -/
  | table (origin : Origin) (fields : List (String × Item))
  /-- A list of tables, the last one first. -/
  | tables (items : List (List (String × Item)))

/-- The fields of a table. -/
abbrev Fields := List (String × Item)

namespace Fields

/-- The fields with a new item at a key. -/
def set (key : String) (item : Item) : Fields → Fields
  | [] => [(key, item)]
  | f :: rest => if f.1 = key then (key, item) :: rest else f :: set key item rest

/-- The fields with a value at the end of a key with dots. -/
def insert : List String → String → Tree → Fields → Option Fields
  | [], key, value, fields =>
    if (fields.lookup key).isSome then none else some (fields ++ [(key, .value value)])
  | step :: path, key, value, fields =>
    match fields.lookup step with
    | none => do
      let sub ← insert path key value []
      some (fields ++ [(step, .table .keyStep sub)])
    | some (.table o sub) =>
      if o = .heading ∨ (path.isEmpty ∧ o ≠ .keyStep) then none
      else do
        let sub ← insert path key value sub
        some (set step (.table o sub) fields)
    | some (.tables (last :: items)) =>
      if path.isEmpty then none
      else do
        let last ← insert path key value last
        some (set step (.tables (last :: items)) fields)
    | some _ => none

/-- The fields with the table at the end of the steps to a heading changed. -/
def descend (change : Fields → Option Fields) : List String → Fields → Option Fields
  | [], fields => change fields
  | step :: path, fields =>
    match fields.lookup step with
    | none => do
      let sub ← descend change path []
      some (fields ++ [(step, .table .headingStep sub)])
    | some (.table o sub) => do
      let sub ← descend change path sub
      some (set step (.table o sub) fields)
    | some (.tables (last :: items)) => do
      let last ← descend change path last
      some (set step (.tables (last :: items)) fields)
    | some _ => none

end Fields

/-- A key with dots: its steps and its last part. -/
structure Key where
  /-- The steps. -/
  path : List String
  /-- The last part. -/
  last : String

/-- A key and its value. -/
structure Entry where
  /-- The key. -/
  key : Key
  /-- The value. -/
  value : Tree

/-- The fields with the entries after them. -/
def Fields.insertAll (fields : Fields) (entries : List Entry) : Option Fields :=
  entries.foldlM (fun fs e => fs.insert e.key.path e.key.last e.value) fields

/-- A heading: one table, or one more table of a list. -/
structure Heading where
  /-- The heading adds a table to a list. -/
  isItem : Bool
  /-- What it is a heading of. -/
  key : Key

/-- The fields of a table with a heading's entries at its last part. -/
def Fields.addItem (parent : Fields) (h : Heading) (entries : List Entry) : Option Fields :=
  match h.isItem, parent.lookup h.key.last with
  | true, none => do
    let sub ← Fields.insertAll [] entries
    some (parent.set h.key.last (.tables [sub]))
  | true, some (.tables items) => do
    let sub ← Fields.insertAll [] entries
    some (parent.set h.key.last (.tables (sub :: items)))
  | false, none => do
    let sub ← Fields.insertAll [] entries
    some (parent.set h.key.last (.table .heading sub))
  | false, some (.table .headingStep sub) => do
    let sub ← Fields.insertAll sub entries
    some (parent.set h.key.last (.table .heading sub))
  | _, _ => none

/-- The fields with a heading and its entries after them. -/
def Fields.addSection (fields : Fields) (h : Heading) (entries : List Entry) : Option Fields :=
  Fields.descend (fun parent => parent.addItem h entries) h.key.path fields

mutual

/-- The tree at a key. -/
def Item.tree : Item → Tree
  | .value t => t
  | .table _ fields => .record (fieldTrees fields)
  | .tables items => .list (tableTrees items).reverse

/-- The trees at the keys of a table. -/
def fieldTrees : List (String × Item) → List (String × Tree)
  | [] => []
  | f :: rest => (f.1, f.2.tree) :: fieldTrees rest

/-- The trees of tables. -/
def tableTrees : List (List (String × Item)) → List Tree
  | [] => []
  | fields :: rest => .record (fieldTrees fields) :: tableTrees rest

end

end EntityRelation.Toml
