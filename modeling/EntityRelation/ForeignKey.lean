import EntityRelation.KeyPlace

/-!
# Foreign keys

What becomes of one end of a link while the classes of a module are written one after the other: a
key of the entity at this end, nothing, or a place in the queue of the junctions. A key refers to
its target directly if the class of the target has been written, by name if it comes later, and in
a way of its own if the target is the class itself.
-/

namespace EntityRelation

/-- How a key refers to its target. -/
inductive Reach where
  /-- The class of the target has been written. -/
  | direct
  /-- The class of the target comes later. -/
  | ahead
  /-- The target is the class itself. -/
  | itself
  deriving DecidableEq, Repr

/-- A key of an entity. -/
structure ForeignKey where
  /-- The number of the link. -/
  link : Nat
  /-- The entity that has the key. -/
  owner : Nat
  /-- The name of the field. -/
  fieldName : String
  /-- The entity that the key refers to. -/
  target : Nat
  /-- How it refers to it. -/
  reach : Reach
  /-- The name of the way back, if it has one. -/
  backref : Option String
  /-- The key may be empty. -/
  nullable : Bool
  /-- The tags of the link. -/
  tags : List Tag
  deriving DecidableEq, Repr

namespace ForeignKey

/-- The field class and the target of a key. -/
def base (s : Schema) (k : ForeignKey) : FieldCall :=
  match k.reach with
  | .direct => ⟨"ForeignKeyField", [.positional (s.nameOf k.target)]⟩
  | .ahead => ⟨"DeferredForeignKey", [.positional (Text.Quoted.literal (s.nameOf k.target))]⟩
  | .itself => ⟨"ForeignKeyField", [.positional (Text.Quoted.literal "self")]⟩

/-- The arguments of a key after the target. -/
def options (k : ForeignKey) : List Argument :=
  (k.backref.map fun b => Argument.keyword "backref" (Text.Quoted.literal b)).toList
    ++ (if k.nullable then [.keyword "null" (boolLiteral true)] else [])
    ++ k.tags.map Tag.argument

/-- The field call of a key. -/
def call (s : Schema) (k : ForeignKey) : FieldCall :=
  let b := k.base s
  { b with arguments := b.arguments ++ k.options }

end ForeignKey

/-- What becomes of one end of a link. -/
inductive Outcome where
  /-- The entity at this end gets a key. -/
  | key (k : ForeignKey)
  /-- The entity at the other end has the key. -/
  | skip
  /-- The link with this number becomes a junction. -/
  | junction (link : Nat)
  deriving DecidableEq, Repr

/-- The word for an outcome. -/
def Outcome.word : Outcome → String
  | key _ => "emit"
  | skip => "skip"
  | junction _ => "defer"

/-- How far the writing of the classes has come. -/
structure Progress where
  /-- The entities whose classes have been written. -/
  written : List Nat := []
  /-- The links that become junctions, in the order in which they were met. -/
  queued : List Nat := []
  deriving DecidableEq, Repr

namespace Progress

/-- The class of an entity has been written. -/
def write (p : Progress) (entity : Nat) : Progress := { p with written := entity :: p.written }

/-- The class of the entity has been written. -/
def isWritten (p : Progress) (entity : Nat) : Bool := p.written.contains entity

/-- The link is in the queue. -/
def isQueued (p : Progress) (link : Nat) : Bool := p.queued.contains link

/-- The link is put into the queue, unless it is there. -/
def queue (p : Progress) (link : Nat) : Progress :=
  if p.isQueued link then p else { p with queued := p.queued ++ [link] }

end Progress

/-- The progress after an outcome. -/
def Outcome.advance (o : Outcome) (p : Progress) : Progress :=
  match o with
  | junction link => p.queue link
  | _ => p

namespace Schema

/-- The key of the entity at a side of a link. -/
def keyAt (p : Progress) (l : Link) (side : Side) : ForeignKey :=
  let this := l.endAt side
  let other := l.endAt side.opposite
  { link := l.id
    owner := this.entity
    fieldName := other.name
    target := other.entity
    reach :=
      if this.entity = other.entity then .itself
      else if p.isWritten other.entity then .direct
      else .ahead
    backref := this.givenName
    nullable := other.cardinality.isOptional
    tags := l.tags }

/-- What becomes of the end of a link at a side. -/
def outcome (s : Schema) (p : Progress) (l : Link) (side : Side) : Outcome :=
  match s.keyPlace l side with
  | .here => .key (keyAt p l side)
  | .opposite => .skip
  | .junction => .junction l.id

/-- The event for what becomes of the end of a link at a side. -/
def settledEvent (s : Schema) (l : Link) (side : Side) (o : Outcome) : Event :=
  .endSettled (s.nameOf (l.endAt side).entity) l.id o.word

end Schema

end EntityRelation
