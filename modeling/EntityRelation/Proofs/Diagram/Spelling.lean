import EntityRelation.Diagram.Decode
import EntityRelation.Diagram.Encode
import EntityRelation.Proofs.Tree.Spelling

/-!
# Diagrams in JSON values

Many JSON values stand for one diagram. `Diagram.SpelledBy` tells which: every part is a record with
the names of its fields and what each of them spells; the fields stand in any order and among
others, a list may stand for the record of every part but a tag, and a field may be left out if the
part has the value that stands for this. A tag has its kind and its value side by side with its
name, and only the two together spell the value.

One of these values is the tree of the diagram, in which every field of every part is given, null
for a name that there is not. **`Diagram.spellings_read`**: the tree of a diagram is a JSON value
and is read as the diagram; a JSON value is read as a diagram exactly if it spells it; and so all
values that spell a diagram have its tree as their normal form, whatever they leave out, add or
reorder.

The reader and the printer of each part know nothing of each other. Both are held against the
spellings of the part, the reader on all JSON values (`Column.agrees` and so on) and the printer on
its tree (`Column.spelledBy_toTree` and so on).
-/

namespace EntityRelation

open EntityRelation.Tree EntityRelation.Record

/-! ### Spellings -/

/-- A tree spells the value of a tag beside the name of its kind. -/
inductive TagValue.SpelledBy : TagValue → String → Tree → Prop where
  /-- A text. -/
  | text (s : String) : SpelledBy (.text s) "string" (.text s)
  /-- A number. -/
  | number (n : Number) : SpelledBy (.number n) "number" (.number n)
  /-- A truth value. -/
  | flag (b : Bool) : SpelledBy (.flag b) "boolean" (.bool b)
  /-- The name of an element. -/
  | element (s : String) : SpelledBy (.element s) "reference" (.text s)

/-- The fields of a tag. -/
structure Tag.GivenBy (g : Tag) (given : String → Option Tree) : Prop where
  /-- The name. -/
  name : SpellsAt SpellsText g.name (given "name")
  /-- The kind, and a value of this kind. -/
  value : ∃ kind, SpellsAt SpellsText kind (given "kind") ∧
    SpellsAt (fun v t => v.SpelledBy kind t) g.value (given "value")

/-- A tree spells a tag. It is a record, and no list stands for it. -/
def Tag.SpelledBy (g : Tag) (t : Tree) : Prop :=
  (∃ fs, t = .record fs) ∧ SpellsRecord ["name", "kind", "value"] Tag.GivenBy g t

/-- The fields of a column. -/
structure Column.GivenBy (c : Column) (given : String → Option Tree) : Prop where
  /-- The name. -/
  name : SpellsAt SpellsText c.name (given "name")
  /-- The type as it was written. -/
  type : SpellsAt SpellsText c.type (given "type")
  /-- The length, zero if it is left out. -/
  length : SpellsAtOr (fun n => SpellsNatural n.toNat) 0 c.length (given "length")
  /-- Whether the column may be empty. -/
  nullable : SpellsAtOr SpellsBool false c.nullable (given "nullable")
  /-- Whether no value stands in it twice. -/
  unique : SpellsAtOr SpellsBool false c.unique (given "unique")
  /-- Whether it is the primary key. -/
  primaryKey : SpellsAtOr SpellsBool false c.primaryKey (given "primary_key")

/-- A tree spells a column. -/
def Column.SpelledBy : Column → Tree → Prop :=
  SpellsRecord ["name", "type", "length", "nullable", "unique", "primary_key"] Column.GivenBy

/-- The fields of an entity. -/
structure Entity.GivenBy (e : Entity) (given : String → Option Tree) : Prop where
  /-- The name. -/
  name : SpellsAt SpellsText e.name (given "name")
  /-- What the modeller wrote, nothing if it is left out. -/
  documentation : SpellsAtOr SpellsText "" e.documentation (given "documentation")
  /-- The columns, none if they are left out. -/
  columns : SpellsAtOr (SpellsList Column.SpelledBy) [] e.columns (given "columns")
  /-- The tags, none if they are left out. -/
  tags : SpellsAtOr (SpellsList Tag.SpelledBy) [] e.tags (given "tags")

/-- A tree spells an entity. -/
def Entity.SpelledBy : Entity → Tree → Prop :=
  SpellsRecord ["name", "documentation", "columns", "tags"] Entity.GivenBy

/-- The fields of an end of a relationship. -/
structure End.GivenBy (e : End) (given : String → Option Tree) : Prop where
  /-- The name of the entity at this end. -/
  reference : SpellsAt SpellsText e.reference (given "reference")
  /-- The cardinality as it was written. -/
  cardinality : SpellsAt SpellsText e.cardinality (given "cardinality")
  /-- The name, none if it is left out. -/
  name : SpellsAtOr SpellsOption none e.name (given "name")
  /-- Whether there is an arrow here. There is if it is left out. -/
  navigable : SpellsAtOr SpellsBool true e.navigable (given "navigable")

/-- A tree spells an end of a relationship. -/
def End.SpelledBy : End → Tree → Prop :=
  SpellsRecord ["reference", "cardinality", "name", "navigable"] End.GivenBy

/-- The fields of a relationship. -/
structure Relationship.GivenBy (r : Relationship) (given : String → Option Tree) : Prop where
  /-- The name, none if it is left out. -/
  name : SpellsAtOr SpellsOption none r.name (given "name")
  /-- The first end. -/
  first : SpellsAt End.SpelledBy r.first (given "end1")
  /-- The second end. -/
  second : SpellsAt End.SpelledBy r.second (given "end2")
  /-- The tags, none if they are left out. -/
  tags : SpellsAtOr (SpellsList Tag.SpelledBy) [] r.tags (given "tags")

/-- A tree spells a relationship. -/
def Relationship.SpelledBy : Relationship → Tree → Prop :=
  SpellsRecord ["name", "end1", "end2", "tags"] Relationship.GivenBy

/-- The fields of a package. -/
structure Package.GivenBy (p : Package) (given : String → Option Tree) : Prop where
  /-- The name. -/
  name : SpellsAt SpellsText p.name (given "name")
  /-- What the modeller wrote, nothing if it is left out. -/
  documentation : SpellsAtOr SpellsText "" p.documentation (given "documentation")
  /-- The entities, none if they are left out. -/
  entities : SpellsAtOr (SpellsList Entity.SpelledBy) [] p.entities (given "entities")

/-- A tree spells a package. -/
def Package.SpelledBy : Package → Tree → Prop :=
  SpellsRecord ["name", "documentation", "entities"] Package.GivenBy

/-- The fields of a diagram. -/
structure Diagram.GivenBy (d : Diagram) (given : String → Option Tree) : Prop where
  /-- The name, empty if it is left out. -/
  name : SpellsAtOr SpellsText "" d.name (given "name")
  /-- The packages, none if they are left out. -/
  packages : SpellsAtOr (SpellsList Package.SpelledBy) [] d.packages (given "packages")
  /-- The relationships, none if they are left out. -/
  relationships :
    SpellsAtOr (SpellsList Relationship.SpelledBy) [] d.relationships (given "relationships")

/-- A tree spells a diagram. -/
def Diagram.SpelledBy : Diagram → Tree → Prop :=
  SpellsRecord ["name", "packages", "relationships"] Diagram.GivenBy

/-! ### What is read -/

theorem agrees_length : Agrees (fun t => (t.natural? Column.maxLength).map UInt32.ofNat)
    fun n t => SpellsNatural n.toNat t := by
  intro t ht n
  have hmax : Column.maxLength = 2 ^ 32 - 1 := rfl
  simp only [Option.map_eq_some_iff, agrees_natural _ ht]
  constructor
  · rintro ⟨m, ⟨hm, hs⟩, rfl⟩
    rwa [UInt32.toNat_ofNat_of_lt' (Nat.lt_of_le_of_lt hm (by decide))]
  · intro hs
    have hlt := n.toNat_lt
    exact ⟨n.toNat, ⟨by omega, hs⟩, UInt32.ofNat_toNat⟩

theorem TagValue.agrees (kind : String) :
    Agrees (TagValue.ofTree? kind) fun v t => v.SpelledBy kind t := by
  intro t ht v
  unfold ofTree?
  rw [ht.resolve_eq]
  constructor
  · intro h
    split at h <;> cases h <;> constructor
  · rintro ⟨⟩ <;> rfl

theorem agrees_kind : Agrees (fun t => match t.resolve with
    | .text s => some s
    | _ => none) SpellsText := by
  intro t ht s
  dsimp only
  rw [ht.resolve_eq]
  cases ht <;> simp [SpellsText]

theorem Tag.agrees : Agrees Tag.ofTree? Tag.SpelledBy := by
  intro t ht g
  -- a tag is the one part for which no list may stand
  cases ht with
  | @record fs hfs =>
    have hjson : (Tree.record fs).IsJson := .record hfs
    have hvalid : (Tree.record fs).hasInvalid = false := hjson.hasInvalid_eq_false
    rw [SpelledBy, and_iff_right ⟨fs, rfl⟩, ofTree?]
    simp only [bare, hvalid, Bool.false_eq_true, if_false]
    refine hjson.bind_record?_eq_some_iff (by decide) fun r hr => ?_
    simp only [Option.bind_eq_bind, Option.bind_eq_some_iff, Option.some.injEq,
      required?_eq_some_iff hr agrees_text, required?_eq_some_iff hr (TagValue.agrees _)]
    constructor
    · rintro ⟨_, hname, kind, hkind, _, hvalue, rfl⟩
      exact ⟨hname, kind, (required?_eq_some_iff hr agrees_kind _ _).1 hkind, hvalue⟩
    · rintro ⟨hname, kind, hkind, hvalue⟩
      have hread := (required?_eq_some_iff hr agrees_kind _ _).2 hkind
      exact ⟨_, hname, kind, hread, _, hvalue, rfl⟩
  | _ => simp [ofTree?, bare, SpelledBy]

theorem Column.agrees : Agrees Column.ofTree? Column.SpelledBy := by
  intro t ht c
  refine ht.bind_record?_eq_some_iff (by decide) fun r hr => ?_
  simp only [Option.bind_eq_bind, Option.bind_eq_some_iff, Option.some.injEq,
    required?_eq_some_iff hr agrees_text, defaulted?_eq_some_iff hr agrees_bool,
    defaulted?_eq_some_iff hr agrees_length]
  constructor
  · rintro ⟨_, hname, _, htype, _, hlength, _, hnullable, _, hunique, _, hkey, rfl⟩
    exact ⟨hname, htype, hlength, hnullable, hunique, hkey⟩
  · rintro ⟨hname, htype, hlength, hnullable, hunique, hkey⟩
    exact ⟨_, hname, _, htype, _, hlength, _, hnullable, _, hunique, _, hkey, rfl⟩

theorem Entity.agrees : Agrees Entity.ofTree? Entity.SpelledBy := by
  intro t ht e
  refine ht.bind_record?_eq_some_iff (by decide) fun r hr => ?_
  simp only [Option.bind_eq_bind, Option.bind_eq_some_iff, Option.some.injEq,
    required?_eq_some_iff hr agrees_text, defaulted?_eq_some_iff hr agrees_text,
    defaulted?_eq_some_iff hr (agrees_list Column.agrees),
    defaulted?_eq_some_iff hr (agrees_list Tag.agrees)]
  constructor
  · rintro ⟨_, hname, _, hdoc, _, hcolumns, _, htags, rfl⟩
    exact ⟨hname, hdoc, hcolumns, htags⟩
  · rintro ⟨hname, hdoc, hcolumns, htags⟩
    exact ⟨_, hname, _, hdoc, _, hcolumns, _, htags, rfl⟩

theorem End.agrees : Agrees End.ofTree? End.SpelledBy := by
  intro t ht e
  refine ht.bind_record?_eq_some_iff (by decide) fun r hr => ?_
  simp only [Option.bind_eq_bind, Option.bind_eq_some_iff, Option.some.injEq,
    required?_eq_some_iff hr agrees_text, defaulted?_eq_some_iff hr agrees_option,
    defaulted?_eq_some_iff hr agrees_bool]
  constructor
  · rintro ⟨_, hreference, _, hcardinality, _, hname, _, hnavigable, rfl⟩
    exact ⟨hreference, hcardinality, hname, hnavigable⟩
  · rintro ⟨hreference, hcardinality, hname, hnavigable⟩
    exact ⟨_, hreference, _, hcardinality, _, hname, _, hnavigable, rfl⟩

theorem Relationship.agrees : Agrees Relationship.ofTree? Relationship.SpelledBy := by
  intro t ht x
  refine ht.bind_record?_eq_some_iff (by decide) fun r hr => ?_
  simp only [Option.bind_eq_bind, Option.bind_eq_some_iff, Option.some.injEq,
    defaulted?_eq_some_iff hr agrees_option, required?_eq_some_iff hr End.agrees,
    defaulted?_eq_some_iff hr (agrees_list Tag.agrees)]
  constructor
  · rintro ⟨_, hname, _, hfirst, _, hsecond, _, htags, rfl⟩
    exact ⟨hname, hfirst, hsecond, htags⟩
  · rintro ⟨hname, hfirst, hsecond, htags⟩
    exact ⟨_, hname, _, hfirst, _, hsecond, _, htags, rfl⟩

theorem Package.agrees : Agrees Package.ofTree? Package.SpelledBy := by
  intro t ht p
  refine ht.bind_record?_eq_some_iff (by decide) fun r hr => ?_
  simp only [Option.bind_eq_bind, Option.bind_eq_some_iff, Option.some.injEq,
    required?_eq_some_iff hr agrees_text, defaulted?_eq_some_iff hr agrees_text,
    defaulted?_eq_some_iff hr (agrees_list Entity.agrees)]
  constructor
  · rintro ⟨_, hname, _, hdoc, _, hentities, rfl⟩
    exact ⟨hname, hdoc, hentities⟩
  · rintro ⟨hname, hdoc, hentities⟩
    exact ⟨_, hname, _, hdoc, _, hentities, rfl⟩

theorem Diagram.agrees : Agrees Diagram.ofTree? Diagram.SpelledBy := by
  intro t ht d
  refine ht.bind_record?_eq_some_iff (by decide) fun r hr => ?_
  simp only [Option.bind_eq_bind, Option.bind_eq_some_iff, Option.some.injEq,
    defaulted?_eq_some_iff hr agrees_text,
    defaulted?_eq_some_iff hr (agrees_list Package.agrees),
    defaulted?_eq_some_iff hr (agrees_list Relationship.agrees)]
  constructor
  · rintro ⟨_, hname, _, hpackages, _, hrelationships, rfl⟩
    exact ⟨hname, hpackages, hrelationships⟩
  · rintro ⟨hname, hpackages, hrelationships⟩
    exact ⟨_, hname, _, hpackages, _, hrelationships, rfl⟩

/-! ### What is written -/

theorem spellsList_map {α : Type} {spells : α → Tree → Prop} {toTree : α → Tree}
    (h : ∀ a, spells a (toTree a)) (as : List α) :
    SpellsList spells as (.tuple (as.map toTree)) :=
  ⟨_, rfl, List.forall₂_map_right_iff.2 (List.forall₂_same.2 fun a _ => h a)⟩

theorem spellsOption_ofOption (o : Option String) : SpellsOption o (.ofOption o) := by
  cases o <;> rfl

theorem TagValue.spelledBy_toTree (v : TagValue) : v.SpelledBy v.kind v.toTree := by
  cases v <;> constructor

theorem Tag.spelledBy_toTree (g : Tag) : g.SpelledBy g.toTree :=
  ⟨⟨_, rfl⟩, _, gives_fields rfl (by decide),
    { name := ⟨_, rfl, rfl⟩
      value := ⟨_, ⟨_, rfl, rfl⟩, _, rfl, g.value.spelledBy_toTree⟩ }⟩

theorem Column.spelledBy_toTree (c : Column) : c.SpelledBy c.toTree :=
  ⟨_, gives_fields rfl (by decide),
    { name := ⟨_, rfl, rfl⟩
      type := ⟨_, rfl, rfl⟩
      length := .inl ⟨_, rfl, rfl⟩
      nullable := .inl ⟨_, rfl, rfl⟩
      unique := .inl ⟨_, rfl, rfl⟩
      primaryKey := .inl ⟨_, rfl, rfl⟩ }⟩

theorem Entity.spelledBy_toTree (e : Entity) : e.SpelledBy e.toTree :=
  ⟨_, gives_fields rfl (by decide),
    { name := ⟨_, rfl, rfl⟩
      documentation := .inl ⟨_, rfl, rfl⟩
      columns := .inl ⟨_, rfl, spellsList_map Column.spelledBy_toTree e.columns⟩
      tags := .inl ⟨_, rfl, spellsList_map Tag.spelledBy_toTree e.tags⟩ }⟩

theorem End.spelledBy_toTree (e : End) : e.SpelledBy e.toTree :=
  ⟨_, gives_fields rfl (by decide),
    { reference := ⟨_, rfl, rfl⟩
      cardinality := ⟨_, rfl, rfl⟩
      name := .inl ⟨_, rfl, spellsOption_ofOption e.name⟩
      navigable := .inl ⟨_, rfl, rfl⟩ }⟩

theorem Relationship.spelledBy_toTree (r : Relationship) : r.SpelledBy r.toTree :=
  ⟨_, gives_fields rfl (by decide),
    { name := .inl ⟨_, rfl, spellsOption_ofOption r.name⟩
      first := ⟨_, rfl, r.first.spelledBy_toTree⟩
      second := ⟨_, rfl, r.second.spelledBy_toTree⟩
      tags := .inl ⟨_, rfl, spellsList_map Tag.spelledBy_toTree r.tags⟩ }⟩

theorem Package.spelledBy_toTree (p : Package) : p.SpelledBy p.toTree :=
  ⟨_, gives_fields rfl (by decide),
    { name := ⟨_, rfl, rfl⟩
      documentation := .inl ⟨_, rfl, rfl⟩
      entities := .inl ⟨_, rfl, spellsList_map Entity.spelledBy_toTree p.entities⟩ }⟩

theorem Diagram.spelledBy_toTree (d : Diagram) : d.SpelledBy d.toTree :=
  ⟨_, gives_fields rfl (by decide),
    { name := .inl ⟨_, rfl, rfl⟩
      packages := .inl ⟨_, rfl, spellsList_map Package.spelledBy_toTree d.packages⟩
      relationships :=
        .inl ⟨_, rfl, spellsList_map Relationship.spelledBy_toTree d.relationships⟩ }⟩

theorem TagValue.isJson_toTree (v : TagValue) : v.toTree.IsJson := by
  cases v <;> simp [toTree]

theorem Tag.isJson_toTree (g : Tag) : g.toTree.IsJson := by
  simp [toTree, g.value.isJson_toTree]

theorem Column.isJson_toTree (c : Column) : c.toTree.IsJson := by
  simp [toTree, Tree.ofNat]

theorem Entity.isJson_toTree (e : Entity) : e.toTree.IsJson := by
  simp [toTree, Column.isJson_toTree, Tag.isJson_toTree]

theorem isJson_ofOption (o : Option String) : (Tree.ofOption o).IsJson := by
  cases o <;> simp [Tree.ofOption]

theorem End.isJson_toTree (e : End) : e.toTree.IsJson := by
  simp [toTree, isJson_ofOption]

theorem Relationship.isJson_toTree (r : Relationship) : r.toTree.IsJson := by
  simp [toTree, isJson_ofOption, End.isJson_toTree, Tag.isJson_toTree]

theorem Package.isJson_toTree (p : Package) : p.toTree.IsJson := by
  simp [toTree, Entity.isJson_toTree]

theorem Diagram.isJson_toTree (d : Diagram) : d.toTree.IsJson := by
  simp [toTree, Package.isJson_toTree, Relationship.isJson_toTree]

/-! ### Normal forms -/

namespace Diagram

/-- The normal form of a tree that stands for a diagram. -/
def canonical? (t : Tree) : Option Tree := (ofTree? t).map toTree

/-- The tree of a diagram is read as the diagram. -/
theorem ofTree?_toTree (d : Diagram) : ofTree? d.toTree = some d :=
  (agrees d.isJson_toTree d).2 d.spelledBy_toTree

/-- Two diagrams have two trees. -/
theorem toTree_injective : Function.Injective toTree := by
  intro d e h
  have hd := d.ofTree?_toTree
  rw [h, e.ofTree?_toTree] at hd
  exact (Option.some.inj hd).symm

/-- The JSON values that stand for a diagram are read as it and have one normal form. -/
structure SpellingsRead (d : Diagram) : Prop where
  /-- The tree of the diagram is a JSON value. -/
  isJson : d.toTree.IsJson
  /-- It is read as the diagram. -/
  reads_back : ofTree? d.toTree = some d
  /-- A JSON value is read as the diagram exactly if it spells it. -/
  read_iff : ∀ t, t.IsJson → (ofTree? t = some d ↔ d.SpelledBy t)
  /-- It has the tree of the diagram as its normal form exactly if it spells it. -/
  canonical_iff : ∀ t, t.IsJson → (canonical? t = some d.toTree ↔ d.SpelledBy t)

/-- **Every diagram is read back**: from its tree, and from every other JSON value that spells it;
and whatever is read as a diagram has the tree of this diagram as its normal form, which is read as
the same diagram and is its own normal form. -/
theorem spellings_read : (∀ d, SpellingsRead d) ∧ ∀ t d, ofTree? t = some d →
    ofTree? d.toTree = some d ∧ canonical? t = some d.toTree ∧
      canonical? d.toTree = some d.toTree := by
  refine ⟨fun d => ⟨d.isJson_toTree, d.ofTree?_toTree, fun t ht => agrees ht d, fun t ht => ?_⟩,
    fun t d h => ?_⟩
  · rw [← agrees ht, canonical?, Option.map_eq_some_iff]
    constructor
    · rintro ⟨e, he, htree⟩
      rwa [toTree_injective htree] at he
    · exact fun h => ⟨d, h, rfl⟩
  · have hback := d.ofTree?_toTree
    exact ⟨hback, by rw [canonical?, h]; rfl, by rw [canonical?, hback]; rfl⟩

/-- A diagram of one entity with one column. -/
def library : Diagram :=
  { packages := [{
      name := "Library"
      entities := [{ name := "Book", columns := [{ name := "title", type := "VARCHAR" }] }] }] }

/-- The diagram with what may be left out left out, the fields of its package the other way round, a
field that no diagram has, and lists for its entity and its column. -/
def librarySpelling : Tree :=
  .record [
    ("version", .number (.whole 3)),
    ("packages", .tuple [.record [
      ("entities", .tuple [.tuple [.text "Book", .text "",
        .tuple [.tuple [.text "title", .text "VARCHAR"]]]]),
      ("name", .text "Library")]])]

theorem spellings_read_of_librarySpelling : ofTree? librarySpelling = some library ∧
    library.SpelledBy librarySpelling ∧ canonical? librarySpelling = some library.toTree := by
  have hread : ofTree? librarySpelling = some library := by rfl
  have hjson : librarySpelling.IsJson := by simp [librarySpelling]
  obtain ⟨-, hcanonical, -⟩ := spellings_read.2 _ _ hread
  exact ⟨hread, ((spellings_read.1 library).read_iff _ hjson).1 hread, hcanonical⟩

end Diagram

end EntityRelation
