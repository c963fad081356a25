import EntityRelation.Proofs.Compile.Realisation
import EntityRelation.Proofs.Module.Fields
import EntityRelation.Proofs.Schema.Building

/-!
# Arguments of field calls

A call can be read if its keywords have text and differ, and if what comes after a keyword has a
keyword too (`FieldCall.WellFormed`). The calls of columns are made of four keywords at most and can
always be read (`TypedColumn.wellFormed_call`). The call of a key ends with the tags of the
relationship. Nothing looks at their names, and a tag with an empty name becomes an argument without
a keyword. So the call can be read exactly if the tags fit after the two options that the key may
have by itself (`Relationship.TagsFit`): **`Schema.field_calls_wellFormed_iff`**, for every key in
every order of the entities. A tag called `null` does not fit a key that may be empty
(`Schema.null_tag_does_not_fit`).
-/

namespace EntityRelation

/-! ### Calls that can be read -/

/-- The keyword of an argument, if it has one. -/
def Argument.keyword? : Argument → Option String
  | positional _ => none
  | keyword key _ => some key

/-- The keywords of a call in their order. -/
def FieldCall.keywords (f : FieldCall) : List String := f.arguments.filterMap Argument.keyword?

/-- The arguments of a call can be read. -/
structure FieldCall.WellFormed (f : FieldCall) : Prop where
  /-- Keywords have text. -/
  named : "" ∉ f.keywords
  /-- No keyword comes twice. -/
  distinct : f.keywords.Nodup
  /-- What comes after an argument with a keyword has a keyword too. -/
  ordered : f.arguments.Pairwise fun a b => a.keyword?.isSome → b.keyword?.isSome

instance (f : FieldCall) : Decidable f.WellFormed :=
  decidable_of_iff ("" ∉ f.keywords ∧ f.keywords.Nodup ∧
      f.arguments.Pairwise fun a b => a.keyword?.isSome → b.keyword?.isSome)
    ⟨fun h => ⟨h.1, h.2.1, h.2.2⟩, fun h => ⟨h.named, h.distinct, h.ordered⟩⟩

/-- Keys of arguments that can follow each other in a call. The key of an argument without a keyword
is empty. -/
structure KeysFit (keys : List String) : Prop where
  /-- No keyword comes twice. -/
  distinct : (keys.filter (· ≠ "")).Nodup
  /-- What comes after a keyword is a keyword. -/
  ordered : keys.Pairwise fun a b => a ≠ "" → b ≠ ""

theorem keysFit_empty_cons_iff {keys : List String} : KeysFit ("" :: keys) ↔ KeysFit keys := by
  constructor
  · intro h
    exact ⟨h.distinct, (List.pairwise_cons.1 h.ordered).2⟩
  · intro h
    exact ⟨h.distinct, List.pairwise_cons.2 ⟨fun b _ ha => absurd rfl ha, h.ordered⟩⟩

theorem keysFit_cons_iff {key : String} {keys : List String} (hk : key ≠ "") :
    KeysFit (key :: keys) ↔ (∀ x ∈ keys, x ≠ key ∧ x ≠ "") ∧ KeysFit keys := by
  have hfilter : (key :: keys).filter (· ≠ "") = key :: keys.filter (· ≠ "") :=
    List.filter_cons_of_pos (by simpa using hk)
  constructor
  · intro h
    have hd := h.distinct
    rw [hfilter, List.nodup_cons] at hd
    obtain ⟨ho, hs⟩ := List.pairwise_cons.1 h.ordered
    refine ⟨fun x hx => ?_, hd.2, hs⟩
    have hne : x ≠ "" := ho x hx hk
    refine ⟨?_, hne⟩
    rintro rfl
    exact hd.1 (List.mem_filter.2 ⟨hx, by simpa using hne⟩)
  · rintro ⟨hall, h⟩
    constructor
    case distinct =>
      rw [hfilter, List.nodup_cons]
      exact ⟨fun hm => (hall key (List.mem_filter.1 hm).1).1 rfl, h.distinct⟩
    case ordered => exact List.pairwise_cons.2 ⟨fun x hx _ => (hall x hx).2, h.ordered⟩

/-- Whether a call can be read can be told from the keys of its arguments, if none has a keyword
without text. -/
theorem FieldCall.wellFormed_iff_keysFit {f : FieldCall}
    (h : ∀ a ∈ f.arguments, a.keyword? ≠ some "") :
    f.WellFormed ↔ KeysFit (f.arguments.map Argument.key) := by
  have hkey : ∀ a ∈ f.arguments, a.keyword? = if a.key ≠ "" then some a.key else none := by
    intro a ha
    have hne := h a ha
    cases a with
    | positional value => rfl
    | keyword key value =>
      have hk : key ≠ "" := fun he => hne (congrArg some he)
      exact (if_pos hk).symm
  have hwords : f.keywords = (f.arguments.map Argument.key).filter (· ≠ "") := by
    rw [keywords, List.filterMap_congr hkey, List.filter_map, ← List.filterMap_eq_map,
      List.filterMap_filter]
    simp
  have hsome : ∀ a ∈ f.arguments, a.keyword?.isSome = true ↔ a.key ≠ "" := by
    intro a ha
    rw [hkey a ha]
    by_cases hk : a.key = ""
    · simp [hk]
    · simp [hk]
  have hordered : (f.arguments.Pairwise fun a b => a.keyword?.isSome → b.keyword?.isSome) ↔
      (f.arguments.map Argument.key).Pairwise fun a b => a ≠ "" → b ≠ "" := by
    rw [List.pairwise_map]
    refine List.Pairwise.iff_of_mem fun ha hb => ?_
    rw [hsome _ ha, hsome _ hb]
  constructor
  · intro hf
    exact ⟨hwords ▸ hf.distinct, hordered.1 hf.ordered⟩
  · intro hf
    refine ⟨?_, hwords ▸ hf.distinct, hordered.2 hf.ordered⟩
    rw [hwords]
    simp

/-! ### Columns -/

/-- The call of a column can be read. -/
theorem TypedColumn.wellFormed_call (c : TypedColumn) : c.call.WellFormed := by
  have hargs := c.arguments_call_sublist
  have hwords : c.call.keywords.Sublist ["null", "unique", "primary_key", "max_length"] :=
    hargs.filterMap Argument.keyword?
  have hkey : ∀ a ∈ c.call.arguments, a.keyword?.isSome = true := by
    intro a ha
    have ha := hargs.subset ha
    simp only [List.mem_cons, List.not_mem_nil, or_false] at ha
    rcases ha with rfl | rfl | rfl | rfl <;> rfl
  refine ⟨fun h => absurd (hwords.subset h) (by decide), hwords.nodup (by decide), ?_⟩
  exact List.pairwise_of_forall_mem_list fun _ _ b hb _ => hkey b hb

/-! ### Keys -/

/-- The tags of a relationship can come after the options of a key at a side. -/
structure Relationship.TagsFit (r : Relationship) (side : Side) : Prop where
  /-- No two tags share a name, unless it is empty. -/
  distinct : ((r.tags.map (·.name)).filter (· ≠ "")).Nodup
  /-- A tag without a name does not come after one with a name. -/
  unnamedFirst : (r.tags.map (·.name)).Pairwise fun a b => a ≠ "" → b ≠ ""
  /-- If the key names the way back, every tag has a name, and another one. -/
  backref : (r.endAt side).givenName.isSome = true →
    ∀ t ∈ r.tags, t.name ≠ "backref" ∧ t.name ≠ ""
  /-- If the key may be empty, every tag has a name, and another one. -/
  null : Text.trim (r.endAt side.opposite).cardinality = "0..1" →
    ∀ t ∈ r.tags, t.name ≠ "null" ∧ t.name ≠ ""

@[simp] theorem Argument.key_named (key value : String) : (named key value).key = key := by
  unfold named
  split
  case isTrue h => exact (String.isEmpty_iff.1 h).symm
  case isFalse => rfl

theorem Argument.keyword?_named_ne (key value : String) :
    (named key value).keyword? ≠ some "" := by
  unfold named
  intro he
  split at he
  case isTrue => cases he
  case isFalse h => exact h (String.isEmpty_iff.2 (Option.some.inj he))

theorem Relationship.tagsFit_iff {r : Relationship} {side : Side} : r.TagsFit side ↔
    KeysFit (r.tags.map (·.name)) ∧
      ((r.endAt side).givenName.isSome = true →
        ∀ t ∈ r.tags, t.name ≠ "backref" ∧ t.name ≠ "") ∧
      (Text.trim (r.endAt side.opposite).cardinality = "0..1" →
        ∀ t ∈ r.tags, t.name ≠ "null" ∧ t.name ≠ "") :=
  ⟨fun h => ⟨⟨h.distinct, h.unnamedFirst⟩, h.backref, h.null⟩,
    fun h => ⟨h.1.distinct, h.1.ordered, h.2.1, h.2.2⟩⟩

/-- The options that a relationship asks for can be read exactly if its tags fit. -/
theorem Relationship.keysFit_keyOptions_iff (r : Relationship) (side : Side) :
    KeysFit ((r.keyOptions side).map Argument.key) ↔ r.TagsFit side := by
  have htags : (r.tags.map Tag.argument).map Argument.key = r.tags.map (·.name) := by
    rw [List.map_map]
    refine List.map_congr_left fun t _ => ?_
    exact Argument.key_named _ _
  have hword : ∀ word ≠ "", KeysFit (word :: r.tags.map (·.name)) ↔
      (∀ t ∈ r.tags, t.name ≠ word ∧ t.name ≠ "") ∧ KeysFit (r.tags.map (·.name)) := by
    intro word hne
    rw [keysFit_cons_iff hne, List.forall_mem_map]
  rw [tagsFit_iff, keyOptions, List.map_append, List.map_append, htags]
  cases hg : (r.endAt side).givenName with
  | none =>
    simp only [Option.isSome_none, Bool.false_eq_true, false_imp_iff, true_and]
    by_cases hn : Text.trim (r.endAt side.opposite).cardinality = "0..1"
    · rw [if_pos hn]
      show KeysFit ("null" :: r.tags.map (·.name)) ↔ _
      rw [hword "null" (by decide)]
      simp only [hn, true_imp_iff]
      exact and_comm
    · rw [if_neg hn]
      simp [hn]
  | some given =>
    simp only [Option.isSome_some, true_imp_iff]
    by_cases hn : Text.trim (r.endAt side.opposite).cardinality = "0..1"
    · rw [if_pos hn]
      show KeysFit ("backref" :: "null" :: r.tags.map (·.name)) ↔ _
      rw [keysFit_cons_iff (by decide), hword "null" (by decide), List.forall_mem_cons,
        List.forall_mem_map]
      simp only [hn, true_imp_iff]
      constructor
      · rintro ⟨⟨-, hb⟩, ho, hk⟩
        exact ⟨hk, hb, ho⟩
      · rintro ⟨hk, hb, ho⟩
        exact ⟨⟨by decide, hb⟩, ho, hk⟩
    · rw [if_neg hn]
      show KeysFit ("backref" :: r.tags.map (·.name)) ↔ _
      rw [hword "backref" (by decide)]
      simp only [hn, false_imp_iff, and_true]
      exact and_comm

/-- No option that a relationship asks for has a keyword without text. -/
theorem Relationship.keyword?_ne_of_mem_keyOptions {r : Relationship} {side : Side} {a : Argument}
    (h : a ∈ r.keyOptions side) : a.keyword? ≠ some "" := by
  rw [keyOptions, List.mem_append, List.mem_append] at h
  rcases h with (h | h) | h
  · obtain ⟨given, -, rfl⟩ := Option.map_eq_some_iff.1 (Option.mem_toList.1 h)
    exact fun he => absurd (Option.some.inj he) (by decide)
  · split at h
    · obtain rfl := List.mem_singleton.1 h
      decide
    · exact absurd h List.not_mem_nil
  · obtain ⟨t, -, rfl⟩ := List.mem_map.1 h
    exact Argument.keyword?_named_ne _ _

namespace Schema

variable {s : Schema} {es : List Entity} {rs : List Relationship} {order : List Nat}

/-- The call of the key of a link can be read exactly if the tags of its relationship fit. -/
theorem LinkOf.wellFormed_keyAt_iff {n : Nat} {r : Relationship} {l : Link} {side : Side}
    (h : LinkOf s.idOf? n r l) (hk : s.keyPlace l side = .here) (p : Progress) :
    ((keyAt p l side).call s).WellFormed ↔ r.TagsFit side := by
  obtain ⟨callee, target, -, hcall⟩ := h.exists_call_keyAt hk p
  have hargs : ((keyAt p l side).call s).arguments = .positional target :: r.keyOptions side := by
    rw [hcall]
  rw [FieldCall.wellFormed_iff_keysFit, hargs, List.map_cons, Argument.key, keysFit_empty_cons_iff,
    r.keysFit_keyOptions_iff]
  rw [hargs]
  refine List.forall_mem_cons.2 ⟨by simp [Argument.keyword?], fun a ha => ?_⟩
  exact Relationship.keyword?_ne_of_mem_keyOptions ha

end Schema

/-! ### Classes -/

/-- The fields of a class, for a schema that was built from entities and relationships. -/
structure ClassPlan.CallsTold (s : Schema) (es : List Entity) (rs : List Relationship)
    (c : ClassPlan) : Prop where
  /-- The lines of the fields stand together in the class. -/
  lines : ∀ docStrings, ∃ above below,
    c.outline s docStrings = above ++ (c.fields s).map Field.entry ++ below
  /-- The first ones are those of the columns, and their calls can be read. -/
  columns : ∀ x ∈ c.table.columns, x.call.WellFormed
  /-- The others are those of the keys. The entity stands at one side of a relationship between the
  entities, and the call can be read exactly if the tags of the relationship fit there. -/
  keys : ∀ k ∈ c.keys, ∃ r ∈ Schema.kept es rs, ∃ side,
    c.table.entity.name = (r.endAt side).reference ∧
      (k.call s).arguments = (k.base s).arguments ++ r.keyOptions side ∧
      ((k.call s).WellFormed ↔ r.TagsFit side)

namespace Schema

variable {s : Schema} {es : List Entity} {rs : List Relationship}

/-- **When field calls can be read**: in the classes of a schema that was built, in any order of the
entities, the calls of the columns always can, and the call of a key can exactly if the tags of its
relationship fit after the options that the key has by itself. -/
theorem field_calls_wellFormed_iff (h : (build es rs).outcome = .ok s) (order : List Nat) :
    ∀ c ∈ (s.plan order).classes, c.CallsTold s es rs := by
  have hr := resolves_of_build h
  intro c hc
  constructor
  case lines => exact c.exists_outline_eq s
  case columns => exact fun x _ => x.wellFormed_call
  case keys =>
    intro k hk
    obtain ⟨p, id, t, ht, rfl⟩ := exists_planClass_of_mem hc
    obtain ⟨l, hl, side, rfl, hkey, rfl⟩ := mem_keys_planClass.1 hk
    obtain ⟨r, hrs, hin, hrl⟩ := hr.exists_relationship hl
    refine ⟨r, List.mem_filter.2 ⟨hrs, hin⟩, side, ?_, ?_, hrl.wellFormed_keyAt_iff hkey p⟩
    · rw [← hr.nameOf_entity (hrl.endAt side), nameOf, ht]
      rfl
    · rw [ForeignKey.call, hrl.options_keyAt p (isMany_opposite_of_here hkey)]

/-- Players who may be in a team. -/
def membership (tags : List Tag) : Relationship where
  first := { reference := "Player", cardinality := "*", name := some "players" }
  second := { reference := "Team", cardinality := "0..1" }
  tags := tags

/-- Tags with names of their own fit. -/
theorem field_calls_wellFormed_of_own_names :
    ∃ s, (build [{ name := "Team" }, { name := "Player" }]
        [membership [⟨"on_delete", .text "CASCADE"⟩, ⟨"lazy_load", .flag true⟩]]).outcome = .ok s ∧
      (∀ c ∈ (s.plan [0, 1]).classes, c.CallsTold s [{ name := "Team" }, { name := "Player" }]
        [membership [⟨"on_delete", .text "CASCADE"⟩, ⟨"lazy_load", .flag true⟩]]) ∧
      ∃ c ∈ (s.plan [0, 1]).classes, ∃ k ∈ c.keys, (k.call s).WellFormed ∧ (k.call s).text =
        "ForeignKeyField(Team, backref='players', null=True, on_delete='CASCADE', lazy_load=True)" :=
  ⟨_, rfl, field_calls_wellFormed_iff rfl [0, 1], by decide +kernel⟩

/-- A tag called `null` gives the key a keyword twice, and a tag without a name gives it an argument
without a keyword after others with one. -/
theorem null_tag_does_not_fit :
    ∃ s, (build [{ name := "Team" }, { name := "Player" }]
        [membership [⟨"null", .flag false⟩, ⟨"", .text "CASCADE"⟩]]).outcome = .ok s ∧
      ∃ c ∈ (s.plan [0, 1]).classes, ∃ k ∈ c.keys, (k.call s).text =
          "ForeignKeyField(Team, backref='players', null=True, null=False, 'CASCADE')" ∧
        ¬ (k.call s).keywords.Nodup ∧ ¬ (k.call s).WellFormed :=
  ⟨_, rfl, by decide +kernel⟩

end Schema

end EntityRelation
