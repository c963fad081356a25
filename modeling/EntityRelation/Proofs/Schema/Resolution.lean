import EntityRelation.Schema
import EntityRelation.Proofs.Places
import Mathlib.Data.List.Nodup

/-!
# What a schema is resolved from

A schema is resolved from entities and relationships. `Schema.Resolves` says what an answer has to
do with them: a table for every entity, no two of one name, with the columns of the entity and
their types; and a link for every relationship whose ends both refer to one of the entities, in
their order and numbered from zero (`resolves_of_build`). The other direction says which failures
there are and that the first offence decides: an entity whose name stands before it or with a
column of unknown type (`typeEntities_eq_error_iff`), then a relationship with an end of unknown
cardinality (`resolveLinks_eq_error_iff`).
-/

namespace EntityRelation

/-! ### What is understood -/

/-- The type of a column, without blanks around it and in capitals, is the name of a type. -/
def Column.IsTyped (c : Column) : Prop :=
  ColumnType.capitals (Text.trim c.type) ∈ ColumnType.all.map ColumnType.name

/-- The cardinality of an end, without blanks around it, is `1` or `0..1` or has a star. -/
def End.IsMarked (e : End) : Prop :=
  Text.trim e.cardinality = "1" ∨ Text.trim e.cardinality = "0..1" ∨
    '*' ∈ (Text.trim e.cardinality).toList

theorem ColumnType.parse?_eq_none_iff (c : Column) :
    ColumnType.parse? c.type = none ↔ ¬ c.IsTyped := by
  rw [ColumnType.parse?, Column.IsTyped, List.find?_eq_none, List.mem_map, not_exists]
  refine forall_congr' fun t => ?_
  simp

theorem Cardinality.parse?_eq_none_iff (e : End) :
    Cardinality.parse? e.cardinality = none ↔ ¬ e.IsMarked := by
  unfold Cardinality.parse? End.IsMarked
  simp only [List.contains_iff_mem]
  split_ifs <;> simp_all

/-- What a text says that is understood as a cardinality. -/
theorem Cardinality.parse?_eq_some {text : String} {c : Cardinality} (h : parse? text = some c) :
    (Text.trim text = "1" ∧ c = .one) ∨ (Text.trim text = "0..1" ∧ c = .zeroOrOne) ∨
      ('*' ∈ (Text.trim text).toList ∧ c = .many (Text.trim text)) := by
  simp only [parse?] at h
  split at h
  case isTrue h₁ => exact .inl ⟨h₁, (Option.some.inj h).symm⟩
  split at h
  case isTrue h₂ => exact .inr (.inl ⟨h₂, (Option.some.inj h).symm⟩)
  split at h
  case isTrue h₃ =>
    exact .inr (.inr ⟨List.contains_iff_mem.1 h₃, (Option.some.inj h).symm⟩)
  case isFalse => cases h

namespace Schema

/-! ### Tables -/

/-- A table has the columns of its entity with their types. -/
structure TableOf (e : Entity) (t : Table) : Prop where
  entity : t.entity = e
  columns : t.columns.map (·.column) = e.columns
  types : ∀ c ∈ t.columns, ColumnType.parse? c.column.type = some c.type

theorem typeColumns_eq_ok {entity : String} {cs : List Column} {ts : List TypedColumn}
    (h : typeColumns entity cs = .ok ts) :
    ts.map (·.column) = cs ∧ ∀ t ∈ ts, ColumnType.parse? t.column.type = some t.type := by
  induction cs generalizing ts with
  | nil =>
    cases h
    exact ⟨rfl, fun _ h => absurd h List.not_mem_nil⟩
  | cons c cs ih =>
    rw [typeColumns] at h
    split at h
    case h_1 t ht =>
      obtain ⟨us, hus, rfl⟩ := map_eq_ok_iff.1 h
      obtain ⟨hc, hp⟩ := ih hus
      exact ⟨by rw [List.map_cons, hc], List.forall_mem_cons.2 ⟨ht, hp⟩⟩
    case h_2 => cases h

/-- Columns fail at the first one of unknown type. -/
theorem typeColumns_eq_error_iff {entity : String} {cs : List Column} {f : Failure} :
    typeColumns entity cs = .error f ↔
      ∃ n c, IsFirst (¬ Column.IsTyped ·) cs n c ∧ f = .unknownTypeIn entity c.name c.type := by
  induction cs with
  | nil => exact iff_of_false (fun h => nomatch h) IsFirst.not_exists_nil
  | cons c cs ih =>
    rw [typeColumns, IsFirst.exists_cons_iff]
    split
    case h_1 t ht =>
      have hc : c.IsTyped := by
        by_contra hn
        rw [(ColumnType.parse?_eq_none_iff c).2 hn] at ht
        cases ht
      rw [map_eq_error_iff, ih]
      simp [hc]
    case h_2 hn =>
      have hc := (ColumnType.parse?_eq_none_iff c).1 hn
      simp [hc, eq_comm]

/-- Columns have types exactly when each of them has one. -/
theorem exists_typeColumns_iff (entity : String) {cs : List Column} :
    (∃ ts, typeColumns entity cs = .ok ts) ↔ ∀ c ∈ cs, c.IsTyped := by
  constructor
  · rintro ⟨ts, h⟩ c hc
    by_contra hn
    obtain ⟨n, x, hx⟩ := IsFirst.exists_of_mem (P := (¬ Column.IsTyped ·)) hc hn
    rw [typeColumns_eq_error_iff.2 ⟨n, x, hx, rfl⟩] at h
    cases h
  · intro h
    refine exists_ok_of_ne_error fun f hf => ?_
    obtain ⟨n, c, hc, -⟩ := typeColumns_eq_error_iff.1 hf
    exact hc.holds (h c hc.mem)

/-- Entities that become tables where the names `seen` are taken. -/
structure Sound (seen : List String) (es : List Entity) : Prop where
  fresh : ∀ e ∈ es, e.name ∉ seen
  distinct : (es.map (·.name)).Nodup
  typed : ∀ e ∈ es, ∀ c ∈ e.columns, c.IsTyped

theorem sound_nil (seen : List String) : Sound seen [] :=
  ⟨fun _ h => absurd h List.not_mem_nil, .nil, fun _ h => absurd h List.not_mem_nil⟩

theorem sound_cons_iff {seen : List String} {e : Entity} {es : List Entity} :
    Sound seen (e :: es) ↔
      e.name ∉ seen ∧ (∀ c ∈ e.columns, c.IsTyped) ∧ Sound (e.name :: seen) es := by
  constructor
  · rintro ⟨hf, hd, ht⟩
    obtain ⟨hfe, hf⟩ := List.forall_mem_cons.1 hf
    obtain ⟨hte, ht⟩ := List.forall_mem_cons.1 ht
    obtain ⟨hne, hd⟩ := List.nodup_cons.1 hd
    refine ⟨hfe, hte, fun x hx => ?_, hd, ht⟩
    exact fun h => (List.mem_cons.1 h).elim (fun h => hne (List.mem_map.2 ⟨x, hx, h⟩)) (hf x hx)
  · rintro ⟨hfe, hte, hf, hd, ht⟩
    refine ⟨List.forall_mem_cons.2 ⟨hfe, fun x hx => ?_⟩, List.nodup_cons.2 ⟨fun h => ?_, hd⟩,
      List.forall_mem_cons.2 ⟨hte, ht⟩⟩
    · exact fun h => hf x hx (List.mem_cons_of_mem _ h)
    · obtain ⟨x, hx, hxe⟩ := List.mem_map.1 h
      exact hf x hx (hxe ▸ List.mem_cons_self)

/-- Where no name is taken, entities are sound if their names differ and their columns have types. -/
theorem sound_iff {es : List Entity} : Sound [] es ↔
    (es.map (·.name)).Nodup ∧ ∀ e ∈ es, ∀ c ∈ e.columns, c.IsTyped :=
  ⟨fun h => ⟨h.distinct, h.typed⟩, fun h => ⟨fun _ _ => List.not_mem_nil, h.1, h.2⟩⟩

/-- Entities that become tables are sound. -/
theorem typeEntities_eq_ok {seen : List String} {es : List Entity} {ts : List Table}
    (h : typeEntities seen es = .ok ts) : Sound seen es ∧ List.Forall₂ TableOf es ts := by
  induction es generalizing seen ts with
  | nil =>
    cases h
    exact ⟨sound_nil seen, .nil⟩
  | cons e es ih =>
    rw [typeEntities] at h
    split at h
    case isTrue => cases h
    case isFalse hn =>
      obtain ⟨cs, hcs, h⟩ := bind_eq_ok_iff.1 h
      obtain ⟨us, hus, h⟩ := bind_eq_ok_iff.1 h
      cases h
      obtain ⟨hs, hts⟩ := ih hus
      obtain ⟨hc, hp⟩ := typeColumns_eq_ok hcs
      exact ⟨sound_cons_iff.2 ⟨by simpa using hn, (exists_typeColumns_iff e.name).1 ⟨cs, hcs⟩, hs⟩,
        .cons ⟨rfl, hc, hp⟩ hts⟩

/-- What is wrong with an entity whose name stands before it or not. -/
def Offence (repeated : Prop) (e : Entity) (f : Failure) : Prop :=
  (repeated ∧ f = .flawed e.name .repeatedEntity) ∨
    (¬ repeated ∧ ∃ n c, IsFirst (¬ Column.IsTyped ·) e.columns n c ∧
      f = .unknownTypeIn e.name c.name c.type)

/-- The failure of the first entity that does not become a table. -/
def FirstOffence (seen : List String) (es : List Entity) (f : Failure) : Prop :=
  ∃ n e, es[n]? = some e ∧ Sound seen (es.take n) ∧
    Offence (e.name ∈ seen ∨ e.name ∈ (es.take n).map (·.name)) e f

theorem firstOffence_cons_iff {seen : List String} {e : Entity} {es : List Entity} {f : Failure} :
    FirstOffence seen (e :: es) f ↔ Offence (e.name ∈ seen) e f ∨
      (e.name ∉ seen ∧ (∀ c ∈ e.columns, c.IsTyped) ∧ FirstOffence (e.name :: seen) es f) := by
  constructor
  · rintro ⟨n, x, hx, hs, ho⟩
    cases n with
    | zero =>
      obtain rfl : e = x := by simpa using hx
      exact .inl (by simpa using ho)
    | succ n =>
      rw [List.take_succ_cons, sound_cons_iff] at hs
      refine .inr ⟨hs.1, hs.2.1, n, x, by simpa using hx, hs.2.2, ?_⟩
      convert ho using 1
      simp only [List.take_succ_cons, List.map_cons, List.mem_cons, or_assoc, or_left_comm]
  · rintro (ho | ⟨hn, ht, n, x, hx, hs, ho⟩)
    · exact ⟨0, e, rfl, sound_nil seen, by simpa using ho⟩
    · refine ⟨n + 1, x, by simpa using hx, sound_cons_iff.2 ⟨hn, ht, hs⟩, ?_⟩
      convert ho using 1
      simp only [List.take_succ_cons, List.map_cons, List.mem_cons, or_assoc, or_left_comm]

/-- Entities fail at the first one that does not become a table. -/
theorem typeEntities_eq_error_iff {seen : List String} {es : List Entity} {f : Failure} :
    typeEntities seen es = .error f ↔ FirstOffence seen es f := by
  induction es generalizing seen with
  | nil => exact iff_of_false (fun h => nomatch h) (fun ⟨_, _, h, _⟩ => nomatch h)
  | cons e es ih =>
    rw [typeEntities, firstOffence_cons_iff, Offence, ← typeColumns_eq_error_iff, ← ih,
      ← exists_typeColumns_iff e.name]
    split
    case isTrue hs =>
      have hs : e.name ∈ seen := by simpa using hs
      simp [hs, eq_comm]
    case isFalse hs =>
      have hs : e.name ∉ seen := by simpa using hs
      simp only [bind_eq_error_iff, hs, false_and, not_false_eq_true, true_and, false_or]
      simp

/-- If names differ, the name of an entity does not stand before it. -/
theorem name_notMem_take {es : List Entity} (hd : (es.map (·.name)).Nodup) {n : Nat} {e : Entity}
    (he : es[n]? = some e) : e.name ∉ (es.take n).map (·.name) := by
  intro hm
  obtain ⟨hlt, rfl⟩ := List.getElem?_eq_some_iff.1 he
  rw [← List.take_append_drop n es, List.map_append, List.nodup_append,
    List.drop_eq_getElem_cons hlt] at hd
  exact hd.2.2 _ hm _ List.mem_cons_self rfl

/-- Entities become tables exactly if they are sound. -/
theorem exists_typeEntities_iff {seen : List String} {es : List Entity} :
    (∃ ts, typeEntities seen es = .ok ts) ↔ Sound seen es := by
  refine ⟨fun ⟨ts, h⟩ => (typeEntities_eq_ok h).1, fun h => ?_⟩
  refine exists_ok_of_ne_error fun f hf => ?_
  obtain ⟨n, e, he, -, ho⟩ := typeEntities_eq_error_iff.1 hf
  have hm : e ∈ es := List.mem_of_getElem? he
  rcases ho with ⟨hr | hr, -⟩ | ⟨-, m, c, hc, -⟩
  · exact h.fresh e hm hr
  · exact name_notMem_take h.distinct he hr
  · exact hc.holds (h.typed e hm c hc.mem)

/-! ### Links -/

/-- An end of a link comes from an end of a relationship, where `find` numbers the entities. -/
structure EndOf (find : String → Option Nat) (e : End) (x : LinkEnd) : Prop where
  entity : find e.reference = some x.entity
  cardinality : Cardinality.parse? e.cardinality = some x.cardinality
  givenName : x.givenName = e.name.bind Text.trim?
  name : x.name = x.givenName.getD (Text.lower e.reference)

/-- The link with number `n` comes from a relationship. -/
structure LinkOf (find : String → Option Nat) (n : Nat) (r : Relationship) (l : Link) : Prop where
  id : l.id = n
  name : l.name = r.name.filter Text.hasText
  first : EndOf find r.first l.first
  second : EndOf find r.second l.second
  tags : l.tags = r.tags

/-- Both ends of a relationship refer to something that `find` numbers. -/
def isInside (find : String → Option Nat) (r : Relationship) : Bool :=
  (find r.first.reference).isSome && (find r.second.reference).isSome

/-- An end of a relationship has no cardinality. -/
def IllMarked (r : Relationship) : Prop := ∃ e ∈ [r.first, r.second], ¬ e.IsMarked

/-- The failure of a relationship with an end that has no cardinality. -/
def EndOffence (n : Nat) (r : Relationship) (f : Failure) : Prop :=
  ∃ m e, IsFirst (¬ End.IsMarked ·) [r.first, r.second] m e ∧
    f = .flawed (labelOf n r) (.unknownCardinality (Text.trim e.cardinality))

variable {find : String → Option Nat}

/-- An end becomes one end of a link only. -/
theorem EndOf.unique {e : End} {x y : LinkEnd} (hx : EndOf find e x) (hy : EndOf find e y) :
    x = y := by
  obtain ⟨i, c, g, name⟩ := x
  obtain ⟨i', c', g', name'⟩ := y
  obtain rfl : i = i' := Option.some.inj (hx.entity.symm.trans hy.entity)
  obtain rfl : c = c' := Option.some.inj (hx.cardinality.symm.trans hy.cardinality)
  obtain rfl : g = g' := hx.givenName.trans hy.givenName.symm
  obtain rfl : name = name' := hx.name.trans hy.name.symm
  rfl

/-- A relationship becomes one link with a number only. -/
theorem LinkOf.unique {n : Nat} {r : Relationship} {l l' : Link} (h : LinkOf find n r l)
    (h' : LinkOf find n r l') : l = l' := by
  obtain ⟨id, name, first, second, tags⟩ := l
  obtain ⟨id', name', first', second', tags'⟩ := l'
  obtain rfl : id = id' := h.id.trans h'.id.symm
  obtain rfl : name = name' := h.name.trans h'.name.symm
  obtain rfl : first = first' := h.first.unique h'.first
  obtain rfl : second = second' := h.second.unique h'.second
  obtain rfl : tags = tags' := h.tags.trans h'.tags.symm
  rfl

theorem resolveEnd_eq_ok {label : String} {a : Nat} {e : End} {x : LinkEnd}
    (ha : find e.reference = some a) (h : resolveEnd label a e = .ok x) : EndOf find e x := by
  unfold resolveEnd at h
  split at h
  case h_1 => cases h
  case h_2 c hc =>
    cases h
    exact ⟨ha, hc, rfl, rfl⟩

theorem resolveEnd_eq_error_iff {label : String} {a : Nat} {e : End} {f : Failure} :
    resolveEnd label a e = .error f ↔
      ¬ e.IsMarked ∧ f = .flawed label (.unknownCardinality (Text.trim e.cardinality)) := by
  rw [← Cardinality.parse?_eq_none_iff]
  unfold resolveEnd
  split
  case h_1 h => simp [h, eq_comm]
  case h_2 h => simp [h]

theorem exists_resolveEnd_iff {label : String} {a : Nat} {e : End} :
    (∃ x, resolveEnd label a e = .ok x) ↔ e.IsMarked := by
  constructor
  · rintro ⟨x, h⟩
    by_contra hn
    rw [resolveEnd_eq_error_iff.2 ⟨hn, rfl⟩] at h
    cases h
  · exact fun h => exists_ok_of_ne_error fun f hf => (resolveEnd_eq_error_iff.1 hf).1 h

theorem resolveLink_eq_ok {n a b : Nat} {r : Relationship} {l : Link}
    (ha : find r.first.reference = some a) (hb : find r.second.reference = some b)
    (h : resolveLink n r a b = .ok l) : LinkOf find n r l := by
  obtain ⟨x, hx, h⟩ := bind_eq_ok_iff.1 h
  obtain ⟨y, hy, h⟩ := bind_eq_ok_iff.1 h
  cases h
  exact ⟨rfl, rfl, resolveEnd_eq_ok ha hx, resolveEnd_eq_ok hb hy, rfl⟩

/-- A relationship fails at its first end without a cardinality. -/
theorem resolveLink_eq_error_iff {n a b : Nat} {r : Relationship} {f : Failure} :
    resolveLink n r a b = .error f ↔ EndOffence n r f := by
  rw [EndOffence, IsFirst.exists_cons_iff, IsFirst.exists_cons_iff]
  simp only [IsFirst.not_exists_nil, and_false, or_false, not_not]
  rw [resolveLink, bind_eq_error_iff, resolveEnd_eq_error_iff]
  refine or_congr_right ?_
  simp only [bind_eq_error_iff, resolveEnd_eq_error_iff, reduceCtorEq, and_false, exists_false,
    or_false, exists_and_right, exists_resolveEnd_iff]

theorem exists_resolveLink_iff {n a b : Nat} {r : Relationship} :
    (∃ l, resolveLink n r a b = .ok l) ↔ ¬ IllMarked r := by
  constructor
  · rintro ⟨l, h⟩ ⟨e, he, hn⟩
    obtain ⟨m, x, hx⟩ := IsFirst.exists_of_mem (P := (¬ End.IsMarked ·)) he hn
    rw [resolveLink_eq_error_iff.2 ⟨m, x, hx, rfl⟩] at h
    cases h
  · intro h
    refine exists_ok_of_ne_error fun f hf => ?_
    obtain ⟨m, e, he, -⟩ := resolveLink_eq_error_iff.1 hf
    exact h ⟨e, he.mem, he.holds⟩

/-- An offence of an end makes the relationship ill marked. -/
theorem EndOffence.illMarked {n : Nat} {r : Relationship} {f : Failure} (h : EndOffence n r f) :
    IllMarked r := by
  obtain ⟨m, e, he, -⟩ := h
  exact ⟨e, he.mem, he.holds⟩

theorem isInside_iff {r : Relationship} : isInside find r = true ↔
    ∃ a b, find r.first.reference = some a ∧ find r.second.reference = some b := by
  simp only [isInside, Bool.and_eq_true, Option.isSome_iff_exists, exists_and_left,
    exists_and_right]

/-- A relationship inside becomes a link in front of the links of the rest. -/
theorem outcome_resolveLinks_inside {n a b : Nat} {r : Relationship} {rs : List Relationship}
    (ha : find r.first.reference = some a) (hb : find r.second.reference = some b) :
    (resolveLinks find n (r :: rs)).outcome = resolveLink n r a b >>= fun l =>
      (resolveLinks find (n + 1) rs).outcome >>= fun ls => .ok (l :: ls) := by
  rw [resolveLinks]
  simp only [ha, hb, Logged.outcome_bind]
  rfl

/-- A relationship that is not inside leaves no link and no number. -/
theorem outcome_resolveLinks_outside {n : Nat} {r : Relationship} {rs : List Relationship}
    (h : ¬ isInside find r = true) :
    (resolveLinks find n (r :: rs)).outcome = (resolveLinks find n rs).outcome := by
  rw [resolveLinks]
  split
  case h_1 a b ha hb => exact absurd (isInside_iff.2 ⟨a, b, ha, hb⟩) h
  case h_2 => rw [Logged.outcome_bind]; rfl

/-- Relationships that become links give one link for each of those inside, in their order. -/
theorem resolveLinks_eq_ok {n : Nat} {rs : List Relationship} {ls : List Link}
    (h : (resolveLinks find n rs).outcome = .ok ls) :
    List.Forall₂ (fun x l => LinkOf find x.2 x.1 l) ((rs.filter (isInside find)).zipIdx n) ls := by
  induction rs generalizing n ls with
  | nil =>
    cases h
    exact .nil
  | cons r rs ih =>
    by_cases hr : isInside find r = true
    · obtain ⟨a, b, ha, hb⟩ := isInside_iff.1 hr
      rw [outcome_resolveLinks_inside ha hb] at h
      obtain ⟨l, hl, h⟩ := bind_eq_ok_iff.1 h
      obtain ⟨ls, hls, h⟩ := bind_eq_ok_iff.1 h
      cases h
      rw [List.filter_cons_of_pos hr, List.zipIdx_cons]
      exact .cons (resolveLink_eq_ok ha hb hl) (ih hls)
    · rw [outcome_resolveLinks_outside hr] at h
      rw [List.filter_cons_of_neg hr]
      exact ih h

/-- Relationships fail at the first one inside that has an end without a cardinality. -/
theorem resolveLinks_eq_error_iff {n : Nat} {rs : List Relationship} {f : Failure} :
    (resolveLinks find n rs).outcome = .error f ↔
      ∃ m r, IsFirst IllMarked (rs.filter (isInside find)) m r ∧ EndOffence (n + m) r f := by
  induction rs generalizing n with
  | nil => exact iff_of_false (fun h => nomatch h) IsFirst.not_exists_nil
  | cons r rs ih =>
    by_cases hr : isInside find r = true
    · obtain ⟨a, b, ha, hb⟩ := isInside_iff.1 hr
      rw [outcome_resolveLinks_inside ha hb, List.filter_cons_of_pos hr,
        IsFirst.exists_cons_iff (Q := fun m r => EndOffence (n + m) r f), bind_eq_error_iff,
        resolveLink_eq_error_iff, ← exists_resolveLink_iff (n := n) (a := a) (b := b)]
      refine or_congr ⟨fun h => ⟨h.illMarked, h⟩, And.right⟩ ?_
      simp only [bind_eq_error_iff, ih, reduceCtorEq, and_false, exists_false, or_false,
        exists_and_right, Nat.add_assoc, Nat.add_comm 1]
    · rw [outcome_resolveLinks_outside hr, List.filter_cons_of_neg hr, ih]

/-- Only a relationship that is not inside is reported to be outside. -/
theorem exists_outside_of_mem_events {n : Nat} {rs : List Relationship} {a b : String}
    (h : .relationshipOutside a b ∈ (resolveLinks find n rs).events) :
    ∃ r ∈ rs, isInside find r = false := by
  induction rs generalizing n with
  | nil => exact absurd h List.not_mem_nil
  | cons r rs ih =>
    cases hr : isInside find r with
    | false => exact ⟨r, List.mem_cons_self, hr⟩
    | true =>
      obtain ⟨x, y, hx, hy⟩ := isInside_iff.1 hr
      simp only [resolveLinks, hx, hy, Logged.mem_events_bind, Logged.events_liftM,
        Logged.events_pure, List.not_mem_nil, false_or, and_false, exists_false, or_false] at h
      obtain ⟨-, -, h⟩ := h
      obtain ⟨x, hx, hout⟩ := ih h
      exact ⟨x, List.mem_cons_of_mem r hx, hout⟩

/-! ### Schemas -/

/-- A schema is resolved from entities and relationships. -/
structure Resolves (s : Schema) (es : List Entity) (rs : List Relationship) : Prop where
  /-- The names of the entities differ, and their columns have types. -/
  sound : Sound [] es
  /-- Every entity has a table. -/
  tables : List.Forall₂ TableOf es s.tables
  /-- Every relationship inside has a link, and the links are numbered. -/
  links : List.Forall₂ (fun x l => LinkOf s.idOf? x.2 x.1 l)
    (rs.filter (isInside s.idOf?)).zipIdx s.links

theorem outcome_build (es : List Entity) (rs : List Relationship) :
    (build es rs).outcome = typeEntities [] es >>= fun ts =>
      (resolveLinks (Schema.mk ts []).idOf? 0 rs).outcome >>= fun ls => .ok ⟨ts, ls⟩ := by
  simp only [build, Logged.outcome_bind]
  rfl

/-- A schema that was built is resolved from what it was built from. -/
theorem resolves_of_build {s : Schema} {es : List Entity} {rs : List Relationship}
    (h : (build es rs).outcome = .ok s) : s.Resolves es rs := by
  rw [outcome_build] at h
  obtain ⟨ts, hts, h⟩ := bind_eq_ok_iff.1 h
  obtain ⟨ls, hls, h⟩ := bind_eq_ok_iff.1 h
  cases h
  obtain ⟨hs, ht⟩ := typeEntities_eq_ok hts
  exact ⟨hs, ht, resolveLinks_eq_ok hls⟩

/-- Schemas that were built from the same entities have the same tables. -/
theorem tables_eq_of_build {s s' : Schema} {es : List Entity} {rs rs' : List Relationship}
    (h : (build es rs).outcome = .ok s) (h' : (build es rs').outcome = .ok s') :
    s.tables = s'.tables := by
  rw [outcome_build] at h h'
  obtain ⟨ts, hts, h⟩ := bind_eq_ok_iff.1 h
  obtain ⟨ts', hts', h'⟩ := bind_eq_ok_iff.1 h'
  obtain rfl : ts = ts' := Except.ok.inj (hts.symm.trans hts')
  obtain ⟨ls, -, h⟩ := bind_eq_ok_iff.1 h
  obtain ⟨ls', -, h'⟩ := bind_eq_ok_iff.1 h'
  cases h
  cases h'
  rfl

/-- The number of the entity with a name. -/
def numberIn (es : List Entity) (name : String) : Option Nat := es.findIdx? (·.name == name)

theorem map_entity_of_tables {es : List Entity} {ts : List Table}
    (h : List.Forall₂ TableOf es ts) : ts.map (·.entity) = es := by
  induction h with
  | nil => rfl
  | cons ht _ ih => rw [List.map_cons, ih, ht.entity]

theorem idOf?_eq_numberIn {s : Schema} {es : List Entity} (h : List.Forall₂ TableOf es s.tables) :
    s.idOf? = numberIn es := by
  funext name
  rw [idOf?, numberIn, ← map_entity_of_tables h, List.findIdx?_map]
  rfl

/-- A schema is not built exactly if some entity or, all of them being sound, some relationship
inside does not pass; the failure is that of the first one. -/
theorem build_eq_error_iff {es : List Entity} {rs : List Relationship} {f : Failure} :
    (build es rs).outcome = .error f ↔ FirstOffence [] es f ∨
      (Sound [] es ∧ ∃ m r, IsFirst IllMarked (rs.filter (isInside (numberIn es))) m r ∧
        EndOffence m r f) := by
  rw [outcome_build, bind_eq_error_iff, typeEntities_eq_error_iff]
  refine or_congr_right ?_
  simp only [bind_eq_error_iff, resolveLinks_eq_error_iff, reduceCtorEq, and_false, exists_false,
    or_false, Nat.zero_add]
  constructor
  · rintro ⟨ts, hts, h⟩
    obtain ⟨hs, ht⟩ := typeEntities_eq_ok hts
    rw [idOf?_eq_numberIn (s := ⟨ts, []⟩) ht] at h
    exact ⟨hs, h⟩
  · rintro ⟨hs, h⟩
    obtain ⟨ts, hts⟩ := exists_typeEntities_iff.2 hs
    refine ⟨ts, hts, ?_⟩
    rwa [idOf?_eq_numberIn (s := ⟨ts, []⟩) (typeEntities_eq_ok hts).2]

/-- A schema is built exactly if the entities are sound and no relationship inside is ill marked. -/
theorem exists_build_iff {es : List Entity} {rs : List Relationship} :
    (∃ s, (build es rs).outcome = .ok s) ↔
      Sound [] es ∧ ¬ ∃ r ∈ rs, isInside (numberIn es) r = true ∧ IllMarked r := by
  constructor
  · rintro ⟨s, h⟩
    have hs := (resolves_of_build h).sound
    refine ⟨hs, fun ⟨r, hr, hin, hill⟩ => ?_⟩
    obtain ⟨m, x, hx⟩ := IsFirst.exists_of_mem (P := IllMarked) (List.mem_filter.2 ⟨hr, hin⟩) hill
    obtain ⟨e, he, hn⟩ := hx.holds
    obtain ⟨k, y, hy⟩ := IsFirst.exists_of_mem (P := (¬ End.IsMarked ·)) he hn
    rw [build_eq_error_iff.2 (.inr ⟨hs, m, x, hx, k, y, hy, rfl⟩)] at h
    cases h
  · rintro ⟨hs, hmarked⟩
    refine exists_ok_of_ne_error fun f hf => ?_
    rcases build_eq_error_iff.1 hf with ho | ⟨-, m, r, hr, -⟩
    · obtain ⟨ts, hts⟩ := exists_typeEntities_iff.2 hs
      rw [typeEntities_eq_error_iff.2 ho] at hts
      cases hts
    · obtain ⟨hm, hin⟩ := List.mem_filter.1 hr.mem
      exact hmarked ⟨r, hm, hin, hr.holds⟩

namespace Resolves

variable {s : Schema} {es : List Entity} {rs : List Relationship}

/-- Names have the same numbers in all schemas of the same entities. -/
theorem idOf?_eq (h : s.Resolves es rs) {s' : Schema} {rs' : List Relationship}
    (h' : s'.Resolves es rs') : s.idOf? = s'.idOf? := by
  rw [idOf?_eq_numberIn h.tables, idOf?_eq_numberIn h'.tables]

theorem size_eq (h : s.Resolves es rs) : s.size = es.length := h.tables.length_eq.symm

theorem nameOf_eq (h : s.Resolves es rs) {i : Nat} {e : Entity} (he : es[i]? = some e) :
    s.nameOf i = e.name := by
  rw [← map_entity_of_tables h.tables, List.getElem?_map] at he
  obtain ⟨t, ht, rfl⟩ := Option.map_eq_some_iff.1 he
  rw [nameOf, ht]
  rfl

/-- Every column of a table has the field call that is made with its type. -/
theorem call_eq (h : s.Resolves es rs) {t : Table} (ht : t ∈ s.tables) {x : TypedColumn}
    (hx : x ∈ t.columns) : x.column.call = .ok x.call := by
  obtain ⟨i, hi⟩ := List.getElem?_of_mem ht
  obtain ⟨e, -, he⟩ := forall₂_getElem?_right h.tables hi
  rw [Column.call, he.types x hx]

/-- A name has a number exactly if it is the name of the entity at that place. -/
theorem idOf?_eq_some_iff (h : s.Resolves es rs) {name : String} {i : Nat} :
    s.idOf? name = some i ↔ ∃ e, es[i]? = some e ∧ e.name = name := by
  rw [idOf?_eq_numberIn h.tables, numberIn, List.findIdx?_eq_some_iff_getElem]
  constructor
  · rintro ⟨hi, he, -⟩
    exact ⟨es[i], List.getElem?_eq_getElem hi, by simpa using he⟩
  · rintro ⟨e, he, rfl⟩
    obtain ⟨hi, rfl⟩ := List.getElem?_eq_some_iff.1 he
    refine ⟨hi, by simp, fun j hj hjn => ?_⟩
    have hji : (es.map (·.name))[j]? = (es.map (·.name))[i]? := by
      rw [List.getElem?_map, List.getElem?_map, List.getElem?_eq_getElem hi,
        List.getElem?_eq_getElem (Nat.lt_trans hj hi)]
      simpa using hjn
    have hlt : j < (es.map (·.name)).length := by simpa using Nat.lt_trans hj hi
    exact Nat.ne_of_lt hj ((List.getElem?_inj hlt h.sound.distinct).1 hji)

/-- An end of a link stands at the entity that it refers to. -/
theorem nameOf_entity (h : s.Resolves es rs) {a : End} {x : LinkEnd} (hx : EndOf s.idOf? a x) :
    s.nameOf x.entity = a.reference := by
  obtain ⟨e, he, hn⟩ := h.idOf?_eq_some_iff.1 hx.entity
  rw [h.nameOf_eq he, hn]

theorem idOf?_lt (h : s.Resolves es rs) {name : String} {i : Nat} (hi : s.idOf? name = some i) :
    i < s.size := by
  obtain ⟨e, he, -⟩ := h.idOf?_eq_some_iff.1 hi
  rw [h.size_eq]
  exact (List.getElem?_eq_some_iff.1 he).1

/-- If no relationship leaves, every one of them has a link. -/
theorem links_of_inside (h : s.Resolves es rs) (hin : rs.filter (isInside (numberIn es)) = rs) :
    List.Forall₂ (fun x l => LinkOf s.idOf? x.2 x.1 l) rs.zipIdx s.links := by
  have hl := h.links
  rwa [idOf?_eq_numberIn h.tables, hin, ← idOf?_eq_numberIn h.tables] at hl

/-- The link at a place comes from the relationship at that place. -/
theorem linkOf (h : s.Resolves es rs) {n : Nat} {l : Link} (hl : s.links[n]? = some l) :
    ∃ r, (rs.filter (isInside s.idOf?))[n]? = some r ∧ LinkOf s.idOf? n r l := by
  obtain ⟨⟨r, m⟩, hr, hrl⟩ := forall₂_getElem?_right h.links hl
  rw [List.getElem?_zipIdx] at hr
  obtain ⟨_, hr', hm⟩ := Option.map_eq_some_iff.1 hr
  cases hm
  exact ⟨r, hr', by simpa using hrl⟩

/-- The relationship with a number inside becomes a link with this number. -/
theorem exists_linkOf (h : s.Resolves es rs) {n : Nat} {r : Relationship}
    (hr : (rs.filter (isInside s.idOf?))[n]? = some r) :
    ∃ l ∈ s.links, LinkOf s.idOf? n r l := by
  have hz : (rs.filter (isInside s.idOf?)).zipIdx[n]? = some (r, n) := by
    simp [List.getElem?_zipIdx, hr]
  obtain ⟨l, hl, hrl⟩ := forall₂_getElem?_left h.links hz
  exact ⟨l, List.mem_of_getElem? hl, hrl⟩

/-- The number of a link is its place. -/
theorem getElem?_links_iff (h : s.Resolves es rs) {n : Nat} {l : Link} :
    s.links[n]? = some l ↔ l ∈ s.links ∧ l.id = n := by
  constructor
  · intro hl
    obtain ⟨r, -, hr⟩ := h.linkOf hl
    exact ⟨List.mem_of_getElem? hl, hr.id⟩
  · rintro ⟨hl, rfl⟩
    obtain ⟨m, hm⟩ := List.getElem?_of_mem hl
    obtain ⟨r, -, hr⟩ := h.linkOf hm
    rw [hr.id, hm]

/-- The links are numbered from zero. -/
theorem map_id_links (h : s.Resolves es rs) :
    s.links.map Link.id = List.range s.links.length := by
  refine List.ext_getElem? fun n => ?_
  by_cases hn : n < s.links.length
  · rw [List.getElem?_map, List.getElem?_eq_getElem hn, List.getElem?_range hn, Option.map_some,
      (h.getElem?_links_iff.1 (List.getElem?_eq_getElem hn)).2]
  · rw [List.getElem?_eq_none (by simpa using hn), List.getElem?_eq_none (by simpa using hn)]

/-- The links stand in the order of their numbers. -/
theorem pairwise_id (h : s.Resolves es rs) : s.links.Pairwise fun a b => a.id < b.id := by
  rw [← List.pairwise_map (f := Link.id) (R := (· < ·)), h.map_id_links]
  exact List.pairwise_lt_range

theorem nodup_ids (h : s.Resolves es rs) : (s.links.map Link.id).Nodup :=
  h.map_id_links ▸ List.nodup_range

/-- The ends of a link stand at entities of the schema. -/
theorem entity_lt (h : s.Resolves es rs) {l : Link} (hl : l ∈ s.links) (side : Side) :
    (l.endAt side).entity < s.size := by
  obtain ⟨n, hn⟩ := List.getElem?_of_mem hl
  obtain ⟨r, -, hr⟩ := h.linkOf hn
  cases side with
  | first => exact h.idOf?_lt hr.first.entity
  | second => exact h.idOf?_lt hr.second.entity

end Resolves

end Schema

end EntityRelation
