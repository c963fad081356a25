import EntityRelation.Tree.Read
import Mathlib.Data.List.Forall2
import Mathlib.Data.List.Nodup

/-!
# What a JSON value spells

A JSON value is a tree of scalars, lists and records without bare words and marks (`Tree.IsJson`).
This module tells what such a value spells to a place that asks for a text, for a truth value and so
on, without the reading. `Tree.Agrees` holds a reader against this, and there is one lemma for each
reader.

A record is told by what it gives at the names of its fields (`Tree.Gives`). The fields may stand in
any order and among others, and a list may stand for a record, with the fields in their order and
the last ones left out. What is opened as a record is exactly what it gives
(`Tree.IsJson.bind_record?_eq_some_iff`).
-/

namespace EntityRelation

namespace Tree

/-! ### JSON values -/

/-- The tree is a JSON value. -/
inductive IsJson : Tree → Prop where
  /-- Nothing. -/
  | null : IsJson .null
  /-- A truth value. -/
  | bool (b : Bool) : IsJson (.bool b)
  /-- A number. -/
  | number (n : Number) : IsJson (.number n)
  /-- A text. -/
  | text (s : String) : IsJson (.text s)
  /-- A list of JSON values. -/
  | list {ts : List Tree} : (∀ t ∈ ts, IsJson t) → IsJson (.tuple ts)
  /-- A record of JSON values. -/
  | record {fs : List (String × Tree)} : (∀ f ∈ fs, IsJson f.2) → IsJson (.record fs)

attribute [simp] IsJson.null IsJson.bool IsJson.number IsJson.text

@[simp] theorem isJson_tuple_iff {ts : List Tree} : (tuple ts).IsJson ↔ ∀ t ∈ ts, t.IsJson := by
  constructor
  · intro h
    cases h with
    | list h => exact h
  · exact .list

@[simp] theorem isJson_record_iff {fs : List (String × Tree)} :
    (record fs).IsJson ↔ ∀ f ∈ fs, f.2.IsJson := by
  constructor
  · intro h
    cases h with
    | record h => exact h
  · exact .record

theorem anyInvalid_eq_false {ts : List Tree} (h : ∀ t ∈ ts, t.hasInvalid = false) :
    anyInvalid ts = false := by
  induction ts with
  | nil => rfl
  | cons t ts ih =>
    rw [anyInvalid, h t List.mem_cons_self, ih fun u hu => h u (List.mem_cons_of_mem _ hu)]
    rfl

theorem anyInvalidField_eq_false {fs : List (String × Tree)}
    (h : ∀ f ∈ fs, f.2.hasInvalid = false) : anyInvalidField fs = false := by
  induction fs with
  | nil => rfl
  | cons f fs ih =>
    rw [anyInvalidField, h f List.mem_cons_self, ih fun g hg => h g (List.mem_cons_of_mem _ hg)]
    rfl

variable {t : Tree}

/-- Every scalar of a JSON value stands for a value. -/
theorem IsJson.hasInvalid_eq_false (h : t.IsJson) : t.hasInvalid = false := by
  induction h with
  | list _ ih => exact anyInvalid_eq_false ih
  | record _ ih => exact anyInvalidField_eq_false ih
  | null => rfl
  | bool => rfl
  | number => rfl
  | text => rfl

/-- A scalar of a JSON value is what it looks like. -/
theorem IsJson.resolve_eq (h : t.IsJson) : t.resolve = t := by
  cases h <;> rfl

/-! ### Readers -/

variable {α : Type}

/-- A reader finds a value in a JSON value exactly if the JSON value spells it. -/
def Agrees (read : Tree → Option α) (spells : α → Tree → Prop) : Prop :=
  ∀ ⦃t : Tree⦄, t.IsJson → ∀ a, read t = some a ↔ spells a t

/-- The tree is a text. -/
def SpellsText (s : String) (t : Tree) : Prop := t = .text s

/-- The tree is a truth value. -/
def SpellsBool (b : Bool) (t : Tree) : Prop := t = .bool b

/-- The tree is a natural number. -/
def SpellsNatural (n : Nat) (t : Tree) : Prop := t = .number (.whole n)

/-- The tree is a text, or null for none. -/
def SpellsOption : Option String → Tree → Prop
  | some s, t => t = .text s
  | none, t => t = .null

/-- The tree is a list whose items say the values in turn. -/
def SpellsList (spells : α → Tree → Prop) (as : List α) (t : Tree) : Prop :=
  ∃ ts, t = .tuple ts ∧ List.Forall₂ spells as ts

theorem agrees_text : Agrees text? SpellsText := by
  intro t ht s
  cases ht <;> simp [text?, bare, SpellsText]

theorem agrees_bool : Agrees bool? SpellsBool := by
  intro t ht b
  cases ht <;> simp [bool?, bare, SpellsBool]

theorem agrees_natural (limit : Nat) :
    Agrees (natural? limit) fun n t => n ≤ limit ∧ SpellsNatural n t := by
  intro t ht n
  cases ht with
  | number x =>
    cases x with
    | whole i =>
      simp only [natural?, bare, SpellsNatural, Tree.number.injEq, Number.whole.injEq]
      split
      case isTrue h =>
        rw [Option.some.injEq]
        omega
      case isFalse h =>
        simp only [reduceCtorEq, false_iff]
        omega
    | real => simp [natural?, bare, SpellsNatural]
  | _ => simp [natural?, bare, SpellsNatural]

theorem agrees_option : Agrees (optional? text?) SpellsOption := by
  intro t ht o
  cases ht <;> cases o <;> simp [optional?, text?, bare, SpellsOption]

/-- Items are read one by one. -/
theorem mapM_eq_some_iff {read : Tree → Option α} {spells : α → Tree → Prop} {ts : List Tree}
    (h : ∀ t ∈ ts, ∀ a, read t = some a ↔ spells a t) (as : List α) :
    ts.mapM read = some as ↔ List.Forall₂ spells as ts := by
  induction ts generalizing as with
  | nil => simp [eq_comm]
  | cons t ts ih =>
    have ht := h t List.mem_cons_self
    have hts := ih fun u hu => h u (List.mem_cons_of_mem _ hu)
    simp only [List.mapM_cons, Option.bind_eq_bind, Option.bind_eq_some_iff, ht, hts,
      List.forall₂_cons_right_iff, Option.pure_def, Option.some.injEq]
    constructor
    · rintro ⟨a, ha, rest, hrest, rfl⟩
      exact ⟨a, rest, ha, hrest, rfl⟩
    · rintro ⟨a, rest, ha, hrest, rfl⟩
      exact ⟨a, ha, rest, hrest, rfl⟩

theorem agrees_list {read : Tree → Option α} {spells : α → Tree → Prop} (h : Agrees read spells) :
    Agrees (list? read) (SpellsList spells) := by
  intro t ht as
  cases ht with
  | list hts =>
    have hread := mapM_eq_some_iff (fun t ht => h (hts t ht)) as
    simp [list?, bare, SpellsList, hread]
  | _ => simp [list?, bare, SpellsList]

/-! ### Records -/

/-- What a tree gives at the names of the fields of a record. -/
inductive Gives (names : List String) (given : String → Option Tree) : Tree → Prop where
  /-- The fields stand in a record, in any order and among others, each of them once at most. -/
  | named {fs : List (String × Tree)} (once : ∀ n ∈ names, (fs.map Prod.fst).count n ≤ 1)
      (said : ∀ n t, given n = some t ↔ n ∈ names ∧ (n, t) ∈ fs) : Gives names given (.record fs)
  /-- The fields stand in a list, in their order, with the last ones left out at will. -/
  | placed {ts : List Tree} (fits : ts.length ≤ names.length)
      (said : ∀ n t, given n = some t ↔ ∃ i : Nat, names[i]? = some n ∧ ts[i]? = some t) :
      Gives names given (.tuple ts)

/-- What a tree gives at the names of the fields makes up a part. -/
def SpellsRecord (names : List String) (makes : α → (String → Option Tree) → Prop) (a : α)
    (t : Tree) : Prop :=
  ∃ given, t.Gives names given ∧ makes a given

/-- The field is there and spells the value. -/
def SpellsAt (spells : α → Tree → Prop) (a : α) (field : Option Tree) : Prop :=
  ∃ t, field = some t ∧ spells a t

/-- The field spells the value, or it is left out and the value is the one for when it is. -/
def SpellsAtOr (spells : α → Tree → Prop) (default a : α) (field : Option Tree) : Prop :=
  SpellsAt spells a field ∨ (field = none ∧ a = default)

/-- Where no name stands twice, what is looked up under a name is what stands beside it. -/
theorem lookup_eq_some_iff_mem {fs : List (String × Tree)} (h : (fs.map Prod.fst).Nodup)
    {n : String} : fs.lookup n = some t ↔ (n, t) ∈ fs := by
  induction fs with
  | nil => simp
  | cons f fs ih =>
    obtain ⟨m, u⟩ := f
    rw [List.map_cons, List.nodup_cons] at h
    rw [List.lookup_cons, List.mem_cons, Prod.mk.injEq]
    by_cases hnm : n = m
    · subst hnm
      have hnot : (n, t) ∉ fs := fun hm => h.1 (List.mem_map.2 ⟨_, hm, rfl⟩)
      simp [hnot, eq_comm]
    · simp [beq_false_of_ne hnm, hnm, ih h.2]

variable {names : List String} {given : String → Option Tree}

/-- A record gives what is looked up among its known fields, if none of them stands twice. -/
theorem gives_record_iff {fs : List (String × Tree)} : Gives names given (.record fs) ↔
    ∃ r, Record.known? names fs = some r ∧ given = fun n => r.fields.lookup n := by
  have hnames : (fs.filter fun f => names.contains f.1).map Prod.fst =
      (fs.map Prod.fst).filter names.contains := by
    rw [List.filter_map]
    rfl
  -- doublets are looked for among the known fields, and not in the whole record
  have honce : ((fs.filter fun f => names.contains f.1).map Prod.fst).Nodup ↔
      ∀ n ∈ names, (fs.map Prod.fst).count n ≤ 1 := by
    rw [hnames, List.nodup_iff_count_le_one]
    refine forall_congr' fun n => ?_
    by_cases hn : n ∈ names
    · rw [List.count_filter (by simpa using hn)]
      simp [hn]
    · have hzero : List.count n ((fs.map Prod.fst).filter names.contains) = 0 :=
        List.count_eq_zero.2 fun hm => hn (by simpa using (List.mem_filter.1 hm).2)
      simp [hn, hzero]
  have hlookup : ((fs.filter fun f => names.contains f.1).map Prod.fst).Nodup → ∀ n t,
      (fs.filter fun f => names.contains f.1).lookup n = some t ↔ n ∈ names ∧ (n, t) ∈ fs := by
    intro hnodup n t
    rw [lookup_eq_some_iff_mem hnodup, List.mem_filter, List.contains_iff_mem, and_comm]
  constructor
  · intro h
    cases h with
    | named once said =>
      refine ⟨_, if_pos (honce.2 once), funext fun n => Option.ext fun t => ?_⟩
      rw [said, hlookup (honce.2 once)]
  · rintro ⟨r, hr, rfl⟩
    rw [Record.known?] at hr
    split at hr
    case isTrue hnodup =>
      cases hr
      exact .named (honce.1 hnodup) (hlookup hnodup)
    case isFalse => cases hr

/-- A record without any other fields gives all of them. -/
theorem gives_fields {fs : List (String × Tree)} (hfs : fs.map Prod.fst = names)
    (hn : names.Nodup) : Gives names (fun n => fs.lookup n) (.record fs) := by
  subst hfs
  refine .named (fun n _ => List.nodup_iff_count_le_one.1 hn n) fun n t => ?_
  rw [lookup_eq_some_iff_mem hn]
  exact (and_iff_right_of_imp fun hm => List.mem_map_of_mem hm).symm

/-- A list gives what is looked up in it by the names in their order. -/
theorem gives_tuple_iff (hn : names.Nodup) {ts : List Tree} : Gives names given (.tuple ts) ↔
    ts.length ≤ names.length ∧ given = fun n => (names.zip ts).lookup n := by
  have hnodup : ((names.zip ts).map Prod.fst).Nodup := by
    rw [List.zip_eq_zip_take_min, List.map_fst_zip (by simp)]
    exact hn.sublist (List.take_sublist _ _)
  have hlookup : ∀ n t, (names.zip ts).lookup n = some t ↔
      ∃ i : Nat, names[i]? = some n ∧ ts[i]? = some t := by
    intro n t
    rw [lookup_eq_some_iff_mem hnodup, List.mem_iff_getElem?]
    simp only [List.getElem?_zip_eq_some]
  constructor
  · intro h
    cases h with
    | placed fits said =>
      exact ⟨fits, funext fun n => Option.ext fun t => by rw [said, hlookup]⟩
  · rintro ⟨hlength, rfl⟩
    exact .placed hlength hlookup

theorem record?_record (names : List String) (fs : List (String × Tree)) :
    (record fs).record? names = Record.known? names fs := rfl

theorem record?_tuple (names : List String) (ts : List Tree) : (tuple ts).record? names =
    if ts.length ≤ names.length then some ⟨names.zip ts, true⟩ else none := rfl

/-- A JSON value is opened to what it gives. -/
theorem IsJson.gives_iff (ht : t.IsJson) (hn : names.Nodup) : Gives names given t ↔
    ∃ r, t.record? names = some r ∧ given = fun n => r.fields.lookup n := by
  cases ht with
  | record hfs => exact gives_record_iff
  | list hts =>
    rw [gives_tuple_iff hn, record?_tuple]
    split
    case isTrue h => simp [h]
    case isFalse h => simp [h]
  | _ =>
    constructor
    · intro h
      cases h
    · rintro ⟨r, hr, -⟩
      cases hr

/-- The fields of a JSON value are JSON values. -/
theorem IsJson.isJson_field (ht : t.IsJson) {r : Record} (hr : t.record? names = some r) :
    ∀ f ∈ r.fields, f.2.IsJson := by
  cases ht with
  | record hfs =>
    rw [record?_record, Record.known?] at hr
    split at hr
    case isTrue =>
      cases hr
      exact fun f hf => hfs f (List.mem_filter.1 hf).1
    case isFalse => cases hr
  | list hts =>
    rw [record?_tuple] at hr
    split at hr
    case isTrue =>
      cases hr
      exact fun f hf => hts _ (List.of_mem_zip hf).2
    case isFalse => cases hr
  | _ => cases hr

/-- A part is read from what a JSON value gives at the names of its fields. -/
theorem IsJson.bind_record?_eq_some_iff (ht : t.IsJson) (hn : names.Nodup)
    {read : Record → Option α} {makes : α → (String → Option Tree) → Prop} {a : α}
    (h : ∀ r : Record, (∀ f ∈ r.fields, f.2.IsJson) →
      (read r = some a ↔ makes a fun n => r.fields.lookup n)) :
    (t.record? names).bind read = some a ↔ SpellsRecord names makes a t := by
  simp only [SpellsRecord, Option.bind_eq_some_iff, ht.gives_iff hn]
  constructor
  · rintro ⟨r, hr, ha⟩
    exact ⟨_, ⟨r, hr, rfl⟩, (h r (ht.isJson_field hr)).1 ha⟩
  · rintro ⟨given, ⟨r, hr, rfl⟩, hs⟩
    exact ⟨r, hr, (h r (ht.isJson_field hr)).2 hs⟩

end Tree

namespace Record

open EntityRelation.Tree

variable {α : Type} {r : Record} {read : Tree → Option α} {spells : α → Tree → Prop}

theorem isJson_of_lookup (hr : ∀ f ∈ r.fields, f.2.IsJson) {n : String} {t : Tree}
    (h : r.fields.lookup n = some t) : t.IsJson := by
  obtain ⟨before, after, hfields, -⟩ := List.lookup_eq_some_iff.1 h
  exact hr (n, t) (by simp [hfields])

/-- A field that has to be given spells its value. -/
theorem required?_eq_some_iff (hr : ∀ f ∈ r.fields, f.2.IsJson) (h : Agrees read spells)
    (n : String) (a : α) :
    r.required? n read = some a ↔ SpellsAt spells a (r.fields.lookup n) := by
  rw [required?, Option.bind_eq_some_iff]
  exact exists_congr fun t => and_congr_right fun ht => h (isJson_of_lookup hr ht) a

/-- A field that may be left out spells its value, or the value is the one for when it is. -/
theorem defaulted?_eq_some_iff (hr : ∀ f ∈ r.fields, f.2.IsJson) (h : Agrees read spells)
    (n : String) (default a : α) :
    r.defaulted? n default read = some a ↔ SpellsAtOr spells default a (r.fields.lookup n) := by
  rw [defaulted?, SpellsAtOr, SpellsAt]
  split
  case h_1 t ht => simp [ht, h (isJson_of_lookup hr ht)]
  case h_2 hnone => simp [hnone, eq_comm]

end Record

end EntityRelation
