import EntityRelation.Proofs.Compile.Stages
import EntityRelation.Proofs.Module.Origins
import EntityRelation.Proofs.Schema.Ends

/-!
# Every relationship is realised once

A relationship of the diagram with both ends in the package becomes one thing in the module and one
thing only: a line for a key in the class of the entity at its owning end, or the class of a
junction if both ends are many. `ModulePlan.Realises` says what it becomes, in the words of the
diagram: which of the lines of the module come from the relationship, what they say, and in which
class they stand. **`compile_realises_once`**: in every module that is compiled, every relationship
inside the package is realised in this way, and the junctions stand in the order in which the
classes meet their links.

Which line comes from which relationship is told by the numbers of the links
(`ModulePlan.comingFrom_traced`). A class has a key for each side of a link at its entity that has
the key (`filter_keys_planClass`), a link has one such side or none (`Schema.exists_here`), and the
entity there has one class.
-/

namespace EntityRelation

open Dependency TracedEntry

/-! ### In the words of the diagram -/

/-- What stands in the call of a key at a side, after the target: the way back is named by the end
of the owner, the key may be empty if the end of the target is, and then the tags. -/
def Relationship.keyOptions (r : Relationship) (side : Side) : List Argument :=
  ((r.endAt side).givenName.map fun b => .keyword "backref" (Text.Quoted.literal b)).toList
    ++ (if Text.trim (r.endAt side.opposite).cardinality = "0..1" then [.keyword "null" "True"]
        else [])
    ++ r.tags.map Tag.argument

/-- How a field class addresses the class of an entity: by a word of its own from that class itself,
by its name from a class below, and by its name in quotes from a class above. -/
inductive ForeignKey.Addresses (entity : String) : String → String → Prop where
  /-- From the class itself. -/
  | itself : Addresses entity "ForeignKeyField" "'self'"
  /-- From a class below. -/
  | direct : Addresses entity "ForeignKeyField" entity
  /-- From a class above. -/
  | ahead : Addresses entity "DeferredForeignKey" (Text.Quoted.literal entity)

/-- The line of a key at a side, with the field class that is called and what it is told for the
entity at the other side, such as `b = ForeignKeyField(B, backref='owner', null=True)`. The field
has the effective name of the end at the other side. -/
def Relationship.keyLine (r : Relationship) (side : Side) (callee target : String) : Entry :=
  ⟨1, (r.endAt side.opposite).effectiveName ++ " = " ++ callee ++ "(" ++
    ", ".intercalate (target :: (r.keyOptions side).map Argument.text) ++ ")"⟩

/-- What a relationship becomes in a module with the plan `m`, where `l` is its link and the links
that satisfy `comesFrom` come from it. -/
inductive ModulePlan.Realises (m : ModulePlan) (s : Schema) (docStrings : Bool)
    (comesFrom : Nat → Bool) (r : Relationship) (l : Link) : Prop where
  /-- One line, for a key in the class of the entity at the side that has the key, and no
  junction. -/
  | key (side : Side) (k : ForeignKey) (c : ClassPlan) (callee target : String)
      (toOne : ¬ (r.first.IsMany ∧ r.second.IsMany))
      (here : s.keyPlace l side = .here)
      (opposite : s.keyPlace l side.opposite = .opposite)
      (addresses : ForeignKey.Addresses (r.endAt side.opposite).reference callee target)
      (line : comingFrom comesFrom (m.traced s docStrings) = [r.keyLine side callee target])
      (inClass : OnlyIn comesFrom (·.traced s docStrings) m.classes c
        [r.keyLine side callee target])
      (owner : c.table.entity.name = (r.endAt side).reference)
      (once : (m.classes.flatMap (·.keys)).filter (comesFrom ·.link) = [k])
      (ofClass : k ∈ c.keys)
      (referent : s.nameOf k.target = (r.endAt side.opposite).reference)
      (fieldName : k.fieldName = (r.endAt side.opposite).effectiveName)
      (arguments : (k.call s).arguments = .positional target :: r.keyOptions side)
      (noJunction : m.junctions.filter (comesFrom ·.link) = [])
  /-- The heading of a junction and the lines of its two keys, and no key in the class of an
  entity. -/
  | junction
      (toMany : r.first.IsMany ∧ r.second.IsMany)
      (lines : comingFrom comesFrom (m.traced s docStrings) =
        [⟨0, classHeading (Junction.ofLink s l).name⟩,
          (Junction.ofLink s l).first.entry s, (Junction.ofLink s l).second.entry s])
      (noLine : ∀ c ∈ m.classes, comingFrom comesFrom (c.traced s docStrings) = [])
      (inJunction : OnlyIn comesFrom (·.traced s) m.junctions (Junction.ofLink s l)
        ((Junction.ofLink s l).entries s))
      (noKey : (m.classes.flatMap (·.keys)).filter (comesFrom ·.link) = [])
      (once : m.junctions.filter (comesFrom ·.link) = [Junction.ofLink s l])

/-- A key addresses the class of its target. -/
theorem ForeignKey.exists_addresses (s : Schema) (k : ForeignKey) : ∃ callee target,
    Addresses (s.nameOf k.target) callee target ∧
      k.base s = ⟨callee, [.positional target]⟩ := by
  unfold base
  cases k.reach with
  | direct => exact ⟨_, _, .direct, rfl⟩
  | ahead => exact ⟨_, _, .ahead, rfl⟩
  | itself => exact ⟨_, _, .itself, rfl⟩

namespace Schema

variable {s : Schema} {find : String → Option Nat} {n : Nat} {r : Relationship} {l : Link}

/-- The key of a link has the arguments that its relationship asks for. -/
theorem LinkOf.options_keyAt (h : LinkOf find n r l) (p : Progress) {side : Side}
    (hm : (l.endAt side.opposite).cardinality.isMany = false) :
    (keyAt p l side).options = r.keyOptions side := by
  have hb : (keyAt p l side).backref = (r.endAt side).givenName := (h.endAt side).givenName
  have hn : (keyAt p l side).nullable =
      decide (Text.trim (r.endAt side.opposite).cardinality = "0..1") :=
    (h.endAt side.opposite).isOptional_eq hm
  have ht : (keyAt p l side).tags = r.tags := h.tags
  simp only [ForeignKey.options, Relationship.keyOptions, hb, hn, ht, decide_eq_true_eq]
  rfl

/-- The call of the key of a link addresses the entity at the other side. -/
theorem LinkOf.exists_call_keyAt (h : LinkOf find n r l) {side : Side}
    (hk : s.keyPlace l side = .here) (p : Progress) : ∃ callee target,
    ForeignKey.Addresses (s.nameOf (l.endAt side.opposite).entity) callee target ∧
      (keyAt p l side).call s = ⟨callee, .positional target :: r.keyOptions side⟩ := by
  obtain ⟨callee, target, haddresses, hbase⟩ := (keyAt p l side).exists_addresses s
  refine ⟨callee, target, haddresses, ?_⟩
  rw [ForeignKey.call, h.options_keyAt p (isMany_opposite_of_here hk), hbase]
  rfl

/-! ### The keys of a link -/

variable {p : Progress} {id : Nat} {xs : List Nat}

/-- The ends of a link at an entity are the ends there that have its number. -/
theorem filter_sidesOf (hn : (s.links.map Link.id).Nodup) (hl : l ∈ s.links) (id : Nat) :
    (s.sidesOf id).filter (·.1.id == l.id) = (l.sidesAt id).map fun side => (l, side) := by
  rw [sidesOf_eq, List.filter_flatMap, flatMap_eq_of_unique hn.of_map hl fun x hx hne => ?_]
  · refine List.filter_eq_self.2 fun y hy => ?_
    obtain ⟨side, -, rfl⟩ := List.mem_map.1 hy
    exact beq_self_eq_true _
  · refine List.filter_eq_nil_iff.2 fun y hy he => ?_
    obtain ⟨side, -, rfl⟩ := List.mem_map.1 hy
    exact hne (List.inj_on_of_nodup_map hn hx hl (beq_iff_eq.1 he))

/-- The keys of a class that come from a link: one for each side at the entity that has its key
there. -/
theorem filter_keys_planClass (hn : (s.links.map Link.id).Nodup) (hl : l ∈ s.links)
    (p : Progress) (id : Nat) (t : Table) :
    (s.planClass p id t).1.keys.filter (·.link == l.id) =
      ((l.sidesAt id).filter fun side => s.keyPlace l side = .here).map (keyAt p l) := by
  have hlink : (fun k : ForeignKey => k.link == l.id) ∘ (fun x => keyAt p x.1 x.2) =
      fun x : Link × Side => x.1.id == l.id := rfl
  rw [keys_planClass, List.filter_map, hlink, List.filter_filter,
    List.filter_congr fun x _ => Bool.and_comm _ _, ← List.filter_filter, filter_sidesOf hn hl,
    List.filter_map, List.map_map]
  rfl

/-- Classes have no key that comes from a link if the key is at none of their entities. -/
theorem filter_keys_planClasses_eq_nil (hn : (s.links.map Link.id).Nodup) (hl : l ∈ s.links)
    (h : ∀ side, s.keyPlace l side = .here → (l.endAt side).entity ∉ xs) (p : Progress) :
    ((s.planClasses p xs).1.flatMap (·.keys)).filter (·.link == l.id) = [] := by
  induction xs generalizing p with
  | nil => rfl
  | cons id xs ih =>
    have hxs := ih fun side hk hm => h side hk (List.mem_cons_of_mem id hm)
    cases ht : s.tables[id]? with
    | none => rw [planClasses_cons_of_none ht, hxs]
    | some t =>
      have hid : (l.sidesAt id).filter (fun side => s.keyPlace l side = .here) = [] :=
        List.filter_eq_nil_iff.2 fun side hs hk =>
          h side (of_decide_eq_true hk) (mem_sidesAt.1 hs ▸ List.mem_cons_self)
      rw [planClasses_cons_of_some ht, List.flatMap_cons, List.filter_append,
        filter_keys_planClass hn hl, hid, hxs]
      rfl

variable {es : List Entity} {rs : List Relationship}

/-- A link that has its key on one side gives one key, in the class of the entity there. -/
theorem filter_keys_plan_of_here (hr : s.Resolves es rs) (hxs : xs.Perm s.ids) (hl : l ∈ s.links)
    {side : Side} (hk : s.keyPlace l side = .here)
    (ho : s.keyPlace l side.opposite = .opposite) :
    ∃ p, ((s.plan xs).classes.flatMap (·.keys)).filter (·.link == l.id) = [keyAt p l side] ∧
      ∃ c ∈ (s.plan xs).classes, c.keys.filter (·.link == l.id) = [keyAt p l side] ∧
        c.Declares s (l.endAt side).entity := by
  have hlt := hr.entity_lt hl side
  obtain ⟨t, ht⟩ : ∃ t, s.tables[(l.endAt side).entity]? = some t :=
    ⟨_, List.getElem?_eq_getElem hlt⟩
  obtain ⟨ys, zs, rfl, hys, hzs⟩ := exists_append_of_nodup (hxs.nodup_iff.2 List.nodup_range)
    (hxs.mem_iff.2 (List.mem_range.2 hlt))
  have hone : ∀ x, s.keyPlace l x = .here → x = side := fun x hx => by
    rcases side.eq_or_eq_opposite x with rfl | rfl
    · rfl
    · rw [ho] at hx
      cases hx
  have hnil : ∀ ws : List Nat, (∀ e ∈ ws, e ≠ (l.endAt side).entity) → ∀ p,
      ((s.planClasses p ws).1.flatMap (·.keys)).filter (·.link == l.id) = [] := fun ws hws =>
    filter_keys_planClasses_eq_nil hr.nodup_ids hl fun x hx hm => hws _ hm (by rw [hone x hx])
  obtain ⟨q, hc⟩ := exists_classes_plan_eq ht ys zs
  have hkeys := filter_keys_planClass hr.nodup_ids hl (s.planClasses {} ys).2
    (l.endAt side).entity t
  rw [filter_sidesAt_of_here hk ho, if_pos rfl, List.map_singleton] at hkeys
  refine ⟨(s.planClasses {} ys).2, ?_,
    (s.planClass (s.planClasses {} ys).2 (l.endAt side).entity t).1, ?_, hkeys, ht⟩
  · rw [hc, List.flatMap_append, List.flatMap_cons, List.filter_append, List.filter_append,
      hnil ys hys, hnil zs hzs, hkeys]
    rfl
  · rw [hc]
    exact List.mem_append_right _ List.mem_cons_self

/-- A link between two many ends gives no key. -/
theorem filter_keys_plan_of_manyToMany (hr : s.Resolves es rs) (hl : l ∈ s.links)
    (hm : l.IsManyToMany) :
    ((s.plan xs).classes.flatMap (·.keys)).filter (·.link == l.id) = [] := by
  refine filter_keys_planClasses_eq_nil hr.nodup_ids hl (fun side hk => ?_) {}
  rw [keyPlace_eq_junction_iff.2 hm] at hk
  cases hk

/-- A link gives one junction if both its ends are many, and none if not. -/
theorem filter_junctions_plan (hr : s.Resolves es rs) (hxs : xs.Perm s.ids) (hl : l ∈ s.links) :
    (s.plan xs).junctions.filter (·.link == l.id) =
      if l.IsManyToMany then [Junction.ofLink s l] else [] := by
  have hperm := met_links_perm hr hxs
  have hid : ∀ x ∈ met (fun id l => l.touches id) xs (s.links.filter fun l => l.IsManyToMany),
      (x.id == l.id) = true ↔ x = l := fun x hx => by
    have hx : x ∈ s.links := (List.mem_filter.1 (hperm.mem_iff.1 hx)).1
    rw [beq_iff_eq]
    exact ⟨List.inj_on_of_nodup_map hr.nodup_ids hx hl, fun h => h ▸ rfl⟩
  rw [junctions_plan hr fun id h => List.mem_range.1 (hxs.mem_iff.1 h), List.filter_map]
  split
  case isTrue hm =>
    have hlm := hperm.mem_iff.2 (List.mem_filter.2 ⟨hl, decide_eq_true hm⟩)
    have hnd := hperm.nodup_iff.2 (hr.nodup_ids.of_map.filter _)
    exact congrArg (List.map _) (filter_eq_singleton hnd hlm hid)
  case isFalse hm =>
    rw [List.map_eq_nil_iff, List.filter_eq_nil_iff]
    intro x hx he
    obtain rfl := (hid x hx).1 he
    exact hm (of_decide_eq_true (List.mem_filter.1 (hperm.mem_iff.1 hx)).2)

end Schema

/-! ### What a relationship becomes -/

namespace Stages

variable {c : Catalog} {package : String} {opts : Options} {es : List Entity} {s : Schema}
variable {o : Order} {m : TableModule} {r : Relationship} {l : Link} {i : Nat}

/-- An end stands at the entity that it refers to. -/
theorem nameOf_endAt (h : Stages c package opts es s o m) (hrl : Schema.LinkOf s.idOf? l.id r l)
    (side : Side) : s.nameOf (l.endAt side).entity = (r.endAt side).reference :=
  h.resolves.nameOf_entity (hrl.endAt side)

/-- The line of the key of a link says what the relationship asks for. -/
theorem exists_keyLine (h : Stages c package opts es s o m) (hrl : Schema.LinkOf s.idOf? l.id r l)
    {side : Side} (hk : s.keyPlace l side = .here) (p : Progress) : ∃ callee target,
    ForeignKey.Addresses (r.endAt side.opposite).reference callee target ∧
      (Schema.keyAt p l side).entry s = r.keyLine side callee target ∧
      ((Schema.keyAt p l side).call s).arguments = .positional target :: r.keyOptions side := by
  obtain ⟨callee, target, haddresses, hcall⟩ := hrl.exists_call_keyAt hk p
  rw [h.nameOf_endAt hrl side.opposite] at haddresses
  have hname : (Schema.keyAt p l side).fieldName = (r.endAt side.opposite).effectiveName :=
    (hrl.endAt side.opposite).name_eq
  refine ⟨callee, target, haddresses, ?_, by rw [hcall]⟩
  rw [ForeignKey.entry, hcall, hname, Relationship.keyLine, assignment, FieldCall.text]
  simp only [List.map_cons, Argument.text, String.append_assoc]

/-- The relationship of a link that has its key on one side becomes the line of this key. -/
theorem realises_of_here (h : Stages c package opts es s o m) (hl : l ∈ s.links)
    (hrl : Schema.LinkOf s.idOf? l.id r l) (hm : ¬ l.IsManyToMany) (docStrings : Bool) :
    (s.plan o.placed).Realises s docStrings (fun n => n == l.id) r l := by
  have hp := h.respects.placed_perm
  have hj := Schema.filter_junctions_plan h.resolves hp hl
  rw [if_neg hm] at hj
  obtain ⟨side, hk, ho⟩ := s.exists_here hm
  obtain ⟨p, honce, d, hd, hkeys, hdecl⟩ := Schema.filter_keys_plan_of_here h.resolves hp hl hk ho
  obtain ⟨callee, target, haddresses, hentry, harguments⟩ := h.exists_keyLine hrl hk p
  have hall : comingFrom (fun n => n == l.id)
      ((s.plan o.placed).classes.flatMap (·.traced s docStrings)) =
        [r.keyLine side callee target] := by
    rw [ClassPlan.comingFrom_classes, honce, List.map_singleton, hentry]
  have hclass : comingFrom (fun n => n == l.id) (d.traced s docStrings) =
      [r.keyLine side callee target] := by
    rw [ClassPlan.comingFrom_traced, hkeys, List.map_singleton, hentry]
  have hmany : ¬ (r.first.IsMany ∧ r.second.IsMany) := mt hrl.isManyToMany_iff.2 hm
  refine .key side (Schema.keyAt p l side) d callee target hmany hk ho haddresses ?_
    (onlyIn_of_mem hall hd hclass) ?_ honce ?_ (h.nameOf_endAt hrl side.opposite)
    (hrl.endAt side.opposite).name_eq harguments hj
  · rw [ModulePlan.comingFrom_traced, honce, hj, List.map_singleton, hentry]
    rfl
  · rw [hdecl.name_eq, h.nameOf_endAt hrl]
  · exact mem_of_filter_eq_singleton hkeys

/-- The relationship of a link between two many ends becomes a junction. -/
theorem realises_of_manyToMany (h : Stages c package opts es s o m) (hl : l ∈ s.links)
    (hrl : Schema.LinkOf s.idOf? l.id r l) (hm : l.IsManyToMany) (docStrings : Bool) :
    (s.plan o.placed).Realises s docStrings (fun n => n == l.id) r l := by
  have hj := Schema.filter_junctions_plan h.resolves h.respects.placed_perm hl
  rw [if_pos hm] at hj
  have hk : ((s.plan o.placed).classes.flatMap (·.keys)).filter (·.link == l.id) = [] :=
    Schema.filter_keys_plan_of_manyToMany h.resolves hl hm
  have hclasses : comingFrom (fun n => n == l.id)
      ((s.plan o.placed).classes.flatMap (·.traced s docStrings)) = [] := by
    rw [ClassPlan.comingFrom_classes, hk, List.map_nil]
  have hjunctions : comingFrom (fun n => n == l.id)
      ((s.plan o.placed).junctions.flatMap (·.traced s)) = (Junction.ofLink s l).entries s := by
    rw [Junction.comingFrom_junctions, hj, List.flatMap_singleton]
  refine .junction (hrl.isManyToMany_iff.1 hm) ?_ ?_
    (onlyIn_of_mem hjunctions (mem_of_filter_eq_singleton hj) ?_) hk hj
  · rw [ModulePlan.traced, comingFrom_append, hclasses, hjunctions]
    rfl
  · rwa [comingFrom_flatMap, List.flatMap_eq_nil_iff] at hclasses
  · rw [Junction.comingFrom_traced]
    exact if_pos (beq_self_eq_true l.id)

/-- A relationship becomes what its link becomes. -/
theorem realises (h : Stages c package opts es s o m)
    (hi : (c.between es)[l.id]? = some (r, i)) (hl : l ∈ s.links)
    (hrl : Schema.LinkOf s.idOf? l.id r l) (docStrings : Bool) :
    (s.plan o.placed).Realises s docStrings (fun n => c.placeOf? es n == some i) r l := by
  have hfrom : (fun n => c.placeOf? es n == some i) = fun n => n == l.id := by
    funext n
    rw [Bool.eq_iff_iff, beq_iff_eq, beq_iff_eq, Catalog.placeOf?_eq_some_iff hi]
  rw [hfrom]
  by_cases hm : l.IsManyToMany
  · exact h.realises_of_manyToMany hl hrl hm docStrings
  · exact h.realises_of_here hl hrl hm docStrings

end Stages

/-- What a module that was compiled has of the relationships of the diagram. -/
structure Realisation (c : Catalog) (opts : Options) (es : List Entity) (s : Schema) (o : Order)
    (m : TableModule) : Prop where
  /-- The classes of the junctions stand below the classes of the entities. -/
  lines : ∃ file handle, m.lines = Outline.lines opts.indentUnit
    (TableModule.preamble file handle ++
      ((s.plan o.placed).classes.flatMap (·.outline s opts.docStrings) ++
        (s.plan o.placed).junctions.flatMap (·.outline s)))
  /-- The lines of the classes are those whose origins are told. -/
  traced : (s.plan o.placed).classes.flatMap (·.outline s opts.docStrings) ++
      (s.plan o.placed).junctions.flatMap (·.outline s) =
    entries ((s.plan o.placed).traced s opts.docStrings)
  /-- Every entity is placed once. -/
  placed : o.placed.Perm s.ids
  /-- The classes are those of the entities, as they are placed. -/
  classes : (s.plan o.placed).classes.map (·.table) = o.placed.filterMap (s.tables[·]?)
  /-- Every relationship inside the package becomes one thing. -/
  once : ∀ i r, c.diagram.relationships[i]? = some r → Catalog.inside (es.map (·.name)) r = true →
    ∃ l ∈ s.links, Schema.LinkOf s.idOf? l.id r l ∧
      (s.plan o.placed).Realises s opts.docStrings (fun n => c.placeOf? es n == some i) r l
  /-- The junctions are those of the links between two many ends, in the order of the first
  entities at which they stand and then of their numbers. -/
  junctions : ∃ ls : List Link, (s.plan o.placed).junctions = ls.map (Junction.ofLink s) ∧
    ls.Perm (s.links.filter fun l => l.IsManyToMany) ∧
    ls.Pairwise fun a b => o.placed.findIdx a.touches < o.placed.findIdx b.touches ∨
      (o.placed.findIdx a.touches = o.placed.findIdx b.touches ∧ a.id < b.id)

end EntityRelation
