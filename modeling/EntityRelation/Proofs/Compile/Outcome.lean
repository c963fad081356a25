import EntityRelation.Proofs.Catalog.Acceptance
import EntityRelation.Proofs.Compile.Stages

/-!
# When a package compiles

Compiling a package of a checked diagram fails for four reasons only, and the first one that applies
decides (`CompileFails`): the options are not valid, there is no such package, a column has an
unknown type, or an end of a relationship inside the package has an unknown cardinality.
**`compile_outcome`**: these are exactly the failures, and in all other cases there is a module.

What comes later cannot fail any more (`Settled`). The names of the entities differ since the
diagram was checked, every schema has an order, the columns have been typed when they are written,
and the options have been looked at. And since only relationships between the entities are resolved,
none of them is left out.
-/

namespace EntityRelation

open Dependency

/-- Why a package does not compile. -/
inductive CompileFails (c : Catalog) (package : String) (opts : Options) : Failure → Prop where
  /-- The options are not valid. -/
  | options {f : Failure} (invalid : opts.validate = .error f) : CompileFails c package opts f
  /-- No package has the name. -/
  | package (valid : opts.validate = .ok ()) (missing : ∀ p ∈ c.packages, p.name ≠ package) :
      CompileFails c package opts (.flawed package .noSuchPackage)
  /-- A column has an unknown type: the first such column of the first entity with one. -/
  | column {i j k : Nat} {p : Package} {e : Entity} {x : Column}
      (valid : opts.validate = .ok ())
      (found : IsFirst (·.name = package) c.packages i p)
      (entity : IsFirst (fun e => ∃ x ∈ e.columns, ¬ x.IsTyped) p.entities j e)
      (column : IsFirst (¬ Column.IsTyped ·) e.columns k x) :
      CompileFails c package opts (.unknownTypeIn e.name x.name x.type)
  /-- An end has an unknown cardinality: the first such end of the first relationship with one. -/
  | cardinality {i n k : Nat} {p : Package} {r : Relationship} {e : End}
      (valid : opts.validate = .ok ())
      (found : IsFirst (·.name = package) c.packages i p)
      (typed : ∀ e ∈ p.entities, ∀ x ∈ e.columns, x.IsTyped)
      (relationship : IsFirst (fun r => ∃ e ∈ [r.first, r.second], ¬ e.IsMarked)
        ((c.between p.entities).map (·.1)) n r)
      (unmarked : IsFirst (¬ End.IsMarked ·) [r.first, r.second] k e) :
      CompileFails c package opts
        (.flawed (Schema.labelOf n r) (.unknownCardinality (Text.trim e.cardinality)))

/-- What is settled for the entities of a package once the options are valid. -/
structure Settled (c : Catalog) (opts : Options) (es : List Entity) : Prop where
  /-- No name is found to be repeated. -/
  distinct : ∀ name, (Schema.build es ((c.between es).map (·.1))).outcome ≠
    .error (.flawed name .repeatedEntity)
  /-- No relationship is reported to be outside. -/
  inside : ∀ a b, .relationshipOutside a b ∉
    (Schema.build es ((c.between es).map (·.1))).events
  /-- Every relationship has its link. -/
  links : ∀ s, (Schema.build es ((c.between es).map (·.1))).outcome = .ok s →
    List.Forall₂ (fun x l => Schema.LinkOf s.idOf? x.2 x.1 l)
      ((c.between es).map (·.1)).zipIdx s.links
  /-- The schema has an order. -/
  order : ∀ s, (Schema.build es ((c.between es).map (·.1))).outcome = .ok s →
    ∃ o, s.order.outcome = .ok o
  /-- Every column has the field call that is written for it. -/
  columns : ∀ s, (Schema.build es ((c.between es).map (·.1))).outcome = .ok s →
    ∀ t ∈ s.tables, ∀ x ∈ t.columns, x.column.call = .ok x.call
  /-- The required options are there. -/
  options : (∃ file, opts.requireFile = .ok file) ∧ ∃ handle, opts.requireHandle = .ok handle

namespace Schema

variable {es : List Entity} {rs : List Relationship} {f : Failure}

/-- If their names differ, entities fail at the first column of unknown type. -/
theorem firstOffence_iff (hd : (es.map (·.name)).Nodup) : FirstOffence [] es f ↔
    ∃ j e, IsFirst (fun e => ∃ x ∈ e.columns, ¬ x.IsTyped) es j e ∧
      ∃ k x, IsFirst (¬ Column.IsTyped ·) e.columns k x ∧
        f = .unknownTypeIn e.name x.name x.type := by
  refine exists_congr fun j => exists_congr fun e => ?_
  rw [IsFirst.iff_forall_mem_take]
  constructor
  · rintro ⟨he, hs, ⟨hr | hr, -⟩ | ⟨-, k, x, hx, hf⟩⟩
    · exact absurd hr List.not_mem_nil
    · exact absurd hr (name_notMem_take hd he)
    · refine ⟨⟨he, ⟨x, hx.mem, hx.holds⟩, fun y hy ⟨z, hz, hzt⟩ => ?_⟩, k, x, hx, hf⟩
      exact hzt (hs.typed y hy z hz)
  · rintro ⟨⟨he, -, hleast⟩, k, x, hx, hf⟩
    refine ⟨he, ⟨fun _ _ => List.not_mem_nil, ((List.take_sublist j es).map _).nodup hd,
      fun y hy z hz => ?_⟩, .inr ⟨?_, k, x, hx, hf⟩⟩
    · by_contra hzt
      exact hleast y hy ⟨z, hz, hzt⟩
    · exact fun h => h.elim List.not_mem_nil (name_notMem_take hd he)

/-- If the names differ and no relationship leaves, a schema is not built exactly if some column or,
all of them having types, some end is not understood. -/
theorem build_eq_error_iff_of_inside (hd : (es.map (·.name)).Nodup)
    (hin : rs.filter (isInside (numberIn es)) = rs) :
    (build es rs).outcome = .error f ↔
      (∃ j e, IsFirst (fun e => ∃ x ∈ e.columns, ¬ x.IsTyped) es j e ∧
        ∃ k x, IsFirst (¬ Column.IsTyped ·) e.columns k x ∧
          f = .unknownTypeIn e.name x.name x.type) ∨
      ((∀ e ∈ es, ∀ x ∈ e.columns, x.IsTyped) ∧
        ∃ n r, IsFirst IllMarked rs n r ∧ EndOffence n r f) := by
  rw [build_eq_error_iff, firstOffence_iff hd, sound_iff, and_iff_right hd, hin]

/-- If no relationship leaves, none is reported to be outside. -/
theorem relationshipOutside_notMem_events (hin : rs.filter (isInside (numberIn es)) = rs)
    (a b : String) : .relationshipOutside a b ∉ (build es rs).events := by
  intro h
  simp only [build, Logged.mem_events_bind, Logged.events_liftM, Logged.events_pure,
    Logged.events_report, Logged.outcome_liftM, List.not_mem_nil, List.mem_singleton, reduceCtorEq,
    false_or, and_false, exists_false, or_false] at h
  obtain ⟨ts, hts, h⟩ := h
  obtain ⟨r, hr, hout⟩ := exists_outside_of_mem_events h
  rw [idOf?_eq_numberIn (s := ⟨ts, []⟩) (typeEntities_eq_ok hts).2,
    List.filter_eq_self.1 hin r hr] at hout
  cases hout

end Schema

/-- Only the first three stages can fail. -/
theorem compile_eq_error_iff {c : Catalog} {package : String} {opts : Options} {f : Failure} :
    (compile c package opts).outcome = .error f ↔ opts.validate = .error f ∨
      (opts.validate = .ok () ∧ (c.entitiesOf package = .error f ∨ ∃ es,
        c.entitiesOf package = .ok es ∧
          (Schema.build es ((c.between es).map (·.1))).outcome = .error f)) := by
  constructor
  · intro h
    have hf := h
    rw [outcome_compile] at hf
    simp only [bind_eq_error_iff] at hf
    rcases hf with hf | ⟨⟨⟩, hv, hf | ⟨es, he, hf | ⟨s, hs, -⟩⟩⟩
    · exact .inl hf
    · exact .inr ⟨hv, .inl hf⟩
    · exact .inr ⟨hv, .inr ⟨es, he, hf⟩⟩
    · obtain ⟨m, hm⟩ := exists_compile_eq_ok hv he hs
      rw [h] at hm
      cases hm
  · intro h
    rw [outcome_compile]
    simp only [bind_eq_error_iff]
    rcases h with hf | ⟨hv, hf | ⟨es, he, hf⟩⟩
    · exact .inl hf
    · exact .inr ⟨(), hv, .inl hf⟩
    · exact .inr ⟨(), hv, .inr ⟨es, he, .inl hf⟩⟩

variable {d : Diagram} {c : Catalog} {package : String} {opts : Options}

/-- The failures of a package of a checked diagram. -/
theorem compile_eq_error_iff_fails (hc : Catalog.ofDiagram d = .ok c) {f : Failure} :
    (compile c package opts).outcome = .error f ↔ CompileFails c package opts f := by
  rw [compile_eq_error_iff]
  constructor
  · rintro (hf | ⟨hv, hf | ⟨es, he, hf⟩⟩)
    · exact .options hf
    · obtain ⟨hm, rfl⟩ := Catalog.package_eq_error_iff.1 (map_eq_error_iff.1 hf)
      exact .package hv hm
    · obtain ⟨p, hp, rfl⟩ := map_eq_ok_iff.1 he
      obtain ⟨i, hi⟩ := Catalog.package_eq_ok_iff.1 hp
      have hd := Catalog.nodup_names_of_ofDiagram hc hi.mem
      rcases (Schema.build_eq_error_iff_of_inside hd (c.filter_isInside_between _)).1 hf with
        ⟨j, e, he, k, x, hx, rfl⟩ | ⟨ht, n, r, hr, k, e, he, rfl⟩
      · exact .column hv hi he hx
      · exact .cardinality hv hi ht hr he
  · have hfound : ∀ {i p}, IsFirst (·.name = package) c.packages i p →
        c.entitiesOf package = .ok p.entities ∧ (p.entities.map (·.name)).Nodup := fun hi =>
      ⟨map_eq_ok_iff.2 ⟨_, Catalog.package_eq_ok_iff.2 ⟨_, hi⟩, rfl⟩,
        Catalog.nodup_names_of_ofDiagram hc hi.mem⟩
    intro h
    cases h with
    | options hf => exact .inl hf
    | package hv hm =>
      exact .inr ⟨hv, .inl (map_eq_error_iff.2 (Catalog.package_eq_error_iff.2 ⟨hm, rfl⟩))⟩
    | column hv hi he hx =>
      obtain ⟨hes, hd⟩ := hfound hi
      exact .inr ⟨hv, .inr ⟨_, hes,
        (Schema.build_eq_error_iff_of_inside hd (c.filter_isInside_between _)).2
          (.inl ⟨_, _, he, _, _, hx, rfl⟩)⟩⟩
    | cardinality hv hi ht hr he =>
      obtain ⟨hes, hd⟩ := hfound hi
      exact .inr ⟨hv, .inr ⟨_, hes,
        (Schema.build_eq_error_iff_of_inside hd (c.filter_isInside_between _)).2
          (.inr ⟨ht, _, _, hr, _, _, he, rfl⟩)⟩⟩

/-- Once the options are valid, a package of a checked diagram can only fail in its columns and in
the cardinalities of its relationships. -/
theorem settled_of_ofDiagram (hc : Catalog.ofDiagram d = .ok c) (hv : opts.validate = .ok ())
    {es : List Entity} (he : c.entitiesOf package = .ok es) : Settled c opts es where
  distinct name hf := by
    obtain ⟨p, hp, rfl⟩ := map_eq_ok_iff.1 he
    obtain ⟨i, hi⟩ := Catalog.package_eq_ok_iff.1 hp
    have hd := Catalog.nodup_names_of_ofDiagram hc hi.mem
    rcases (Schema.build_eq_error_iff_of_inside hd (c.filter_isInside_between _)).1 hf with
      ⟨j, e, -, k, x, -, hf⟩ | ⟨-, n, r, -, k, e, -, hf⟩
    · cases hf
    · cases hf
  inside := Schema.relationshipOutside_notMem_events (c.filter_isInside_between es)
  links s hs := (Schema.resolves_of_build hs).links_of_inside (c.filter_isInside_between es)
  order s _ := by
    obtain ⟨o, ho, -⟩ := s.exists_order
    exact ⟨o, ho⟩
  columns s hs _ ht _ hx := (Schema.resolves_of_build hs).call_eq ht hx
  options := by
    obtain ⟨hf, hh, -⟩ := Options.validate_eq_ok_iff.1 hv
    exact ⟨hf, hh⟩

/-- Options fail because one of the two required ones is missing or because nothing indents. -/
theorem Options.validate_eq_error {f : Failure} (h : opts.validate = .error f) :
    (∃ name, f = .missingOption name) ∨ f = .noIndent := by
  have hreq : ∀ {name value g}, require name value = .error g → g = .missingOption name := by
    intro name value g h
    unfold require at h
    split at h <;> cases h
    rfl
  rcases bind_eq_error_iff.1 h with h | ⟨-, -, h⟩
  · exact .inl ⟨_, hreq (map_eq_error_iff.1 h)⟩
  · rcases bind_eq_error_iff.1 h with h | ⟨-, -, h⟩
    · exact .inl ⟨_, hreq (map_eq_error_iff.1 h)⟩
    · split at h <;> cases h
      exact .inr rfl

/-- Failures of checks that are made once more after the diagram has been checked. -/
def Failure.IsLate : Failure → Prop
  | .flawed _ .repeatedEntity | .stalled _ | .unknownTypeOf _ _ => True
  | _ => False

theorem CompileFails.not_isLate {f : Failure} (h : CompileFails c package opts f) : ¬ f.IsLate := by
  cases h with
  | options hf =>
    rcases Options.validate_eq_error hf with ⟨name, rfl⟩ | rfl
    · exact id
    · exact id
  | package => exact id
  | column => exact id
  | cardinality => exact id

/-- What compiling a package leads to. -/
structure CompileOutcome (c : Catalog) (package : String) (opts : Options) : Prop where
  /-- It fails exactly in these cases. -/
  fails : ∀ f, (compile c package opts).outcome = .error f ↔ CompileFails c package opts f
  /-- In all other cases there is a module. -/
  answers : (∃ m, (compile c package opts).outcome = .ok m) ↔ ∀ f, ¬ CompileFails c package opts f
  /-- It never fails at a check that is made once more. -/
  early : ∀ f, f.IsLate → (compile c package opts).outcome ≠ .error f
  /-- What comes after the first checks is settled. -/
  settled : ∀ es, opts.validate = .ok () → c.entitiesOf package = .ok es → Settled c opts es

/-- **When a package compiles**: a package of a checked diagram fails exactly as `CompileFails` says,
and it compiles in all other cases. -/
theorem compile_outcome (hc : Catalog.ofDiagram d = .ok c) (package : String) (opts : Options) :
    CompileOutcome c package opts where
  fails _ := compile_eq_error_iff_fails hc
  answers := by
    constructor
    · rintro ⟨m, hm⟩ f hf
      rw [(compile_eq_error_iff_fails hc).2 hf] at hm
      cases hm
    · exact fun h => exists_ok_of_ne_error fun f hf => h f ((compile_eq_error_iff_fails hc).1 hf)
  early _ hl hf := ((compile_eq_error_iff_fails hc).1 hf).not_isLate hl
  settled _ hv he := settled_of_ofDiagram hc hv he

/-- The tangled diagram is checked. -/
theorem compile_outcome_of_tangled :
    Catalog.ofDiagram .tangled = .ok ⟨.tangled⟩ ∧ CompileOutcome ⟨.tangled⟩ "p" .complete := by
  have h : Catalog.ofDiagram .tangled = .ok ⟨.tangled⟩ := rfl
  exact ⟨h, compile_outcome h "p" .complete⟩

end EntityRelation
