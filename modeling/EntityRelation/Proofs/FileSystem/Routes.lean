import EntityRelation.FileSystem.Tree
import Mathlib.Data.List.Basic

/-!
# Where paths lead

A path leads along its names, where `.` stays and `..` goes back (`Route`). A path that starts at
the root cannot go back behind it, and any other one may go up from where it started, which is why
it leads down from a place so many levels above its start. One path lies below another one if it
leads further down from where the other one leads (`Below`).

What is joined to a base leads on from where the base leads, unless it is absolute (`names_join`,
`isAbsolute_join`). So the paths that lie below every base they are joined to are those that lead
down by themselves: **`forall_below_join_iff`**.
-/

namespace EntityRelation.Path

/-! ### Names -/

theorem names_append_slash (s t : String) : names (s ++ "/" ++ t) = names s ++ names t := by
  have hlist : (s ++ "/" ++ t).toList = s.toList ++ '/' :: t.toList := by
    rw [String.toList_append, String.toList_append]
    simp
  rw [names, hlist, List.splitOn_append_cons_self, List.map_append, List.filter_append]
  rfl

@[simp] theorem names_empty : names "" = [] := by decide

/-- The characters of a path that does not lack a slash at its end. -/
theorem eq_of_lacksSlash_eq_false {base : String} (h : lacksSlash base = false) :
    base = "" ∨ ∃ s, base = s ++ "/" := by
  by_cases hbase : base = ""
  · exact .inl hbase
  · have hne : base.toList ≠ [] := fun hnil => hbase (String.toList_eq_nil_iff.1 hnil)
    have hlast : base.toList.getLast? = some '/' := by
      unfold lacksSlash at h
      simpa [hbase] using h
    obtain ⟨cs, hcs⟩ := List.getLast?_eq_some_iff.1 hlast
    refine .inr ⟨String.ofList cs, String.toList_inj.1 ?_⟩
    rw [hcs, String.toList_append, String.toList_ofList]
    rfl

/-- What is joined to a base has the names of the base in front of its own. -/
theorem names_join {base p : String} (hp : isAbsolute p = false) :
    names (join base p) = names base ++ names p := by
  unfold join
  rw [if_neg (by simp [hp])]
  by_cases hbase : lacksSlash base = true
  · rw [if_pos hbase, names_append_slash]
  · rw [if_neg hbase]
    rcases eq_of_lacksSlash_eq_false (Bool.eq_false_iff.2 hbase) with rfl | ⟨s, rfl⟩
    · simp
    · have hs : names (s ++ "/") = names s := by
        have h := names_append_slash s ""
        simpa using h
      rw [hs, names_append_slash]

theorem isAbsolute_append {s t : String} (hs : s ≠ "") : isAbsolute (s ++ t) = isAbsolute s := by
  have hne : s.toList ≠ [] := fun hnil => hs (String.toList_eq_nil_iff.1 hnil)
  unfold isAbsolute
  rw [String.toList_append, List.head?_append_of_ne_nil _ hne]

/-- What is joined to a base starts where the base starts. -/
theorem isAbsolute_join {base p : String} (hp : isAbsolute p = false) :
    isAbsolute (join base p) = isAbsolute base := by
  unfold join
  rw [if_neg (by simp [hp])]
  by_cases hbase : base = ""
  · subst hbase
    have hempty : lacksSlash "" = false := rfl
    rw [if_neg (by simp [hempty]), String.empty_append, hp]
    rfl
  · split
    · rw [String.append_assoc, isAbsolute_append hbase]
    · rw [isAbsolute_append hbase]

/-! ### Routes -/

/-- Where names lead: from the root or from some place, so many levels up, and then down. -/
structure Route where
  /-- The route starts at the root. -/
  fromRoot : Bool
  /-- So many levels it leads up from its start. -/
  up : Nat := 0
  /-- The names along which it leads down from there. -/
  down : List String := []
  deriving DecidableEq, Repr

namespace Route

variable {r : Route}

/-- The route that leads one name further. -/
def enter (r : Route) (name : String) : Route :=
  if name = "." then r
  else if name = ".." then
    if r.down ≠ [] then { r with down := r.down.dropLast }
    else if r.fromRoot then r else { r with up := r.up + 1 }
  else { r with down := r.down ++ [name] }

/-- The route that leads further along some names. -/
def along (r : Route) (names : List String) : Route := names.foldl enter r

@[simp] theorem along_nil (r : Route) : r.along [] = r := rfl

@[simp] theorem along_cons (r : Route) (name : String) (names : List String) :
    r.along (name :: names) = (r.enter name).along names := rfl

theorem along_append (r : Route) (xs ys : List String) :
    r.along (xs ++ ys) = (r.along xs).along ys := List.foldl_append

@[simp] theorem enter_dot (r : Route) : r.enter "." = r := if_pos rfl

theorem enter_back_of_ne_nil (h : r.down ≠ []) :
    r.enter ".." = { r with down := r.down.dropLast } := by
  rw [enter, if_neg (by decide), if_pos rfl, if_pos h]

theorem enter_name {name : String} (hdot : name ≠ ".") (hback : name ≠ "..") (r : Route) :
    r.enter name = { r with down := r.down ++ [name] } := by
  rw [enter, if_neg hdot, if_neg hback]

theorem fromRoot_enter (r : Route) (name : String) : (r.enter name).fromRoot = r.fromRoot := by
  unfold enter
  split_ifs <;> rfl

theorem up_le_up_enter (r : Route) (name : String) : r.up ≤ (r.enter name).up := by
  unfold enter
  split_ifs <;> simp

/-- A route does not lead down from a lower level than before. -/
theorem up_le_up_along (r : Route) (names : List String) : r.up ≤ (r.along names).up := by
  induction names generalizing r with
  | nil => exact Nat.le_refl _
  | cons name names ih => exact Nat.le_trans (up_le_up_enter r name) (ih _)

/-- Names that lead down by themselves lead down from everywhere. -/
theorem along_of_leadsDown {xs rest names : List String}
    (h : Route.along ⟨false, 0, xs⟩ names = ⟨false, 0, rest⟩) (r : Route) :
    Route.along { r with down := r.down ++ xs } names = { r with down := r.down ++ rest } := by
  induction names generalizing xs with
  | nil =>
    cases h
    rfl
  | cons name names ih =>
    rw [along_cons] at h ⊢
    by_cases hdot : name = "."
    · subst hdot
      rw [enter_dot] at h ⊢
      exact ih h
    · by_cases hback : name = ".."
      · subst hback
        by_cases hxs : xs = []
        · -- the names lead up from where they start, and never come back
          subst hxs
          have hup := up_le_up_along (Route.enter ⟨false, 0, []⟩ "..") names
          rw [h] at hup
          exact absurd hup (Nat.not_succ_le_zero 0)
        · rw [enter_back_of_ne_nil hxs] at h
          rw [enter_back_of_ne_nil (by simp [hxs])]
          show Route.along { r with down := (r.down ++ xs).dropLast } names = _
          rw [List.dropLast_append_of_ne_nil hxs]
          exact ih h
      · rw [enter_name hdot hback] at h ⊢
        show Route.along { r with down := r.down ++ xs ++ [name] } names = _
        rw [List.append_assoc]
        exact ih h

end Route

/-- Where a path leads. -/
def route (p : String) : Route := Route.along ⟨isAbsolute p, 0, []⟩ (names p)

/-- A path leads further down from where another one leads. -/
def Below (p q : String) : Prop :=
  ∃ name rest, route q = { route p with down := (route p).down ++ name :: rest }

theorem below_iff {p q : String} : Below p q ↔
    (route q).fromRoot = (route p).fromRoot ∧ (route q).up = (route p).up ∧
      (route p).down <+: (route q).down ∧ (route p).down ≠ (route q).down := by
  constructor
  · rintro ⟨name, rest, h⟩
    rw [h]
    exact ⟨rfl, rfl, List.prefix_append _ _, by simp⟩
  · rintro ⟨hroot, hup, ⟨more, hmore⟩, hne⟩
    cases more with
    | nil => exact absurd (by simpa using hmore) hne
    | cons name rest =>
      refine ⟨name, rest, ?_⟩
      show route q = ⟨(route p).fromRoot, (route p).up, (route p).down ++ name :: rest⟩
      rw [hmore, ← hroot, ← hup]

instance (p q : String) : Decidable (Below p q) := decidable_of_iff _ below_iff.symm

/-- What is joined to a base leads on from where the base leads. -/
theorem route_join {base p : String} (hp : isAbsolute p = false) :
    route (join base p) = (route base).along (names p) := by
  rw [route, isAbsolute_join hp, names_join hp, Route.along_append]
  rfl

theorem route_empty : route "" = ⟨false, 0, []⟩ := by decide

/-- A path that lies below the start leads down by itself. -/
theorem below_empty_iff {p : String} :
    Below "" p ↔ isAbsolute p = false ∧ ∃ name rest,
      Route.along ⟨false, 0, []⟩ (names p) = ⟨false, 0, name :: rest⟩ := by
  have hroot : (route p).fromRoot = isAbsolute p := by
    have h : ∀ (names : List String) (r : Route), (r.along names).fromRoot = r.fromRoot := by
      intro names
      induction names with
      | nil => exact fun r => rfl
      | cons name names ih => exact fun r => (ih _).trans (Route.fromRoot_enter r name)
    exact h _ _
  rw [Below, route_empty]
  constructor
  · rintro ⟨name, rest, h⟩
    have hp : isAbsolute p = false := by rw [← hroot, h]
    refine ⟨hp, name, rest, ?_⟩
    rw [route, hp] at h
    exact h
  · rintro ⟨hp, name, rest, h⟩
    refine ⟨name, rest, ?_⟩
    rw [route, hp]
    exact h

/-- **The paths that lie below every base** to which they are joined are those that lie below the
start. -/
theorem forall_below_join_iff {p : String} : (∀ base, Below base (join base p)) ↔ Below "" p := by
  constructor
  · intro h
    have hjoin : join "" p = p := by
      have hempty : lacksSlash "" = false := rfl
      unfold join
      rw [hempty, String.empty_append]
      simp
    exact hjoin ▸ h ""
  · intro h base
    obtain ⟨hp, name, rest, hdown⟩ := below_empty_iff.1 h
    have halong := Route.along_of_leadsDown hdown (route base)
    rw [List.append_nil] at halong
    exact ⟨name, rest, by rw [route_join hp]; exact halong⟩

/-! ### Locations -/

/-- The location to which names lead from a location. -/
def lead (l : Location) (names : List String) : Location := (Route.along ⟨true, 0, l⟩ names).down

/-- The location to which a path leads from the root. -/
def location (p : String) : Location := lead [] (names p)

@[simp] theorem lead_nil (l : Location) : lead l [] = l := rfl

theorem enter_fromRoot (l : Location) (name : String) :
    Route.enter ⟨true, 0, l⟩ name = ⟨true, 0, lead l [name]⟩ := by
  unfold lead Route.along Route.enter
  rw [List.foldl_cons, List.foldl_nil]
  split_ifs <;> simp_all

theorem along_fromRoot (l : Location) (names : List String) :
    Route.along ⟨true, 0, l⟩ names = ⟨true, 0, lead l names⟩ := by
  induction names generalizing l with
  | nil => rfl
  | cons name names ih =>
    have hlead : lead l (name :: names) = lead (lead l [name]) names := by
      rw [lead, Route.along_cons, enter_fromRoot]
      rfl
    rw [Route.along_cons, enter_fromRoot, ih, hlead]

theorem lead_append (l : Location) (xs ys : List String) :
    lead l (xs ++ ys) = lead (lead l xs) ys := by
  rw [lead, Route.along_append, along_fromRoot l xs]
  rfl

theorem lead_cons (l : Location) (name : String) (names : List String) :
    lead l (name :: names) = lead (lead l [name]) names := lead_append l [name] names

@[simp] theorem lead_dot (l : Location) : lead l ["."] = l := rfl

@[simp] theorem lead_back (l : Location) : lead l [".."] = l.dropLast := by
  by_cases hl : l = []
  · subst hl
    rfl
  · have h := Route.enter_back_of_ne_nil (r := ⟨true, 0, l⟩) hl
    exact congrArg Route.down h

theorem lead_name {name : String} (hdot : name ≠ ".") (hback : name ≠ "..") (l : Location) :
    lead l [name] = l ++ [name] := congrArg Route.down (Route.enter_name hdot hback _)

/-- What leads down by itself leads down from the location of every base. -/
theorem exists_location_join {p : String} (h : Below "" p) :
    ∃ name rest, ∀ base, location (join base p) = location base ++ name :: rest := by
  obtain ⟨hp, name, rest, hdown⟩ := below_empty_iff.1 h
  refine ⟨name, rest, fun base => ?_⟩
  have halong := Route.along_of_leadsDown hdown ⟨true, 0, location base⟩
  rw [List.append_nil] at halong
  rw [location, names_join hp, lead_append]
  exact congrArg Route.down halong

/-! ### What holds a path -/

/-- A reversed path that does not start with a slash may stay what it is. Otherwise the root is
left, or what follows a slash. -/
theorem trimmed_cases (cs : List Char) :
    (trimmed cs = cs ∧ cs.head? ≠ some '/') ∨ trimmed cs = ['/'] ∨
      ∃ xs, cs = xs ++ '/' :: trimmed cs := by
  induction cs with
  | nil => exact .inl ⟨rfl, by simp⟩
  | cons c rest ih =>
    by_cases h : c = '/' ∧ !rest.isEmpty ∨ c = '.' ∧ rest.head? = some '/'
    · have hstep : trimmed (c :: rest) = trimmed rest := by rw [trimmed, if_pos h]
      rw [hstep]
      rcases ih with ⟨hrest, hhead⟩ | hroot | ⟨xs, hxs⟩
      · rcases h with ⟨rfl, -⟩ | ⟨-, hslash⟩
        · exact .inr (.inr ⟨[], by rw [hrest]; rfl⟩)
        · exact absurd hslash hhead
      · exact .inr (.inl hroot)
      · exact .inr (.inr ⟨c :: xs, by rw [List.cons_append, ← hxs]⟩)
    · have hstep : trimmed (c :: rest) = c :: rest := by rw [trimmed, if_neg h]
      rw [hstep]
      by_cases hc : c = '/'
      · subst hc
        have hnil : rest = [] := by simpa using fun hne => h (.inl ⟨rfl, hne⟩)
        exact .inr (.inl (by rw [hnil]))
      · exact .inl ⟨rfl, by simpa using hc⟩

theorem trimmed_suffix (cs : List Char) : trimmed cs <:+ cs := by
  induction cs with
  | nil => exact List.suffix_refl []
  | cons c rest ih =>
    rw [trimmed]
    split
    · exact ih.trans (List.suffix_cons c rest)
    · exact List.suffix_refl _

/-- What holds a path is the root, the start or what stands before one of its slashes. -/
theorem parent?_cases {p q : String} (h : parent? p = some q) :
    q = "" ∨ q = "/" ∨ ∃ rest, p = q ++ "/" ++ rest := by
  obtain ⟨cs, hcs, hq⟩ : ∃ cs, cs <:+ p.toList.reverse ∧
      q = String.ofList (trimmed (cs.dropWhile (· != '/'))).reverse := by
    unfold parent? at h
    split at h
    · cases h
    · cases h
    · exact ⟨_, trimmed_suffix _, (Option.some.inj h).symm⟩
  rcases trimmed_cases (cs.dropWhile (· != '/')) with ⟨htrim, hhead⟩ | hroot | ⟨xs, hxs⟩
  · -- only nothing is left in front of the first slash
    have hnil : cs.dropWhile (· != '/') = [] := by
      by_contra hne
      obtain ⟨c, rest, hc⟩ := List.exists_cons_of_ne_nil hne
      have hnot := List.head?_dropWhile_not (· != '/') cs
      rw [hc] at hnot hhead
      simp_all
    left
    rw [hq, hnil]
    rfl
  · right; left
    rw [hq, hroot]
    rfl
  · right; right
    obtain ⟨ys, hys⟩ := (List.dropWhile_suffix (· != '/')).trans hcs
    refine ⟨String.ofList (ys ++ xs).reverse, String.toList_inj.1 ?_⟩
    rw [← List.reverse_inj, ← hys, hxs, hq]
    simp

/-- The names of what holds a path stand in front of the names of the path. -/
theorem names_parent? {p q : String} (h : parent? p = some q) : names q <+: names p := by
  rcases parent?_cases h with rfl | rfl | ⟨rest, rfl⟩
  · exact List.nil_prefix
  · exact List.nil_prefix
  · rw [names_append_slash]
    exact List.prefix_append _ _

theorem names_ancestor {p q : String} (h : q ∈ ancestors p) : names q <+: names p := by
  have hupward : ∀ n p, q ∈ upward n p → names q <+: names p := by
    intro n
    induction n with
    | zero => exact fun p hq => absurd hq (List.not_mem_nil)
    | succ n ih =>
      intro p hq
      rw [upward] at hq
      rcases List.mem_cons.1 hq with rfl | hq
      · exact List.prefix_refl _
      · cases hp : parent? p with
        | none =>
          rw [hp] at hq
          cases hq
        | some r =>
          rw [hp] at hq
          exact (ih r hq).trans (names_parent? hp)
  exact hupward _ p h

/-- A location on the way of a path: some of the names of the path, from the first one on, lead
there. -/
def OnWay (p : String) (l : Location) : Prop := ∃ names, names <+: Path.names p ∧ lead [] names = l

theorem onWay_location (p : String) : OnWay p (location p) := ⟨names p, List.prefix_refl _, rfl⟩

/-- What holds a path lies on its way. -/
theorem onWay_of_mem_ancestors {p q : String} (h : q ∈ ancestors p) : OnWay p (location q) :=
  ⟨names q, names_ancestor h, rfl⟩

end EntityRelation.Path
