import EntityRelation.Proofs.FileSystem.Routes

/-!
# What changes in a tree of files

A path that can be followed in a tree leads to its location (`location_eq_of_locate`), and it can
still be followed when the tree keeps its directories and files (`Keeps`). So a request to a tree
says what it changes: writing a file and making a directory change what stands at the location of
their path (`write_eq_ok`, `makeDirectory_eq_ok`), and the file that was written can be read there
(`read_eq_ok`). A directory that is removed is cleared first (`removeDirectory_cases`): nothing is
left below its location, and all that does not stand there or below stays (`IsCleared.node?`).
-/

namespace EntityRelation.FileTree

open EntityRelation.Path

variable {t t' : FileTree} {l k : Location} {p : String}

@[simp] theorem node?_root (t : FileTree) : t.node? [] = some .directory := rfl

/-- All but what is put somewhere stands where it stood. -/
theorem node?_put_of_ne (t : FileTree) (n : Node) (h : k ≠ l) :
    (t.put l n).node? k = t.node? k := by
  rw [node?_put, if_neg h]
  split_ifs with hnil
  · rw [hnil, node?_root]
  · rfl

theorem node?_put_self (t : FileTree) (n : Node) (h : l ≠ []) : (t.put l n).node? l = some n := by
  rw [node?_put, if_neg h, if_pos rfl]

/-- There is nothing but a directory at the root. -/
theorem ne_nil_of_ne_directory (h : t.node? l ≠ some .directory) : l ≠ [] :=
  fun hnil => h (by rw [hnil, node?_root])

/-- What stood in a tree still stands there, where a file may have got other bytes. -/
structure Keeps (t t' : FileTree) : Prop where
  /-- The directories are there. -/
  directory : ∀ {l}, t.node? l = some .directory → t'.node? l = some .directory
  /-- The files are there. -/
  file : ∀ {l c}, t.node? l = some (.file c) → ∃ c', t'.node? l = some (.file c')

theorem Keeps.refl (t : FileTree) : Keeps t t := ⟨id, fun h => ⟨_, h⟩⟩

theorem Keeps.trans {t'' : FileTree} (h : Keeps t t') (h' : Keeps t' t'') : Keeps t t'' where
  directory hl := h'.directory (h.directory hl)
  file hl := by
    obtain ⟨c, hc⟩ := h.file hl
    exact h'.file hc

/-- A file may be put where there is no directory. -/
theorem keeps_put_file (h : t.node? l ≠ some .directory) (content : ByteArray) :
    Keeps t (t.put l (.file content)) where
  directory {k} hk := by
    have hkl : k ≠ l := fun hkl => h (hkl ▸ hk)
    rw [node?_put_of_ne t _ hkl, hk]
  file {k c} hk := by
    by_cases hkl : k = l
    · exact ⟨content, by rw [hkl, node?_put_self t _ (ne_nil_of_ne_directory h)]⟩
    · exact ⟨c, by rw [node?_put_of_ne t _ hkl, hk]⟩

/-- A file that gets other bytes was there before. -/
theorem keeps_of_put_file {c : ByteArray} (h : t.node? l = some (.file c)) (content : ByteArray) :
    Keeps (t.put l (.file content)) t where
  directory {k} hk := by
    by_cases hkl : k = l
    · subst hkl
      have hnil : k ≠ [] := ne_nil_of_ne_directory (t := t) (by rw [h]; simp)
      rw [node?_put_self t _ hnil] at hk
      cases hk
    · rwa [node?_put_of_ne t _ hkl] at hk
  file {k c'} hk := by
    by_cases hkl : k = l
    · exact ⟨c, hkl ▸ h⟩
    · exact ⟨c', by rwa [node?_put_of_ne t _ hkl] at hk⟩

/-! ### Following names -/

/-- What it takes to follow one name more. -/
theorem follow_cons_eq_ok_iff {name : String} {rest : List String} :
    t.follow l (name :: rest) = .ok k ↔
      (name = "." ∧ t.follow l rest = .ok k) ∨
      (name = ".." ∧ t.follow l.dropLast rest = .ok k) ∨
      (isDots name = false ∧ checkName name = .ok () ∧
        ((t.node? (l ++ [name]) = some .directory ∧ t.follow (l ++ [name]) rest = .ok k) ∨
          (∃ c, t.node? (l ++ [name]) = some (.file c)) ∧ rest = [] ∧ k = l ++ [name])) := by
  rw [follow]
  by_cases hdot : name = "."
  · subst hdot
    simp [isDots]
  · by_cases hback : name = ".."
    · subst hback
      simp [isDots]
    · have hdots : isDots name = false := by simp [isDots, hdot, hback]
      simp only [hdot, hback, hdots, if_false, false_and, false_or, true_and]
      cases checkName name with
      | error e => simp [bind, Except.bind]
      | ok u =>
        cases hnode : t.node? (l ++ [name]) with
        | none => simp [bind, Except.bind]
        | some n =>
          cases n with
          | directory => simp [bind, Except.bind]
          | file c =>
            cases rest with
            | nil => simp [bind, Except.bind, eq_comm]
            | cons => simp [bind, Except.bind]

/-- Names that can be followed lead where they lead by themselves. -/
theorem lead_eq_of_follow {names : List String} (h : t.follow l names = .ok k) :
    lead l names = k := by
  induction names generalizing l with
  | nil => exact Except.ok.inj h
  | cons name rest ih =>
    rw [lead_cons]
    rcases follow_cons_eq_ok_iff.1 h with ⟨rfl, h⟩ | ⟨rfl, h⟩ | ⟨hdots, -, h⟩
    · exact ih h
    · rw [lead_back]
      exact ih h
    · have hname : name ≠ "." ∧ name ≠ ".." := by simpa [isDots] using hdots
      rw [lead_name hname.1 hname.2]
      rcases h with ⟨-, h⟩ | ⟨-, rfl, rfl⟩
      · exact ih h
      · rfl

/-- Names can still be followed in a tree that keeps its directories and files. -/
theorem Keeps.follow {names : List String} (hk : Keeps t t') (h : t.follow l names = .ok k) :
    t'.follow l names = .ok k := by
  induction names generalizing l with
  | nil => exact h
  | cons name rest ih =>
    rw [follow_cons_eq_ok_iff] at h ⊢
    rcases h with ⟨rfl, h⟩ | ⟨rfl, h⟩ | ⟨hdots, hcheck, ⟨hd, h⟩ | ⟨⟨c, hc⟩, hr, rfl⟩⟩
    · exact .inl ⟨rfl, ih h⟩
    · exact .inr (.inl ⟨rfl, ih h⟩)
    · exact .inr (.inr ⟨hdots, hcheck, .inl ⟨hk.directory hd, ih h⟩⟩)
    · exact .inr (.inr ⟨hdots, hcheck, .inr ⟨hk.file hc, hr, rfl⟩⟩)

/-- Names that lead to a directory can be followed further. -/
theorem follow_append {m : Location} {xs ys : List String}
    (hx : t.follow l (xs ++ ["."]) = .ok m) (hy : t.follow m ys = .ok k) :
    t.follow l (xs ++ ys) = .ok k := by
  induction xs generalizing l with
  | nil =>
    have hm : l = m := Except.ok.inj hx
    rw [List.nil_append, hm]
    exact hy
  | cons name xs ih =>
    rw [List.cons_append, follow_cons_eq_ok_iff] at hx ⊢
    rcases hx with ⟨rfl, hx⟩ | ⟨rfl, hx⟩ | ⟨hdots, hcheck, ⟨hd, hx⟩ | ⟨-, hr, -⟩⟩
    · exact .inl ⟨rfl, ih hx⟩
    · exact .inr (.inl ⟨rfl, ih hx⟩)
    · exact .inr (.inr ⟨hdots, hcheck, .inl ⟨hd, ih hx⟩⟩)
    · simp at hr

/-! ### Paths -/

/-- The names that are followed for a path. A slash at its end asks for a directory. -/
def followed (p : String) : List String := if endsInSlash p then names p ++ ["."] else names p

theorem locate_eq_ok_iff :
    t.locate p = .ok l ↔ checkPath p = .ok () ∧ t.follow [] (followed p) = .ok l := by
  unfold locate followed followToDirectory
  cases checkPath p with
  | error e => simp [bind, Except.bind]
  | ok u => split <;> simp [bind, Except.bind]

theorem lead_followed (p : String) : lead [] (followed p) = location p := by
  unfold followed
  split
  · rw [lead_append]
    rfl
  · rfl

/-- A path that can be followed leads to its location. -/
theorem location_eq_of_locate (h : t.locate p = .ok l) : location p = l := by
  rw [← lead_followed]
  exact lead_eq_of_follow (locate_eq_ok_iff.1 h).2

theorem Keeps.locate (hk : Keeps t t') (h : t.locate p = .ok l) : t'.locate p = .ok l := by
  rw [locate_eq_ok_iff] at h ⊢
  exact ⟨h.1, hk.follow h.2⟩

theorem isThere_eq_true_iff : t.isThere p = true ↔ ∃ l, t.locate p = .ok l := by
  unfold isThere
  cases t.locate p <;> simp [Except.isOk, Except.toBool]

/-- A path names a location in the directory to which the names before the last one lead. -/
structure Names (t : FileTree) (p : String) (l : Location) : Prop where
  /-- The path may be followed. -/
  checked : checkPath p = .ok ()
  /-- The last name stands for something in that directory. -/
  last : ∃ before name m, names p = before ++ [name] ∧ isDots name = false ∧
    t.follow [] (before ++ ["."]) = .ok m ∧ l = m ++ [name]

/-- A request of two parts that is not refused. -/
theorem ok_of_bind {α β : Type} {x : Except FileError α} {f : α → Except FileError β} {b : β}
    (h : (x >>= f) = .ok b) : ∃ a, x = .ok a ∧ f a = .ok b := by
  cases x with
  | error e => cases h
  | ok a => exact ⟨a, rfl, h⟩

theorem names_of_place (h : t.place p = .ok (some l)) : t.Names p l := by
  unfold place at h
  obtain ⟨u, hcheck, h⟩ := ok_of_bind h
  refine ⟨hcheck, ?_⟩
  cases hlast : (names p).getLast? with
  | none =>
    rw [hlast] at h
    cases h
  | some name =>
    rw [hlast] at h
    obtain ⟨m, hm, h⟩ := ok_of_bind h
    cases hdots : isDots name with
    | true =>
      rw [hdots, if_pos rfl] at h
      cases h
    | false =>
      rw [hdots, if_neg Bool.false_ne_true] at h
      cases h
      obtain ⟨before, hbefore⟩ := List.getLast?_eq_some_iff.1 hlast
      rw [hbefore, List.dropLast_concat] at hm
      exact ⟨before, name, m, hbefore, hdots, hm, rfl⟩

/-- What a path names is its location. -/
theorem Names.location_eq (h : t.Names p l) : location p = l := by
  obtain ⟨before, name, m, hnames, hdots, hm, rfl⟩ := h.last
  have hname : name ≠ "." ∧ name ≠ ".." := by simpa [isDots] using hdots
  have hbefore : lead [] before = m := by
    have hlead := lead_eq_of_follow hm
    rwa [lead_append, lead_dot] at hlead
  rw [location, hnames, lead_append, hbefore, lead_name hname.1 hname.2]

/-- The path leads to what it names as soon as a file is there, unless it asks for a directory. -/
theorem Names.locate {content : ByteArray} (h : t.Names p l) (hk : Keeps t t')
    (hcheck : l.getLast?.forM checkName = .ok ()) (hslash : endsInSlash p = false)
    (hnode : t'.node? l = some (.file content)) : t'.locate p = .ok l := by
  obtain ⟨before, name, m, hnames, hdots, hm, rfl⟩ := h.last
  have hcheck : checkName name = .ok () := by
    rw [List.getLast?_concat] at hcheck
    exact hcheck
  refine locate_eq_ok_iff.2 ⟨h.checked, ?_⟩
  rw [followed, hnames, hslash]
  refine follow_append (hk.follow hm) (follow_cons_eq_ok_iff.2 (.inr (.inr ⟨hdots, hcheck, ?_⟩)))
  exact .inr ⟨⟨content, hnode⟩, rfl, rfl⟩

/-! ### Writing a file -/

/-- What has been written stands at the location of the path, where no directory stood, and the path
leads there. -/
structure Wrote (t : FileTree) (p : String) (content : ByteArray) (t' : FileTree) : Prop where
  /-- There was no directory. -/
  before : t.node? (location p) ≠ some .directory
  /-- The file has been put there. -/
  after : t' = t.put (location p) (.file content)
  /-- The path leads to the file. -/
  locate : t'.locate p = .ok (location p)

theorem write_eq_ok {content : ByteArray} (h : t.write p content = .ok t') :
    Wrote t p content t' := by
  unfold write at h
  obtain ⟨place, hplace, h⟩ := ok_of_bind h
  cases place with
  | none => cases h
  | some l =>
    have hnames := names_of_place hplace
    obtain rfl := hnames.location_eq
    cases hslash : endsInSlash p with
    | true =>
      rw [hslash] at h
      cases h
    | false =>
      rw [hslash] at h
      obtain ⟨u, hcheck, h⟩ := ok_of_bind h
      have hbefore : t.node? (location p) ≠ some .directory := fun hd => by
        rw [hd] at h
        cases h
      have hafter : t' = t.put (location p) (.file content) := by
        split at h
        · cases h
        · exact (Except.ok.inj h).symm
      refine ⟨hbefore, hafter, ?_⟩
      subst hafter
      exact hnames.locate (keeps_put_file hbefore content) hcheck hslash
        (node?_put_self t _ (ne_nil_of_ne_directory hbefore))

/-- The file is there. -/
theorem Wrote.node? {content : ByteArray} (h : Wrote t p content t') :
    t'.node? (location p) = some (.file content) := by
  rw [h.after, node?_put_self t _ (ne_nil_of_ne_directory h.before)]

/-- A path that leads to a file reads the bytes of the file. -/
theorem read_eq_ok {content : ByteArray} (h : t.locate p = .ok l)
    (hl : t.node? l = some (.file content)) : t.read p = .ok content := by
  simp only [FileTree.read, h, bind, Except.bind, hl]

/-! ### Making a directory -/

/-- A directory is made where nothing was. -/
theorem makeDirectory_eq_ok (h : t.makeDirectory p = .ok t') :
    t.node? (location p) = none ∧ t' = t.put (location p) .directory := by
  unfold makeDirectory at h
  obtain ⟨place, hplace, h⟩ := ok_of_bind h
  cases place with
  | none => cases h
  | some l =>
    obtain rfl := (names_of_place hplace).location_eq
    obtain ⟨u, hcheck, h⟩ := ok_of_bind h
    cases hbefore : t.node? (location p) with
    | some n =>
      rw [hbefore] at h
      cases h
    | none =>
      rw [hbefore] at h
      exact ⟨rfl, (Except.ok.inj h).symm⟩

/-! ### Removing a directory -/

/-- A tree in which a directory has been cleared, and has gone unless that was refused. -/
def IsCleared (t : FileTree) (l : Location) (t' : FileTree) : Prop :=
  t' = t.clear l ∨ t' = (t.clear l).drop l

/-- All that does not stand at the location or below it stays. -/
theorem IsCleared.node? (h : IsCleared t l t') (hk : ¬ l <+: k) : t'.node? k = t.node? k := by
  have hprefix : l.isPrefixOf k = false := by
    rw [Bool.eq_false_iff]
    exact fun hp => hk (List.isPrefixOf_iff_prefix.1 hp)
  by_cases hnil : k = []
  · rw [hnil, node?_root, node?_root]
  · have hclear : (t.clear l).node? k = t.node? k := by
      rw [node?_clear, if_neg hnil, hprefix, Bool.false_and, if_neg Bool.false_ne_true]
    rcases h with rfl | rfl
    · exact hclear
    · rw [node?_drop, if_neg hnil, hprefix, if_neg Bool.false_ne_true, hclear]

/-- Nothing stands below the location. -/
theorem IsCleared.node?_eq_none (h : IsCleared t l t') (hk : l <+: k) (hne : k ≠ l) :
    t'.node? k = none := by
  have hprefix : l.isPrefixOf k = true := List.isPrefixOf_iff_prefix.2 hk
  have hnil : k ≠ [] := by
    rintro rfl
    exact hne (List.prefix_nil.1 hk).symm
  rcases h with rfl | rfl
  · rw [node?_clear, if_neg hnil, hprefix, if_pos (by simpa using hne.symm)]
  · rw [node?_drop, if_neg hnil, hprefix, if_pos rfl]

/-- The directory itself stays or goes. -/
theorem IsCleared.node?_self (h : IsCleared t l t') :
    t'.node? l = t.node? l ∨ t'.node? l = none := by
  by_cases hnil : l = []
  · left
    rw [hnil, node?_root, node?_root]
  · rcases h with rfl | rfl
    · left
      rw [node?_clear, if_neg hnil, bne_self_eq_false, Bool.and_false, if_neg Bool.false_ne_true]
    · right
      rw [node?_drop, if_neg hnil, List.isPrefixOf_iff_prefix.2 (List.prefix_refl l), if_pos rfl]

theorem dropCleared_eq_ok (h : t.dropCleared p l = .ok t') : t' = t.drop l := by
  unfold dropCleared at h
  obtain ⟨u, -, h⟩ := ok_of_bind h
  split at h
  · cases h
  · cases h
  · cases h
  · exact (Except.ok.inj h).symm

/-- A directory is only removed if there is one. It has been cleared then, even if it could not go.
-/
theorem removeDirectory_cases (t : FileTree) (p : String) :
    (∃ e, t.removeDirectory p = (.error e, t)) ∨
      (t.locate p = .ok (location p) ∧ t.node? (location p) = some .directory ∧
        IsCleared t (location p) (t.removeDirectory p).2) := by
  unfold removeDirectory
  cases hl : t.locate p with
  | error e => exact .inl ⟨e, rfl⟩
  | ok l =>
    obtain rfl := location_eq_of_locate hl
    cases hn : t.node? (location p) with
    | none =>
      refine .inl ⟨FileError.notADirectory, ?_⟩
      simp only [hn]
    | some n =>
      cases n with
      | file c =>
        refine .inl ⟨FileError.notADirectory, ?_⟩
        simp only [hn]
      | directory =>
        refine .inr ⟨rfl, rfl, ?_⟩
        simp only [hn]
        split
        · next t'' h => exact .inr (dropCleared_eq_ok h)
        · exact .inl rfl
        · exact .inl rfl

end EntityRelation.FileTree
