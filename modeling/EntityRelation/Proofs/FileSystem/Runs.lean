import EntityRelation.FileSystem.World
import EntityRelation.Proofs.FileSystem.Changes
import EntityRelation.Run

/-!
# Runs in a world

A run changes the files of a world by its requests, and by its reports if the log stands in one of
the files. What it may do is told by what may become of what stands at each location (`Fates`), the
location of the log apart (`World.LogsTo`). A world turns (`World.Turns`) when its files meet such
fates, and a run turns it if each of its parts does (`Run.turns_bind`).

A report leaves everything where it is (`World.Reported`), and a request changes what its path leads
to (`turns_write`, `turns_removeDirectory`). Making a directory with all that hold it
(`turns_makeDirectories`) makes directories where there was nothing, and only on the way of its
path.
-/

namespace EntityRelation

open FileTree EntityRelation.Path

variable {w w' w'' : World} {k : Location}

/-! ### Reports -/

namespace World

/-- The lines of the log stand in the file at a location. -/
def LogsTo (w : World) (k : Location) : Prop := ∃ log, w.log = some log ∧ log.place = .file k

theorem logsTo_congr (h : w'.log = w.log) : w'.LogsTo k ↔ w.LogsTo k := by rw [LogsTo, LogsTo, h]

/-- A world in which nothing has happened but reports. -/
structure Reported (w w' : World) : Prop where
  /-- The log is the same. -/
  log : w'.log = w.log
  /-- What stood in the files stands there. -/
  keeps : Keeps w.files w'.files
  /-- Nothing has come. -/
  kept : Keeps w'.files w.files
  /-- All but the log is the same. -/
  node? : ∀ k, ¬ w.LogsTo k → w'.files.node? k = w.files.node? k

/-- Reports do not change the files unless the log stands there. -/
theorem reported_of_files_eq (hlog : w'.log = w.log) (hfiles : w'.files = w.files) :
    w.Reported w' := by
  refine ⟨hlog, ?_, ?_, fun k _ => ?_⟩
  · rw [hfiles]
    exact .refl _
  · rw [hfiles]
    exact .refl _
  · rw [hfiles]

theorem Reported.refl (w : World) : w.Reported w := reported_of_files_eq rfl rfl

theorem Reported.trans (h : w.Reported w') (h' : w'.Reported w'') : w.Reported w'' where
  log := h'.log.trans h.log
  keeps := h.keeps.trans h'.keeps
  kept := h'.kept.trans h.kept
  node? k hk := (h'.node? k (mt (logsTo_congr h.log).1 hk)).trans (h.node? k hk)

/-- Reports change nothing about what is there. -/
theorem Reported.isThere (h : w.Reported w') (p : String) :
    w'.files.isThere p = w.files.isThere p := by
  rw [Bool.eq_iff_iff, isThere_eq_true_iff, isThere_eq_true_iff]
  constructor
  · rintro ⟨l, hl⟩
    exact ⟨l, h.kept.locate hl⟩
  · rintro ⟨l, hl⟩
    exact ⟨l, h.keeps.locate hl⟩

theorem reported_addLine {log : OpenLog} (hlog : w.log = some log) (line : String) :
    w.Reported (w.addLine line log.place) := by
  unfold addLine
  split
  · exact reported_of_files_eq rfl rfl
  · next l hplace =>
    split
    · next content hl =>
      refine ⟨rfl, keeps_put_file (by rw [hl]; simp) _, keeps_of_put_file hl _, fun k hk => ?_⟩
      have hkl : k ≠ l := fun hkl => hk ⟨log, hlog, hkl ▸ hplace⟩
      exact node?_put_of_ne w.files _ hkl
    · exact .refl w

theorem reported_report (w : World) (e : Event) : w.Reported (w.report e) := by
  have hevents : w.Reported { w with events := w.events ++ [e] } := reported_of_files_eq rfl rfl
  unfold report
  dsimp only
  split
  · next log hlog =>
    have hlog' : { w with events := w.events ++ [e] }.log = some log := hlog
    split
    · exact hevents.trans (reported_addLine hlog' _)
    · exact hevents
  · exact hevents

theorem reported_foldl (es : List Event) (w : World) : w.Reported (es.foldl report w) := by
  induction es generalizing w with
  | nil => exact .refl w
  | cons e es ih => exact (reported_report w e).trans (ih _)

end World

/-! ### Fates -/

/-- What may become of what stands at each location. -/
structure Fates where
  /-- At this location, the one may become the other. -/
  may : Location → Option Node → Option Node → Prop
  /-- Everything may stay. -/
  stay : ∀ k n, may k n n
  /-- What may become of it in two steps may become of it. -/
  trans : ∀ {k a b c}, may k a b → may k b c → may k a c

/-- Anything may become of some locations. -/
def Fates.apart (F : Fates) (S : Location → Prop) : Fates where
  may k before after := S k ∨ F.may k before after
  stay k n := .inr (F.stay k n)
  trans := by
    rintro k a b c (hS | h) (hS' | h')
    · exact .inl hS
    · exact .inl hS
    · exact .inl hS'
    · exact .inr (F.trans h h')

namespace World

variable {F : Fates}

/-- The files of a world have met their fates, the log apart, which is the same. -/
structure Turns (F : Fates) (w w' : World) : Prop where
  /-- The log is the same. -/
  log : w'.log = w.log
  /-- What has become of it might become of it. -/
  node? : ∀ k, ¬ w.LogsTo k → F.may k (w.files.node? k) (w'.files.node? k)

theorem turns_of_files {files : FileTree}
    (h : ∀ k, F.may k (w.files.node? k) (files.node? k)) : w.Turns F { w with files } :=
  ⟨rfl, fun k _ => h k⟩

/-- Something may be put where there is no directory if it may become of what is there. -/
theorem turns_put {n : Node} (hk : w.files.node? k ≠ some .directory)
    (h : F.may k (w.files.node? k) (some n)) :
    w.Turns F { w with files := w.files.put k n } := by
  refine turns_of_files fun l => ?_
  by_cases hl : l = k
  · subst hl
    rw [node?_put_self _ _ (ne_nil_of_ne_directory hk)]
    exact h
  · rw [node?_put_of_ne _ _ hl]
    exact F.stay _ _

theorem Turns.refl (F : Fates) (w : World) : w.Turns F w := ⟨rfl, fun _ _ => F.stay _ _⟩

theorem Turns.trans (h : w.Turns F w') (h' : w'.Turns F w'') : w.Turns F w'' where
  log := h'.log.trans h.log
  node? k hk := F.trans (h.node? k hk) (h'.node? k (mt (logsTo_congr h.log).1 hk))

theorem Reported.turns (F : Fates) (h : w.Reported w') : w.Turns F w' :=
  ⟨h.log, fun k hk => by rw [h.node? k hk]; exact F.stay _ _⟩

end World

/-! ### Requests -/

/-- What is answered in a world, and the world that is left. -/
def World.run {α : Type} (w : World) (x : StateM World α) : α × World := StateT.run x w

section Requests

variable {F : Fates} {p : String} {α β : Type}

theorem run_bind (x : StateM World α) (f : α → StateM World β) (w : World) :
    w.run (x >>= f) = (w.run x).2.run (f (w.run x).1) := rfl

/-- A change of the files that is refused changes nothing. -/
theorem run_changeFiles (change : FileTree → Except FileError FileTree) (w : World) :
    w.run (World.changeFiles change) =
      match change w.files with
      | .ok files => (.ok (), { w with files })
      | .error e => (.error e, w) := by
  unfold World.changeFiles World.run
  cases h : change w.files <;> simp only [StateT.run_bind, StateT.run_get, pure_bind, h] <;> rfl

theorem run_removeDirectory (p : String) (w : World) :
    w.run (FileSystem.removeDirectory p) =
      ((w.files.removeDirectory p).1, { w with files := (w.files.removeDirectory p).2 }) := rfl

theorem run_write (p : String) (content : ByteArray) (w : World) :
    w.run (FileSystem.write p content) =
      match w.files.write p content with
      | .ok files => (.ok (), { w with files })
      | .error e => (.error e, w) := run_changeFiles _ w

theorem run_makeDirectory (p : String) (w : World) :
    w.run (FileSystem.makeDirectory p) =
      match w.files.makeDirectory p with
      | .ok files => (.ok (), { w with files })
      | .error e => (.error e, w) := run_changeFiles _ w

theorem turns_write (hput : ∀ n c, F.may (location p) n (some (.file c))) (content : ByteArray)
    (w : World) : w.Turns F (w.run (FileSystem.write p content)).2 := by
  rw [run_write]
  cases h : w.files.write p content with
  | error e => exact .refl F w
  | ok files =>
    obtain ⟨hbefore, rfl, -⟩ := write_eq_ok h
    exact World.turns_put hbefore (hput _ _)

theorem turns_makeDirectory (hput : F.may (location p) none (some .directory)) (w : World) :
    w.Turns F (w.run (FileSystem.makeDirectory p)).2 := by
  rw [run_makeDirectory]
  cases h : w.files.makeDirectory p with
  | error e => exact .refl F w
  | ok files =>
    obtain ⟨hnone, rfl⟩ := makeDirectory_eq_ok h
    refine World.turns_put (by rw [hnone]; simp) ?_
    rw [hnone]
    exact hput

theorem turns_unlessThere (r : Except FileError Unit) (w : World) :
    w.Turns F (w.run (FileSystem.unlessThere p r)).2 := by
  cases r with
  | ok u => exact .refl F w
  | error e => exact .refl F w

theorem turns_makeFirst {paths : List String}
    (hput : ∀ p ∈ paths, F.may (location p) none (some .directory)) (w : World) :
    w.Turns F (w.run (FileSystem.makeFirst paths)).2 := by
  induction paths generalizing w with
  | nil => exact .refl F w
  | cons path above ih =>
    unfold FileSystem.makeFirst
    split
    · exact .refl F w
    · -- every request turns the world whatever it answers, and the last one only asks
      have hself := turns_makeDirectory (hput path List.mem_cons_self)
      have habove := ih fun p hp => hput p (List.mem_cons_of_mem _ hp)
      rw [run_bind]
      refine (hself w).trans ?_
      split
      · rw [run_bind]
        refine (habove _).trans ?_
        split
        · rw [run_bind]
          exact (hself _).trans (turns_unlessThere _ _)
        · exact .refl F _
      · exact turns_unlessThere _ _

/-- Directories are only made on the way of the path. -/
theorem turns_makeDirectories (hput : ∀ k, OnWay p k → F.may k none (some .directory)) (w : World) :
    w.Turns F (w.run (FileSystem.makeDirectories p)).2 :=
  turns_makeFirst (fun _ hq => hput _ (onWay_of_mem_ancestors hq)) w

/-- A directory may go, and what stands below it. -/
theorem turns_removeDirectory
    (hgo : ∀ k n, location p <+: k → (k = location p → n = some .directory) → F.may k n none)
    (w : World) : w.Turns F (w.run (FileSystem.removeDirectory p)).2 := by
  rw [run_removeDirectory]
  rcases removeDirectory_cases w.files p with ⟨e, he⟩ | ⟨-, hdir, hclear⟩
  · rw [he]
    exact .refl F w
  · refine World.turns_of_files fun k => ?_
    by_cases hk : location p <+: k
    · by_cases hself : k = location p
      · subst hself
        rcases hclear.node?_self with hsame | hnone
        · rw [hsame]
          exact F.stay _ _
        · rw [hnone]
          exact hgo _ _ hk fun _ => hdir
      · rw [hclear.node?_eq_none hk hself]
        exact hgo _ _ hk fun h => absurd h hself
    · rw [hclear.node? hk]
      exact F.stay _ _

end Requests

/-! ### Runs -/

namespace Run

variable {α β : Type} {x : Run (StateM World) α} {f : α → Run (StateM World) β} {F : Fates}

/-- What a run answers in a world, and the world that it leaves. -/
def inWorld (x : Run (StateM World) α) (w : World) : Except Failure α × World := w.run x.run

theorem inWorld_ask (refused : FileError → Failure) (x : StateM World (Except FileError α))
    (w : World) : (ask refused x).inWorld w = ((w.run x).1.mapError refused, (w.run x).2) := rfl

theorem turns_ask {x : StateM World (Except FileError α)} (h : w.Turns F (w.run x).2)
    (refused : FileError → Failure) : w.Turns F ((ask refused x).inWorld w).2 := by
  rw [inWorld_ask]
  exact h

/-- A directory that has been removed was there, and has been cleared. -/
theorem removeDirectory_eq_ok {refused : FileError → Failure} {p : String}
    (h : (ask refused (FileSystem.removeDirectory p)).inWorld w = (.ok (), w')) :
    w'.log = w.log ∧ w.files.node? (location p) = some .directory ∧
      IsCleared w.files (location p) w'.files := by
  rw [inWorld_ask, run_removeDirectory] at h
  obtain ⟨hok, rfl⟩ := Prod.mk.inj h
  rcases removeDirectory_cases w.files p with ⟨e, he⟩ | ⟨-, hdir, hclear⟩
  · rw [he] at hok
    cases hok
  · exact ⟨rfl, hdir, hclear⟩

theorem inWorld_report (e : Event) (w : World) :
    (report e : Run (StateM World) Unit).inWorld w = (.ok (), w.report e) := rfl

theorem turns_report (F : Fates) (e : Event) (w : World) :
    w.Turns F ((report e : Run (StateM World) Unit).inWorld w).2 :=
  (World.reported_report w e).turns F

theorem inWorld_bind (x : Run (StateM World) α) (f : α → Run (StateM World) β) (w : World) :
    (x >>= f).inWorld w =
      match x.inWorld w with
      | (.ok a, w') => (f a).inWorld w'
      | (.error e, w') => (.error e, w') := by
  show (x.inWorld w).2.run (ExceptT.bindCont f (x.inWorld w).1) = _
  rcases x.inWorld w with ⟨_ | a, w'⟩ <;> rfl

theorem inWorld_forM_report (es : List Event) (w : World) :
    (es.forM fun e => report e : Run (StateM World) Unit).inWorld w =
      (.ok (), es.foldl World.report w) := by
  induction es generalizing w with
  | nil => rfl
  | cons e es ih =>
    show (report e >>= fun _ => es.forM fun e => report e : Run (StateM World) Unit).inWorld w = _
    rw [inWorld_bind, inWorld_report]
    exact ih _

/-- A computation answers what it answers without a world, and all that it does is reported. -/
theorem inWorld_perform (x : Logged α) (w : World) :
    (perform x : Run (StateM World) α).inWorld w = (x.outcome, x.events.foldl World.report w) := by
  unfold perform
  rw [inWorld_bind]
  have hevents := inWorld_forM_report x.events w
  unfold report at hevents
  rw [hevents]
  rfl

/-- A run of two parts answers when both do. -/
theorem inWorld_bind_eq_ok_iff {b : β} :
    (x >>= f).inWorld w = (.ok b, w'') ↔
      ∃ a w', x.inWorld w = (.ok a, w') ∧ (f a).inWorld w' = (.ok b, w'') := by
  rw [inWorld_bind]
  rcases x.inWorld w with ⟨_ | a, w'⟩
  · simp
  · simp

/-- A run of two parts turns a world if the parts do. -/
theorem turns_bind (hx : w.Turns F (x.inWorld w).2)
    (hf : ∀ a w', x.inWorld w = (.ok a, w') → w'.Turns F ((f a).inWorld w').2) :
    w.Turns F ((x >>= f).inWorld w).2 := by
  rw [inWorld_bind]
  rcases hw : x.inWorld w with ⟨_ | a, w'⟩
  · rw [hw] at hx
    exact hx
  · rw [hw] at hx
    exact hx.trans (hf a w' hw)

end Run

end EntityRelation
