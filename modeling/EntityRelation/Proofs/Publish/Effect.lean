import EntityRelation.Proofs.Compile.Stages
import EntityRelation.Proofs.FileSystem.Runs
import EntityRelation.Publish

/-!
# What publishing changes

A package that does not compile is not published: the failure is answered, and no file has changed.
A package that is published has compiled. The text of its module stands in the output file in the
directory of the package. Where that directory was missing or is not to be overwritten, all else
stays, except that the directory is made with all that hold it. Where it was there and is to be
overwritten, nothing of what it held is left, and all outside of it stays.

Every part of a publication is told by what may become of each location (`turns_prepareDirectory`,
`turns_store`, `turns_publish`), and **`publish_effect`** is what comes together.
-/

namespace EntityRelation

open FileTree EntityRelation.Path

variable {F : Fates} {w w' : World} {k : Location}

/-! ### Parts of a publication -/

/-- A module is written to the output file. -/
theorem Stages.fileName_eq {c : Catalog} {package : String} {opts : Options} {es : List Entity}
    {s : Schema} {o : Dependency.Order} {m : TableModule} (h : Stages c package opts es s o m) :
    m.fileName = opts.outputFile := by
  obtain ⟨⟨file, hf⟩, ⟨handle, hh⟩, -⟩ := Options.validate_eq_ok_iff.1 h.valid
  have hm := h.written
  rw [TableModule.outcome_write_of_resolves h.resolves hf hh] at hm
  cases hm
  rfl

theorem fileName_of_compile {c : Catalog} {package : String} {o : Options} {mod : TableModule}
    (h : (compile c package o).outcome = .ok mod) : mod.fileName = o.outputFile := by
  obtain ⟨es, s, order, hstages⟩ := compile_eq_ok_iff.1 h
  exact hstages.fileName_eq

/-- A directory is made on its way, and goes with what it holds if it is there and is to be
overwritten. -/
theorem turns_prepareDirectory {directory : String} {overwrite : Bool}
    (hmade : ∀ k, OnWay directory k → F.may k none (some .directory))
    (hgone : overwrite = true → w.files.isThere directory = true →
      ∀ k n, location directory <+: k → (k = location directory → n = some .directory) →
        F.may k n none) :
    w.Turns F ((prepareDirectory directory overwrite).inWorld w).2 := by
  have hmake : ∀ w : World, w.Turns F
      ((Run.ask .file (FileSystem.makeDirectories directory)).inWorld w).2 := fun w =>
    Run.turns_ask (turns_makeDirectories hmade w) _
  unfold prepareDirectory
  refine Run.turns_bind (.refl F w) fun there w' hthere => ?_
  cases hthere
  cases hexists : w.files.isThere directory with
  | false => exact Run.turns_bind (hmake w) fun _ w' _ => .refl F w'
  | true =>
    cases overwrite with
    | false =>
      exact Run.turns_bind (Run.turns_report F _ w) fun _ w' _ => .refl F w'
    | true =>
      have hremove : ∀ w : World, w.Turns F
          ((Run.ask .file (FileSystem.removeDirectory directory)).inWorld w).2 := fun w =>
        Run.turns_ask (turns_removeDirectory (hgone rfl hexists) w) _
      refine Run.turns_bind (Run.turns_report F _ w) fun _ w₁ _ => ?_
      refine Run.turns_bind (hremove w₁) fun _ w₂ _ => ?_
      exact Run.turns_bind (hmake w₂) fun _ w₃ _ => .refl F w₃

/-- The log is the same, whatever becomes of a directory. -/
theorem log_prepareDirectory {directory : String} {overwrite : Bool} {state : DirectoryState}
    (h : (prepareDirectory directory overwrite).inWorld w = (.ok state, w')) : w'.log = w.log := by
  have hturns : w.Turns ⟨fun _ _ _ => True, fun _ _ => trivial, fun _ _ => trivial⟩
      ((prepareDirectory directory overwrite).inWorld w).2 :=
    turns_prepareDirectory (fun _ _ => trivial) fun _ _ _ _ _ _ => trivial
  rw [h] at hturns
  exact hturns.log

theorem turns_store {mod : TableModule} {directory : String}
    (hput : ∀ n c, F.may (location (mod.path directory)) n (some (.file c))) :
    w.Turns F ((mod.store directory).inWorld w).2 := by
  unfold TableModule.store
  refine Run.turns_bind (Run.turns_ask (turns_write hput _ w) _) fun _ w₁ _ => ?_
  exact Run.turns_bind (Run.turns_report F _ w₁) fun _ w₂ _ => .refl F w₂

/-- The path of the output file, from the directory of the package on. -/
def outputPath (o : Options) (package base : String) : String :=
  Path.join (packageDirectory base package) o.outputFile

/-- A package that does not compile is not published. -/
theorem inWorld_publish_of_error {o : Options} {c : Catalog} {package base : String}
    {overwrite : Bool} {f : Failure} (h : (compile c package o).outcome = .error f) (w : World) :
    (publish o c package base overwrite).inWorld w =
      (.error f, (compile c package o).events.foldl World.report w) := by
  unfold publish
  rw [Run.inWorld_bind, Run.inWorld_perform, h]

/-- A package that compiles is published after its directory has been prepared. -/
theorem inWorld_publish_of_ok {o : Options} {c : Catalog} {package base : String}
    {overwrite : Bool} {mod : TableModule} (h : (compile c package o).outcome = .ok mod)
    (w : World) :
    (publish o c package base overwrite).inWorld w =
      (prepareDirectory (packageDirectory base package) overwrite >>= fun _ =>
        mod.store (packageDirectory base package)).inWorld
          ((compile c package o).events.foldl World.report w) := by
  unfold publish
  rw [Run.inWorld_bind, Run.inWorld_perform, h]
  simp only [discard, map_const, Function.comp_apply, bind_map_left]

/-- Whatever is answered, directories are made on the way of the package's directory, the output file
is written, and the directory goes with what it holds if it is there and is to be overwritten. -/
theorem turns_publish {o : Options} {package base : String} {overwrite : Bool}
    (hmade : ∀ k, OnWay (packageDirectory base package) k → F.may k none (some .directory))
    (hput : ∀ n c, F.may (location (outputPath o package base)) n (some (.file c)))
    (hgone : overwrite = true → w.files.isThere (packageDirectory base package) = true →
      ∀ k n, location (packageDirectory base package) <+: k →
        (k = location (packageDirectory base package) → n = some .directory) → F.may k n none)
    (c : Catalog) : w.Turns F ((publish o c package base overwrite).inWorld w).2 := by
  have hreported := World.reported_foldl (compile c package o).events w
  cases h : (compile c package o).outcome with
  | error f =>
    rw [inWorld_publish_of_error h]
    exact hreported.turns F
  | ok mod =>
    rw [inWorld_publish_of_ok h]
    refine (hreported.turns F).trans ?_
    generalize (compile c package o).events.foldl World.report w = w₁ at hreported
    rw [← hreported.isThere] at hgone
    refine Run.turns_bind (turns_prepareDirectory hmade hgone) fun _ w₂ _ => ?_
    refine turns_store ?_
    rw [TableModule.path, fileName_of_compile h]
    exact hput

/-! ### Successful parts -/

/-- What has been stored can be read. -/
theorem store_eq_ok {mod : TableModule} {directory path : String}
    (h : (mod.store directory).inWorld w = (.ok path, w')) :
    path = mod.path directory ∧
      (¬ w.LogsTo (location path) → w'.files.read path = .ok mod.content.toUTF8) := by
  unfold TableModule.store at h
  obtain ⟨⟨⟩, w₁, hwrite, h⟩ := Run.inWorld_bind_eq_ok_iff.1 h
  obtain ⟨⟨⟩, w₂, hreport, h⟩ := Run.inWorld_bind_eq_ok_iff.1 h
  cases hreport
  cases h
  refine ⟨rfl, fun hlog => ?_⟩
  rw [Run.inWorld_ask, run_write] at hwrite
  cases hfiles : w.files.write (mod.path directory) mod.content.toUTF8 with
  | error e =>
    rw [hfiles] at hwrite
    cases hwrite
  | ok files =>
    rw [hfiles] at hwrite
    cases hwrite
    have hwrote := write_eq_ok hfiles
    have hreported := World.reported_report { w with files }
      (.moduleStored (mod.path directory))
    refine read_eq_ok (hreported.keeps.locate hwrote.locate) ?_
    rw [hreported.node? _ hlog]
    exact hwrote.node?

/-- A location stays what it is, or a directory is made there on the way of another one. -/
def StaysOrMade (directory : String) (k : Location) (before after : Option Node) : Prop :=
  after = before ∨ before = none ∧ after = some .directory ∧ OnWay directory k

theorem StaysOrMade.trans {directory : String} {a b c : Option Node}
    (h : StaysOrMade directory k a b) (h' : StaysOrMade directory k b c) :
    StaysOrMade directory k a c := by
  rcases h with rfl | ⟨rfl, rfl, hk⟩
  · exact h'
  · rcases h' with rfl | ⟨hnone, -, -⟩
    · exact .inr ⟨rfl, rfl, hk⟩
    · cases hnone

/-- Everything stays or is made on the way of a directory. -/
def Fates.making (directory : String) : Fates where
  may := StaysOrMade directory
  stay _ _ := .inl rfl
  trans h h' := h.trans h'

theorem Fates.making_made {directory : String} (hk : OnWay directory k) :
    (Fates.making directory).may k none (some .directory) := .inr ⟨rfl, rfl, hk⟩

/-- Nothing is at a location, or a directory on the way of another one. -/
def GoneOrMade (directory : String) (k : Location) (node : Option Node) : Prop :=
  node = none ∨ node = some .directory ∧ OnWay directory k

theorem StaysOrMade.goneOrMade {directory : String} {a b : Option Node}
    (h : StaysOrMade directory k a b) (ha : GoneOrMade directory k a) :
    GoneOrMade directory k b := by
  rcases h with rfl | ⟨-, hmade⟩
  · exact ha
  · exact .inr hmade

/-- Nothing is left of what a directory held that has been overwritten. -/
theorem prepareDirectory_overwrite {directory : String} {state : DirectoryState}
    (hthere : w.files.isThere directory = true)
    (h : (prepareDirectory directory true).inWorld w = (.ok state, w'))
    (hk : location directory <+: k) (hlog : ¬ w.LogsTo k) :
    GoneOrMade directory k (w'.files.node? k) := by
  unfold prepareDirectory at h
  obtain ⟨there, w₀, hquery, h⟩ := Run.inWorld_bind_eq_ok_iff.1 h
  cases hquery
  rw [hthere] at h
  obtain ⟨⟨⟩, w₁, hreport, h⟩ := Run.inWorld_bind_eq_ok_iff.1 h
  obtain ⟨⟨⟩, w₂, hremove, h⟩ := Run.inWorld_bind_eq_ok_iff.1 h
  obtain ⟨⟨⟩, w₃, hmake, h⟩ := Run.inWorld_bind_eq_ok_iff.1 h
  cases h
  rw [Run.inWorld_report] at hreport
  obtain ⟨-, rfl⟩ := Prod.mk.inj hreport
  obtain ⟨hlog₂, hdir, hclear⟩ := Run.removeDirectory_eq_ok hremove
  have hcleared : GoneOrMade directory k (w₂.files.node? k) := by
    by_cases hself : k = location directory
    · -- a directory that has been cleared need not have gone
      subst hself
      rcases hclear.node?_self with hsame | hnone
      · exact .inr ⟨hsame.trans hdir, onWay_location directory⟩
      · exact .inl hnone
    · exact .inl (hclear.node?_eq_none hk hself)
  have hmade : w₂.Turns (Fates.making directory) w' := by
    rw [Run.inWorld_ask] at hmake
    rw [← (Prod.mk.inj hmake).2]
    exact turns_makeDirectories (fun _ => Fates.making_made) w₂
  have hlog' : ¬ w₂.LogsTo k :=
    mt (World.logsTo_congr (hlog₂.trans (World.reported_report w _).log)).1 hlog
  exact (hmade.node? k hlog').goneOrMade hcleared

/-- A package is published when it compiles, its directory is prepared and its module is stored. -/
theorem publish_eq_ok {o : Options} {c : Catalog} {package base path : String} {overwrite : Bool}
    (h : (publish o c package base overwrite).inWorld w = (.ok path, w')) :
    ∃ mod state w₁ w₂, (compile c package o).outcome = .ok mod ∧ w.Reported w₁ ∧
      (prepareDirectory (packageDirectory base package) overwrite).inWorld w₁ = (.ok state, w₂) ∧
      (mod.store (packageDirectory base package)).inWorld w₂ = (.ok path, w') := by
  cases hmod : (compile c package o).outcome with
  | error f =>
    rw [inWorld_publish_of_error hmod] at h
    cases h
  | ok mod =>
    rw [inWorld_publish_of_ok hmod] at h
    obtain ⟨state, w₂, hprepare, hstore⟩ := Run.inWorld_bind_eq_ok_iff.1 h
    exact ⟨mod, state, _, w₂, rfl, World.reported_foldl _ w, hprepare, hstore⟩

section Successful

variable {o : Options} {c : Catalog} {package base path : String} {overwrite : Bool}

/-- The text of the module can be read at the path that is answered. -/
theorem publish_stored (h : (publish o c package base overwrite).inWorld w = (.ok path, w')) :
    path = outputPath o package base ∧ ∃ mod, (compile c package o).outcome = .ok mod ∧
      (¬ w.LogsTo (location path) → w'.files.read path = .ok mod.content.toUTF8) := by
  obtain ⟨mod, state, w₁, w₂, hmod, hreported, hprepare, hstore⟩ := publish_eq_ok h
  obtain ⟨hpath, hread⟩ := store_eq_ok hstore
  refine ⟨?_, mod, hmod, fun hlog => hread ?_⟩
  · rw [hpath, TableModule.path, fileName_of_compile hmod]
    rfl
  · exact mt (World.logsTo_congr ((log_prepareDirectory hprepare).trans hreported.log)).1 hlog

/-- All but the output file stays where no directory is overwritten. -/
theorem publish_kept (h : (publish o c package base overwrite).inWorld w = (.ok path, w'))
    (hcase : w.files.isThere (packageDirectory base package) = false ∨ overwrite = false)
    (hlog : ¬ w.LogsTo k) (hk : k ≠ location path) :
    StaysOrMade (packageDirectory base package) k (w.files.node? k) (w'.files.node? k) := by
  obtain ⟨hpath, -⟩ := publish_stored h
  have hturns : w.Turns ((Fates.making (packageDirectory base package)).apart (· = location path))
      ((publish o c package base overwrite).inWorld w).2 := by
    refine turns_publish (fun _ hmade => Or.inr (Fates.making_made hmade)) (fun _ _ => Or.inl ?_)
      (fun hoverwrite hthere => ?_) c
    · rw [hpath]
    · rw [hoverwrite, hthere] at hcase
      simp at hcase
  rw [h] at hturns
  exact (hturns.node? k hlog).resolve_left hk

/-- All but the output file stays outside of a directory. -/
theorem publish_outside (h : (publish o c package base overwrite).inWorld w = (.ok path, w'))
    (hlog : ¬ w.LogsTo k) (hk : k ≠ location path)
    (hout : ¬ location (packageDirectory base package) <+: k) :
    StaysOrMade (packageDirectory base package) k (w.files.node? k) (w'.files.node? k) := by
  obtain ⟨hpath, -⟩ := publish_stored h
  have hturns : w.Turns ((Fates.making (packageDirectory base package)).apart fun k =>
      k = location path ∨ location (packageDirectory base package) <+: k)
      ((publish o c package base overwrite).inWorld w).2 := by
    refine turns_publish (fun _ hmade => Or.inr (Fates.making_made hmade))
      (fun _ _ => Or.inl (.inl ?_)) (fun _ _ k _ hk _ => Or.inl (.inr hk)) c
    rw [hpath]
  rw [h] at hturns
  rcases hturns.node? k hlog with (hself | hin) | hstays
  · exact absurd hself hk
  · exact absurd hin hout
  · exact hstays

/-- Nothing is left in a directory that is overwritten. -/
theorem publish_inside (h : (publish o c package base true).inWorld w = (.ok path, w'))
    (hthere : w.files.isThere (packageDirectory base package) = true) (hlog : ¬ w.LogsTo k)
    (hk : k ≠ location path) (hin : location (packageDirectory base package) <+: k) :
    GoneOrMade (packageDirectory base package) k (w'.files.node? k) := by
  obtain ⟨mod, state, w₁, w₂, hmod, hreported, hprepare, hstore⟩ := publish_eq_ok h
  have hlog₁ : ¬ w₁.LogsTo k := mt (World.logsTo_congr hreported.log).1 hlog
  have hlog₂ : ¬ w₂.LogsTo k := mt (World.logsTo_congr (log_prepareDirectory hprepare)).1 hlog₁
  have hgone : GoneOrMade (packageDirectory base package) k (w₂.files.node? k) :=
    prepareDirectory_overwrite ((hreported.isThere _).trans hthere) hprepare hin hlog₁
  have hstored : w₂.Turns
      ((Fates.making (packageDirectory base package)).apart (· = location path))
      ((mod.store (packageDirectory base package)).inWorld w₂).2 := by
    refine turns_store fun _ _ => Or.inl ?_
    rw [(store_eq_ok hstore).1]
  rw [hstore] at hstored
  exact ((hstored.node? k hlog₂).resolve_left hk).goneOrMade hgone

end Successful

/-! ### The whole -/

/-- What becomes of a world in which a package is to be published, when `r` is answered and the
world `w'` is left. If the log stands in a file, that file is apart, since what is reported goes
there. The output file is where its path leads, be it inside of the directory of the package or not.
-/
structure PublishEffect (o : Options) (c : Catalog) (package base : String) (overwrite : Bool)
    (w : World) (r : Except Failure String) (w' : World) : Prop where
  /-- A failure of the compilation is answered, and everything stays. -/
  failed : ∀ f, (compile c package o).outcome = .error f →
    r = .error f ∧ ∀ k, ¬ w.LogsTo k → w'.files.node? k = w.files.node? k
  /-- The path that is answered is that of the output file, which holds the text of the module. -/
  stored : ∀ path, r = .ok path → path = outputPath o package base ∧
    ∃ mod, (compile c package o).outcome = .ok mod ∧
      (¬ w.LogsTo (location path) → w'.files.read path = .ok mod.content.toUTF8)
  /-- If the directory was missing or is not to be overwritten, all but the output file stays, and
  nothing is made but directories on the way of that directory. -/
  kept : ∀ path, r = .ok path →
    w.files.isThere (packageDirectory base package) = false ∨ overwrite = false →
      ∀ k, ¬ w.LogsTo k → k ≠ location path →
        StaysOrMade (packageDirectory base package) k (w.files.node? k) (w'.files.node? k)
  /-- If the directory was there and is to be overwritten, it holds nothing but the output file and
  directories that have been made, and outside of it all but the output file stays. -/
  overwritten : ∀ path, r = .ok path →
    w.files.isThere (packageDirectory base package) = true → overwrite = true →
      ∀ k, ¬ w.LogsTo k → k ≠ location path →
        (location (packageDirectory base package) <+: k →
          GoneOrMade (packageDirectory base package) k (w'.files.node? k)) ∧
        (¬ location (packageDirectory base package) <+: k →
          StaysOrMade (packageDirectory base package) k (w.files.node? k) (w'.files.node? k))

/-- **What publishing a package changes**, whatever the files are and whatever is answered. -/
theorem publish_effect (o : Options) (c : Catalog) (package base : String) (overwrite : Bool)
    (w : World) : PublishEffect o c package base overwrite w
      ((publish o c package base overwrite).inWorld w).1
      ((publish o c package base overwrite).inWorld w).2 := by
  rcases hrun : (publish o c package base overwrite).inWorld w with ⟨r, w'⟩
  constructor
  case failed =>
    intro f hf
    rw [inWorld_publish_of_error hf] at hrun
    cases hrun
    exact ⟨rfl, (World.reported_foldl _ w).node?⟩
  case stored =>
    rintro path rfl
    exact publish_stored hrun
  case kept =>
    rintro path rfl hcase k hlog hk
    exact publish_kept hrun hcase hlog hk
  case overwritten =>
    rintro path rfl hthere hoverwrite k hlog hk
    subst hoverwrite
    exact ⟨fun hin => publish_inside hrun hthere hlog hk hin,
      fun hout => publish_outside hrun hlog hk hout⟩

example : ((publish .complete ⟨.tangled⟩ "p" "out" false).inWorld {}).1 = .ok "out/p/model.py" := by
  decide +kernel

end EntityRelation
