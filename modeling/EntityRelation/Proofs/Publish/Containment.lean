import EntityRelation.Proofs.Compile.Outcome
import EntityRelation.Proofs.Publish.Effect

/-!
# Where publishing reaches

A package is published in a directory of its own below a base directory, and its module in a file
below that directory. Whether that is so is up to two names, that of the package in small letters
and that of the output file: they have to lead down by themselves. Then, whatever is answered, no
file is lost that stands in the base itself or outside of it (`publish_keeps_files`).

Neither of the names is checked. The directory of a package without a name is the base itself, so
that all that stands there goes when it is to be overwritten (`publish_clears_base`).

**`publish_contained`** says what the names decide.
-/

namespace EntityRelation

open FileTree EntityRelation.Path

variable {w : World} {k : Location}

/-- Every file stays. -/
def Fates.keepingFiles : Fates where
  may _ before after := ∀ content, before = some (.file content) → after = some (.file content)
  stay _ _ _ h := h
  trans h h' content ha := h' content (h content ha)

/-- A location in a directory of a base. -/
def Inside (base : String) (k : Location) : Prop :=
  ∃ name name' rest, k = location base ++ name :: name' :: rest

/-- Every file stays that is not in a directory of the base, if both names lead down. -/
theorem publish_keeps_files {o : Options} {package : String}
    (hpackage : Below "" (Text.lower package)) (houtput : Below "" o.outputFile) (c : Catalog)
    (base : String) (overwrite : Bool) {content : ByteArray} (hlog : ¬ w.LogsTo k)
    (hk : ¬ Inside base k) (hfile : w.files.node? k = some (.file content)) :
    ((publish o c package base overwrite).inWorld w).2.files.node? k = some (.file content) := by
  obtain ⟨name, rest, hdirectory⟩ := exists_location_join hpackage
  obtain ⟨name', rest', hpath⟩ := exists_location_join houtput
  have hturns : w.Turns (Fates.keepingFiles.apart fun k =>
      location (packageDirectory base package) <+: k ∧ k ≠ location (packageDirectory base package))
      ((publish o c package base overwrite).inWorld w).2 := by
    refine turns_publish (fun _ _ => Or.inr fun _ hnone => ?_) (fun _ _ => Or.inl ?_)
      (fun _ _ k n hk hn => ?_) c
    · cases hnone
    · rw [outputPath, hpath]
      exact ⟨List.prefix_append _ _, by simp⟩
    · by_cases hself : k = location (packageDirectory base package)
      · -- a file in place of the directory is not removed
        refine Or.inr fun _ hn' => ?_
        rw [hn hself] at hn'
        cases hn'
      · exact Or.inl ⟨hk, hself⟩
  rcases hturns.node? k hlog with ⟨⟨more, hmore⟩, hne⟩ | hkeeps
  · refine absurd ?_ hk
    rw [packageDirectory, hdirectory base] at hmore hne
    cases more with
    | nil => exact absurd (by rw [← hmore, List.append_nil]) hne
    | cons name₁ more =>
      rw [List.append_assoc] at hmore
      cases rest with
      | nil => exact ⟨name, name₁, more, hmore.symm⟩
      | cons name₂ rest => exact ⟨name, name₂, rest ++ name₁ :: more, hmore.symm⟩
  · exact hkeeps content hfile

/-- **What the names decide.** The directory of a package lies below every base and the output file
below every directory exactly if the name of the package and that of the output file lead down by
themselves. No file is lost then that is not in a directory of the base. -/
theorem publish_contained (o : Options) (package : String) :
    ((∀ base, Below base (packageDirectory base package)) ∧
        (∀ directory, Below directory (Path.join directory o.outputFile)) ↔
      Below "" (Text.lower package) ∧ Below "" o.outputFile) ∧
    (Below "" (Text.lower package) → Below "" o.outputFile →
      ∀ (c : Catalog) (base : String) (overwrite : Bool) (w : World) (k : Location) content,
        ¬ w.LogsTo k → ¬ Inside base k → w.files.node? k = some (.file content) →
          ((publish o c package base overwrite).inWorld w).2.files.node? k =
            some (.file content)) := by
  constructor
  · unfold packageDirectory
    rw [forall_below_join_iff, forall_below_join_iff]
  · exact fun hpackage houtput c base overwrite w k content hlog hk hfile =>
      publish_keeps_files hpackage houtput c base overwrite hlog hk hfile

example : Below "out" (packageDirectory "out" "Library") := by decide +kernel

/-- A base directory that holds a file, and the directory of a package with an old module. -/
def World.withOldModule : World where
  files := ⟨[(["out"], .directory), (["out", "notes.txt"], .file "keep me".toUTF8),
    (["out", "p"], .directory), (["out", "p", "old.py"], .file "x = 1".toUTF8)]⟩

/-- The package is published over its old directory, so that the old module goes and the file beside
the directory stays. -/
theorem publish_contained_beside_notes :
    Below "" (Text.lower "p") ∧ Below "" Options.complete.outputFile ∧
      ¬ World.withOldModule.LogsTo ["out", "notes.txt"] ∧ ¬ Inside "out" ["out", "notes.txt"] ∧
      ((publish .complete ⟨.tangled⟩ "p" "out" true).inWorld .withOldModule).1 =
        .ok "out/p/model.py" ∧
      ((publish .complete ⟨.tangled⟩ "p" "out" true).inWorld .withOldModule).2.files.node?
        ["out", "p", "old.py"] = none ∧
      ((publish .complete ⟨.tangled⟩ "p" "out" true).inWorld .withOldModule).2.files.node?
        ["out", "notes.txt"] = some (.file "keep me".toUTF8) := by
  have hpackage : Below "" (Text.lower "p") := by decide +kernel
  have houtput : Below "" Options.complete.outputFile := by decide +kernel
  have hlog : ¬ World.withOldModule.LogsTo ["out", "notes.txt"] := by
    rintro ⟨log, hlog, -⟩
    cases hlog
  have hout : ¬ Inside "out" ["out", "notes.txt"] := by
    rintro ⟨name, name', rest, h⟩
    have hbase : location "out" = ["out"] := by decide +kernel
    rw [hbase] at h
    cases h
  refine ⟨hpackage, houtput, hlog, hout, by decide +kernel, by decide +kernel, ?_⟩
  exact (publish_contained .complete "p").2 hpackage houtput _ _ _ _ _ _ hlog hout rfl

/-- A package without a name. -/
def Diagram.nameless : Diagram where
  packages := [{ name := "", entities := [{ name := "A" }] }]

/-- A base directory that holds a file. -/
def World.withNotes : World where
  files := ⟨[(["out"], .directory), (["out", "notes.txt"], .file "keep me".toUTF8)]⟩

/-- The diagram of the nameless package is accepted and the options are valid. But the directory of
the package does not lie below the base, and the file that stood there has gone. -/
theorem publish_clears_base :
    Catalog.ofDiagram .nameless = .ok ⟨.nameless⟩ ∧ Options.complete.validate = .ok () ∧
      ¬ Below "out" (packageDirectory "out" "") ∧
      (World.withNotes.files.node? ["out", "notes.txt"]).isSome ∧
      ((publish .complete ⟨.nameless⟩ "" "out" true).inWorld .withNotes).1 = .ok "out/model.py" ∧
      (((publish .complete ⟨.nameless⟩ "" "out" true).inWorld .withNotes).2.files.node?
        ["out", "notes.txt"]).isNone := by
  refine ⟨rfl, rfl, by decide +kernel, rfl, by decide +kernel, by decide +kernel⟩

end EntityRelation
