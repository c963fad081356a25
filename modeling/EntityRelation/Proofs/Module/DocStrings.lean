import EntityRelation.Proofs.Module.Blocks
import EntityRelation.Proofs.Text.OneLine
import EntityRelation.Proofs.Text.TripleQuoted
import EntityRelation.Settings

/-!
# Documentation as a literal

The documentation of an entity stands in its class between triple quotes, as it was written: nothing
in it is escaped. **`docString_isLiteral_iff`** tells the documentations for which the lines are one
literal and nothing else. No line may have three quotes the first of which is not escaped by the
text itself, and a documentation of one line, where the closing quotes follow at once, may not end
with a quote or a backslash that is not escaped (`FitsQuotes`). Prose without quotes and backslashes
is never a problem. A documentation with three quotes in it ends the literal early
(`docString_ends_early`).
-/

namespace EntityRelation

open Text TripleQuoted

/-- The lines of a documentation as they stand in a class. -/
def docLines (o : Options) (text : String) : List String :=
  Outline.lines o.indentUnit (Outline.deeper (ClassPlan.docEntries text))

/-- The lines of a documentation as they stand in a class, joined by line feeds. -/
def docString (o : Options) (text : String) : String := "\n".intercalate (docLines o text)

/-- A documentation that can be put between triple quotes as it is. -/
structure FitsQuotes (text : String) : Prop where
  /-- No line has three quotes, the first of them not escaped. -/
  not_closes : ∀ line ∈ Text.lines (Text.trim text), ¬ Closes line.toList
  /-- A single line does not escape the quotes that come after it. -/
  not_escapes : ∀ line, Text.lines (Text.trim text) = [line] → ¬ Escapes line.toList
  /-- A single line does not end with a quote, unless it is escaped. -/
  end_escaped : ∀ line, Text.lines (Text.trim text) = [line] →
    ∀ before, line.toList = before ++ ['"'] → Escapes before

/-! ### Indentation -/

theorem isBlank_of_mem_indentUnit (o : Options) {c : Char} (hc : c ∈ o.indentUnit.toList) :
    Text.isBlank c = true := by
  rcases o.eq_of_mem_indentUnit hc with rfl | rfl <;> rfl

theorem notMem_indentUnit (o : Options) {c : Char} (hc : Text.isBlank c = false) :
    c ∉ o.indentUnit.toList := by
  intro h
  rw [isBlank_of_mem_indentUnit o h] at hc
  cases hc

/-- A line one level deep is indented once, unless it is empty. -/
theorem toList_line_one (unit text : String) : (Entry.line unit ⟨1, text⟩).toList =
    if text = "" then [] else unit.toList ++ text.toList := by
  unfold Entry.line
  by_cases h : text = ""
  · simp [h]
  · simp [h]

/-- Indentation does not change whether a line closes a literal. -/
theorem closes_line_one_iff (o : Options) (text : String) :
    Closes (Entry.line o.indentUnit ⟨1, text⟩).toList ↔ Closes text.toList := by
  rw [toList_line_one]
  split
  case isTrue h => rw [h]; rfl
  case isFalse => exact closes_append_iff (notMem_indentUnit o rfl) (notMem_indentUnit o rfl)

/-! ### The lines as a text -/

/-- Lines that are joined each start with a line feed, but for the first. -/
theorem toList_intercalate_cons (x : String) (xs : List String) :
    ("\n".intercalate (x :: xs)).toList = x.toList ++ xs.flatMap fun y => '\n' :: y.toList := by
  rw [String.toList_intercalate, List.map_cons]
  induction xs generalizing x with
  | nil => simp
  | cons y ys ih =>
    rw [List.map_cons, List.intercalate_cons_cons, ih]
    simp

/-- A documentation of one line stands between the quotes. -/
theorem toList_docString_of_line (o : Options) {text line : String} (h : Text.hasText text = true)
    (hl : Text.lines (Text.trim text) = [line]) : (docString o text).toList =
      o.indentUnit.toList ++ quotes ++ line.toList ++ quotes := by
  unfold docString docLines ClassPlan.docEntries
  rw [if_pos h, hl]
  show ("\n".intercalate [Entry.line o.indentUnit ⟨1, "\"\"\"" ++ line ++ "\"\"\""⟩]).toList = _
  rw [toList_intercalate_cons, toList_line_one]
  simp [quotes]

/-- A documentation of several lines stands on lines of its own. -/
theorem toList_docString_of_lines (o : Options) {text : String} (h : Text.hasText text = true)
    (hl : ∀ line, Text.lines (Text.trim text) ≠ [line]) : (docString o text).toList =
      o.indentUnit.toList ++ quotes ++ ((Text.lines (Text.trim text)).flatMap (fun line =>
        '\n' :: (Entry.line o.indentUnit ⟨1, line⟩).toList) ++ '\n' :: o.indentUnit.toList)
        ++ quotes := by
  unfold docString docLines ClassPlan.docEntries
  rw [if_pos h]
  split
  case h_1 line heq => exact absurd heq (hl line)
  case h_2 =>
    have hq : (Entry.line o.indentUnit ⟨1, "\"\"\""⟩).toList = o.indentUnit.toList ++ quotes :=
      toList_line_one _ _
    have hlines : Outline.lines o.indentUnit (Outline.deeper (Outline.line "\"\"\"" ++
        (Text.lines (Text.trim text)).flatMap Outline.line ++ Outline.line "\"\"\"")) =
        Entry.line o.indentUnit ⟨1, "\"\"\""⟩ :: ((Text.lines (Text.trim text)).map fun line =>
          Entry.line o.indentUnit ⟨1, line⟩) ++ [Entry.line o.indentUnit ⟨1, "\"\"\""⟩] := by
      simp only [Outline.lines, Outline.deeper, Outline.line, Entry.deeper, List.map_append,
        List.map_flatMap, List.map_cons, List.map_nil, List.cons_append, List.nil_append]
      rw [← List.map_eq_flatMap]
    rw [hlines, List.cons_append, toList_intercalate_cons, hq]
    simp [List.flatMap_append, List.flatMap_map, hq]

/-! ### Documentations that fit -/

/-- A documentation of one line is a literal if the line can stand between the quotes. -/
theorem isLiteral_docString_of_line (o : Options) {text line : String}
    (h : Text.hasText text = true) (hl : Text.lines (Text.trim text) = [line]) :
    IsLiteral (docString o text).toList ↔ FitsQuotes text := by
  rw [toList_docString_of_line o h hl, isLiteral_iff fun c => isBlank_of_mem_indentUnit o,
    isContent_iff]
  have hline : ∀ {P : String → Prop}, (∀ x, Text.lines (Text.trim text) = [x] → P x) ↔ P line := by
    intro P
    simp [hl]
  constructor
  · rintro ⟨hc, he, hend⟩
    exact ⟨by simpa [hl] using hc, hline.2 he, hline.2 hend⟩
  · intro hf
    exact ⟨hf.not_closes line (by simp [hl]), hline.1 hf.not_escapes, hline.1 hf.end_escaped⟩

/-- What stands between the quotes of a documentation of several lines closes them early if one of
the lines does. -/
theorem closes_lines_iff (o : Options) (lines : List String) :
    Closes ((lines.flatMap fun line => '\n' :: (Entry.line o.indentUnit ⟨1, line⟩).toList) ++
      '\n' :: (o.indentUnit.toList ++ ['"', '"'])) ↔ ∃ line ∈ lines, Closes line.toList := by
  have hunit : ¬ Closes (o.indentUnit.toList ++ ['"', '"']) := by
    rw [closes_append_iff (notMem_indentUnit o rfl) (notMem_indentUnit o rfl)]
    decide
  have hlines := closes_append_flatMap_iff []
    (fun line => (Entry.line o.indentUnit ⟨1, line⟩).toList) lines
  rw [List.nil_append] at hlines
  rw [closes_append_cons_iff _ _ (by decide) (by decide), hlines]
  simp only [not_closes_nil, hunit, closes_line_one_iff, false_or, or_false]

/-- A documentation of several lines is a literal if no line closes it. -/
theorem isLiteral_docString_of_lines (o : Options) {text : String} (h : Text.hasText text = true)
    (hl : ∀ line, Text.lines (Text.trim text) ≠ [line]) :
    IsLiteral (docString o text).toList ↔ FitsQuotes text := by
  have hend : ∀ cs : List Char, ¬ Escapes (cs ++ '\n' :: o.indentUnit.toList) := fun cs => by
    rw [escapes_append_cons_iff cs (by decide)]
    exact not_escapes_of_notMem (notMem_indentUnit o rfl)
  have hcl := closes_lines_iff o (Text.lines (Text.trim text))
  rw [← List.cons_append, ← List.append_assoc] at hcl
  rw [toList_docString_of_lines o h hl, isLiteral_iff fun c => isBlank_of_mem_indentUnit o]
  constructor
  · intro hc
    exact ⟨fun line hline hlcl => hc.not_closes (hcl.2 ⟨line, hline, hlcl⟩),
      fun line hline => absurd hline (hl line), fun line hline => absurd hline (hl line)⟩
  · intro hf
    refine ⟨hend _, fun h => ?_⟩
    obtain ⟨line, hline, hlcl⟩ := hcl.1 h
    exact hf.not_closes line hline hlcl

/-! ### Prose -/

/-- Prose without quotes and backslashes fits. -/
theorem fitsQuotes_of_notMem {text : String} (hq : '"' ∉ text.toList) (hb : '\\' ∉ text.toList) :
    FitsQuotes text where
  not_closes line hl hc := by
    obtain ⟨before, after, hline, -⟩ := hc
    have hm : '"' ∈ line.toList := by rw [hline]; simp [quotes]
    exact hq (mem_of_mem_lines hl hm)
  not_escapes line hl := by
    have hm : line ∈ Text.lines (Text.trim text) := by rw [hl]; exact List.mem_cons_self
    exact not_escapes_of_notMem fun h => hb (mem_of_mem_lines hm h)
  end_escaped line hl before hline := by
    have hm : line ∈ Text.lines (Text.trim text) := by rw [hl]; exact List.mem_cons_self
    exact absurd (mem_of_mem_lines hm (by simp [hline])) hq

/-! ### The literal -/

/-- With documentation, a class begins with its heading and the lines of its documentation. -/
theorem exists_lines_outline (o : Options) (s : Schema) (c : ClassPlan) :
    ∃ rest, Outline.lines o.indentUnit (c.outline s true) =
      classHeading c.table.entity.name :: docLines o c.table.entity.documentation ++ rest := by
  obtain ⟨fields, hbody⟩ :
      ∃ fields, c.body s true = ClassPlan.docEntries c.table.entity.documentation ++ fields :=
    ⟨_, by rw [ClassPlan.body, if_pos rfl, List.append_assoc, List.append_assoc]⟩
  obtain ⟨rest, hrest⟩ := c.exists_outline_eq_body s true
  have hheading : Outline.lines o.indentUnit (Outline.line (classHeading c.table.entity.name)) =
      [classHeading c.table.entity.name] := by
    simp [Outline.lines, Outline.line, Entry.line, classHeading]
  refine ⟨Outline.lines o.indentUnit (Outline.deeper fields ++ rest), ?_⟩
  rw [hrest, hbody, docLines, ← List.singleton_append, ← hheading]
  simp only [Outline.lines, Outline.deeper, List.map_append, List.append_assoc]

/-- **When a documentation is one literal**: the lines of a documentation, which come first in its
class, are one literal in triple quotes and nothing else exactly if the documentation fits between
them, and one that does not fit has a quote or a backslash in it. -/
theorem docString_isLiteral_iff (o : Options) {text : String} (h : Text.hasText text = true) :
    (∀ (s : Schema) (c : ClassPlan), c.table.entity.documentation = text →
      ∃ rest, Outline.lines o.indentUnit (c.outline s true) =
        classHeading c.table.entity.name :: docLines o text ++ rest) ∧
      (IsLiteral (docString o text).toList ↔ FitsQuotes text) ∧
      (FitsQuotes text ∨ '"' ∈ text.toList ∨ '\\' ∈ text.toList) := by
  refine ⟨?_, ?_, ?_⟩
  · intro s c hc
    exact hc ▸ exists_lines_outline o s c
  · by_cases hl : ∃ line, Text.lines (Text.trim text) = [line]
    · obtain ⟨line, hl⟩ := hl
      exact isLiteral_docString_of_line o h hl
    · exact isLiteral_docString_of_lines o h fun line hline => hl ⟨line, hline⟩
  · by_contra hn
    rw [not_or, not_or] at hn
    exact hn.1 (fitsQuotes_of_notMem hn.2.1 hn.2.2)

/-- Single quotes, an escaped run of three and a backslash at the end of a line do no harm. -/
theorem docString_isLiteral_of_quotes :
    Text.hasText "Says \"yes\" and \\\"\"\" to\nC:\\" = true ∧
      FitsQuotes "Says \"yes\" and \\\"\"\" to\nC:\\" ∧
      IsLiteral (docString {} "Says \"yes\" and \\\"\"\" to\nC:\\").toList := by
  have h : Text.hasText "Says \"yes\" and \\\"\"\" to\nC:\\" = true := by decide +kernel
  have hl : Text.lines (Text.trim "Says \"yes\" and \\\"\"\" to\nC:\\") =
      ["Says \"yes\" and \\\"\"\" to", "C:\\"] := by decide +kernel
  have hf : FitsQuotes "Says \"yes\" and \\\"\"\" to\nC:\\" := by
    refine ⟨?_, fun line hline => ?_, fun line hline => ?_⟩
    · rw [hl]
      decide +kernel
    · rw [hl] at hline
      cases hline
    · rw [hl] at hline
      cases hline
  exact ⟨h, hf, (docString_isLiteral_iff {} h).2.1.2 hf⟩

/-- Three quotes in a documentation end the literal, and the rest of it is read as code. -/
theorem docString_ends_early : Text.hasText "Written as \"\"\"x\"\"\" in code" = true ∧
    readLiteral (docString {} "Written as \"\"\"x\"\"\" in code").toList =
      some ("Written as ".toList, "x\"\"\" in code\"\"\"".toList) ∧
    ¬ IsLiteral (docString {} "Written as \"\"\"x\"\"\" in code").toList := by
  have hr : readLiteral (docString {} "Written as \"\"\"x\"\"\" in code").toList =
      some ("Written as ".toList, "x\"\"\" in code\"\"\"".toList) := by decide +kernel
  refine ⟨by decide +kernel, hr, ?_⟩
  rintro ⟨content, h⟩
  rw [hr] at h
  simp at h

end EntityRelation
