import EntityRelation.FieldCall
import EntityRelation.Settings
import EntityRelation.Text.Lowercase
import Mathlib.Data.List.Basic

/-!
# Texts on one line

A text stands on one line if it has no line feed. Putting texts together, quoting them, indenting
them and writing them in lower case never makes a second line. A text of the diagram that may have
line feeds is brought to lines without them before it is written: the lines of a text have none,
whatever the text is (`oneLine_of_mem_lines`), and so the expression of a tag has none unless the tag
names an element with one (`TagValue.oneLine_expression`).
-/

namespace EntityRelation

/-! ### Characters of lines -/

theorem mem_of_mem_linesOf {cs line : List Char} (h : line ∈ Text.linesOf cs) {c : Char}
    (hc : c ∈ line) : c ∈ cs := by
  fun_induction Text.linesOf cs generalizing line with
  | case1 => exact absurd h List.not_mem_nil
  | case2 rest ih =>
    rcases List.mem_cons.1 h with rfl | h
    · exact absurd hc List.not_mem_nil
    · exact List.mem_cons_of_mem _ (ih h hc)
  | case3 rest ih =>
    rcases List.mem_cons.1 h with rfl | h
    · exact absurd hc List.not_mem_nil
    · exact List.mem_cons_of_mem _ (List.mem_cons_of_mem _ (ih h hc))
  | case4 d rest _ _ hlines ih =>
    obtain rfl := List.mem_singleton.1 h
    exact List.mem_singleton.1 hc ▸ List.mem_cons_self
  | case5 d rest _ _ first more hlines ih =>
    rw [hlines] at ih
    rcases List.mem_cons.1 h with rfl | h
    · rcases List.mem_cons.1 hc with rfl | hc
      · exact List.mem_cons_self
      · exact List.mem_cons_of_mem _ (ih List.mem_cons_self hc)
    · exact List.mem_cons_of_mem _ (ih (List.mem_cons_of_mem _ h) hc)

theorem mem_of_mem_trimChars {cs : List Char} {c : Char} (h : c ∈ Text.trimChars cs) : c ∈ cs := by
  unfold Text.trimChars Text.dropBlankEnd at h
  rw [List.mem_reverse] at h
  have h := (List.dropWhile_suffix _).subset h
  exact (List.dropWhile_suffix _).subset (List.mem_reverse.1 h)

/-- The characters of the lines of a documentation are characters of the documentation. -/
theorem mem_of_mem_lines {text line : String} (h : line ∈ Text.lines (Text.trim text)) {c : Char}
    (hc : c ∈ line.toList) : c ∈ text.toList := by
  unfold Text.lines Text.trim at h
  rw [String.toList_ofList] at h
  obtain ⟨cs, hcs, rfl⟩ := List.mem_map.1 h
  rw [String.toList_ofList] at hc
  exact mem_of_mem_trimChars (mem_of_mem_linesOf hcs hc)

namespace Text

/-! ### One line -/

/-- The text has no line feed. -/
def OneLine (s : String) : Prop := '\n' ∉ s.toList

instance (s : String) : Decidable (OneLine s) := inferInstanceAs (Decidable (¬ _))

@[simp] theorem oneLine_append_iff {s t : String} : OneLine (s ++ t) ↔ OneLine s ∧ OneLine t := by
  simp [OneLine]

@[simp] theorem oneLine_ofList_iff {cs : List Char} : OneLine (String.ofList cs) ↔ '\n' ∉ cs := by
  simp [OneLine]

/-- Texts on one line that are joined with something on one line. -/
theorem oneLine_intercalate {sep : String} {xs : List String} (hsep : OneLine sep)
    (h : ∀ x ∈ xs, OneLine x) : OneLine (sep.intercalate xs) := by
  rw [OneLine, String.toList_intercalate]
  induction xs with
  | nil => simp
  | cons x xs ih =>
    obtain ⟨hx, hxs⟩ := List.forall_mem_cons.1 h
    cases xs with
    | nil =>
      rw [List.map_singleton, List.intercalate_singleton]
      exact hx
    | cons y ys =>
      rw [List.map_cons, List.map_cons, List.intercalate_cons_cons, ← List.map_cons]
      simp only [List.mem_append, not_or]
      exact ⟨⟨hx, hsep⟩, ih hxs⟩

theorem oneLine_trim {s : String} (h : OneLine s) : OneLine (trim s) := by
  rw [trim, oneLine_ofList_iff]
  intro hn
  exact h (mem_of_mem_trimChars hn)

theorem oneLine_of_bind_trim? {value : Option String} {s : String} (h : value.bind trim? = some s)
    (hv : ∀ x ∈ value, OneLine x) : OneLine s := by
  obtain ⟨x, hx, htrim⟩ := Option.bind_eq_some_iff.1 h
  unfold trim? at htrim
  split at htrim
  case isTrue =>
    cases htrim
    exact oneLine_trim (hv x hx)
  case isFalse => cases htrim

/-- Whatever the text is, its lines have no line feeds. -/
theorem newline_notMem_linesOf {cs line : List Char} (h : line ∈ linesOf cs) : '\n' ∉ line := by
  fun_induction linesOf cs generalizing line with
  | case1 => exact absurd h List.not_mem_nil
  | case2 rest ih =>
    rcases List.mem_cons.1 h with rfl | h
    · exact List.not_mem_nil
    · exact ih h
  | case3 rest ih =>
    rcases List.mem_cons.1 h with rfl | h
    · exact List.not_mem_nil
    · exact ih h
  | case4 c rest hc _ hlines ih =>
    obtain rfl := List.mem_singleton.1 h
    intro hn
    exact hc (List.mem_singleton.1 hn).symm
  | case5 c rest hc _ first more hlines ih =>
    rw [hlines] at ih
    rcases List.mem_cons.1 h with rfl | h
    · intro hn
      rcases List.mem_cons.1 hn with hn | hn
      · exact hc hn.symm
      · exact ih List.mem_cons_self hn
    · exact ih (List.mem_cons_of_mem _ h)

theorem oneLine_of_mem_lines {text line : String} (h : line ∈ lines text) : OneLine line := by
  obtain ⟨cs, hcs, rfl⟩ := List.mem_map.1 h
  rw [oneLine_ofList_iff]
  exact newline_notMem_linesOf hcs

/-! ### Quotes -/

theorem Quoted.newline_mem_escape_iff {cs : List Char} : '\n' ∈ escape cs ↔ '\n' ∈ cs := by
  induction cs with
  | nil => rfl
  | cons c rest ih =>
    rw [escape]
    split
    · simp [ih]
    · simp [ih]

@[simp] theorem oneLine_literal_iff {s : String} : OneLine (Quoted.literal s) ↔ OneLine s := by
  simp [Quoted.literal, OneLine, Quoted.newline_mem_escape_iff]

/-! ### Lower case -/

theorem toLower_ne_newline {c : Char} (h : c ≠ '\n') : c.toLower ≠ '\n' := by
  unfold Char.toLower
  split
  case isTrue hc =>
    have hlow : 65 ≤ c.toNat := hc.1
    have hhigh : c.toNat ≤ 90 := hc.2
    intro he
    have hval : (c.toNat + 32) % 2 ^ 32 = 10 := congrArg Char.toNat he
    omega
  case isFalse => exact h

theorem ofNat_ne_newline {n : Nat} (h : 10 < n) : Char.ofNat n ≠ '\n' := by
  by_cases hv : n.isValidChar
  · rw [Char.ofNat, dif_pos hv]
    intro he
    have hn : n = 10 := congrArg Char.toNat he
    omega
  · rw [Char.ofNat, dif_neg hv]
    decide

/-- The letters that the tables give come after the line feed. -/
theorem LetterCase.newline_lt_lower : ∀ r ∈ lowerRows, 10 < r.lower := by decide +kernel

theorem newline_notMem_lowerChar {c : Char} (h : c ≠ '\n') : '\n' ∉ lowerChar c := by
  unfold lowerChar
  split
  · rw [List.mem_singleton]
    exact (toLower_ne_newline h).symm
  · split
    · decide
    · split
      case h_1 r hr =>
        rw [List.mem_singleton]
        have hlt := LetterCase.newline_lt_lower r (List.mem_of_find?_eq_some hr)
        exact (ofNat_ne_newline (by omega)).symm
      case h_2 =>
        rw [List.mem_singleton]
        exact h.symm

theorem newline_notMem_lowerAfter (before : List Char) {cs : List Char} (h : '\n' ∉ cs) :
    '\n' ∉ lowerAfter before cs := by
  induction cs generalizing before with
  | nil => exact List.not_mem_nil
  | cons c rest ih =>
    rw [List.mem_cons, not_or] at h
    rw [lowerAfter, List.mem_append, not_or]
    refine ⟨?_, ih _ h.2⟩
    split
    · rw [List.mem_singleton]
      split <;> decide
    · exact newline_notMem_lowerChar (Ne.symm h.1)

theorem oneLine_lower {s : String} (h : OneLine s) : OneLine (lower s) := by
  rw [lower, oneLine_ofList_iff]
  exact newline_notMem_lowerAfter [] h

end Text

open Text

/-! ### Numbers -/

namespace Number

theorem notMem_ite {p : Prop} [Decidable p] {xs ys : List Char} {c : Char} (hx : c ∉ xs)
    (hy : c ∉ ys) : c ∉ if p then xs else ys := by
  split
  · exact hx
  · exact hy

theorem newline_notMem_digits (n : Nat) : '\n' ∉ digits n := by
  intro h
  have hd : Char.isDigit '\n' = true := Nat.isDigit_of_mem_toDigits (by decide) (by decide) h
  cases hd

theorem newline_notMem_zeros (n : Int) : '\n' ∉ zeros n := by
  intro h
  cases List.eq_of_mem_replicate h

theorem newline_notMem_layout {ds : List Char} (h : '\n' ∉ ds) (point : Int) :
    '\n' ∉ layout ds point := by
  have htake : ∀ n, '\n' ∉ ds.take n := fun n hn => h (List.mem_of_mem_take hn)
  have hdrop : ∀ n, '\n' ∉ ds.drop n := fun n hn => h (List.mem_of_mem_drop hn)
  have hsign : ∀ b : Bool, '\n' ≠ if b then '-' else '+' := by decide
  unfold layout
  refine notMem_ite ?_ (notMem_ite ?_ (notMem_ite ?_ ?_))
  · simp [h, newline_notMem_zeros]
  · simp [htake, hdrop]
  · simp [h, newline_notMem_zeros]
  · have hmore : '\n' ∉ if ds.length = 1 then [] else '.' :: ds.drop 1 :=
      notMem_ite List.not_mem_nil (by simpa using hdrop 1)
    have hpower : '\n' ∉ 'e' :: (if point - 1 < 0 then '-' else '+') ::
        digits (point - 1).natAbs := by
      simpa [newline_notMem_digits] using hsign (point - 1 < 0)
    simp only [List.mem_append, not_or]
    exact ⟨⟨htake 1, hmore⟩, hpower⟩

theorem oneLine_text (n : Number) : OneLine n.text := by
  cases n with
  | whole n =>
    rw [text, oneLine_ofList_iff]
    exact notMem_ite (by simp [newline_notMem_digits]) (newline_notMem_digits _)
  | real x =>
    have hbody : '\n' ∉ if x.isZero then ['0', '.', '0'] else
        layout (digits (shortest x).digits) ((digits (shortest x).digits).length +
          (shortest x).power) :=
      notMem_ite (by decide) (newline_notMem_layout (newline_notMem_digits _) _)
    rw [text, realText, oneLine_ofList_iff]
    refine notMem_ite ?_ hbody
    rw [List.mem_cons, not_or]
    exact ⟨by decide, hbody⟩

end Number

/-! ### Indentation -/

namespace Options

/-- Lines are indented by tabs or by spaces. -/
theorem eq_of_mem_indentUnit (o : Options) {c : Char} (hc : c ∈ o.indentUnit.toList) :
    c = '\t' ∨ c = ' ' := by
  unfold indentUnit at hc
  split at hc
  case isTrue => exact .inl (by simpa using hc)
  case isFalse =>
    rw [String.toList_ofList] at hc
    exact .inr (List.eq_of_mem_replicate hc)

theorem oneLine_indentUnit (o : Options) : OneLine o.indentUnit := by
  intro h
  rcases o.eq_of_mem_indentUnit h with h | h <;> cases h

end Options

/-! ### Expressions -/

/-- The element that a value names. -/
def TagValue.element? : TagValue → Option String
  | .element name => some name
  | _ => none

/-- The expression of a tag has no line feed, unless the tag names an element with one. A text may
have any number of lines. -/
theorem TagValue.oneLine_expression {v : TagValue} (h : ∀ name ∈ v.element?, OneLine name) :
    OneLine v.expression := by
  cases v with
  | text s =>
    rw [expression, oneLine_literal_iff]
    exact oneLine_intercalate (by decide) fun x hx => oneLine_of_mem_lines hx
  | number n => exact n.oneLine_text
  | flag b => cases b <;> decide
  | element name => exact h name rfl

end EntityRelation
