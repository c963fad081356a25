import EntityRelation.Text.Blank
import Mathlib.Data.List.Induction

/-!
# Literals in triple quotes

A literal that is opened by three quotes is read up to the first three quotes, where a backslash
takes the next character along (`read`). A character is escaped if the run of backslashes before it
is odd (`Escapes`), and a text closes a literal if somewhere in it there are three quotes the first
of which is not escaped (`Closes`). So what is read is what stands before the first such place:
`read_eq_some_iff` and `isSome_read_iff` say this without the reader. The places at which a text
closes a literal lie between those of its characters that are neither quotes nor backslashes
(`closes_append_cons_iff`).
-/

namespace EntityRelation.Text.TripleQuoted

/-- The three quotes that open and close a literal. -/
def quotes : List Char := ['"', '"', '"']

/-- What stands before the first three quotes, and what comes after them. A backslash takes the next
character along. -/
def read : List Char → Option (List Char × List Char)
  | '"' :: '"' :: '"' :: rest => some ([], rest)
  | '\\' :: c :: rest => (read rest).map fun p => ('\\' :: c :: p.1, p.2)
  | c :: rest => (read rest).map fun p => (c :: p.1, p.2)
  | [] => none

/-- What a literal behind blanks holds, and what comes after it. -/
def readLiteral (cs : List Char) : Option (List Char × List Char) :=
  match cs.dropWhile isBlank with
  | '"' :: '"' :: '"' :: rest => read rest
  | _ => none

/-- The text is one literal, behind blanks: the first quotes that close it stand at its end. -/
def IsLiteral (cs : List Char) : Prop := ∃ content, readLiteral cs = some (content, [])

variable {before after cs : List Char} {c : Char}

/-! ### Escaped characters -/

/-- What comes next is escaped: the run of backslashes at the end is odd. -/
def Escapes (before : List Char) : Prop := (before.reverse.takeWhile (· == '\\')).length % 2 = 1

instance (before : List Char) : Decidable (Escapes before) := inferInstanceAs (Decidable (_ = 1))

theorem not_escapes_nil : ¬ Escapes [] := by decide

/-- A backslash escapes what comes next, unless it is escaped itself. -/
theorem escapes_concat_iff : Escapes (before ++ [c]) ↔ c = '\\' ∧ ¬ Escapes before := by
  unfold Escapes
  rw [List.reverse_append, List.reverse_singleton, List.singleton_append, List.takeWhile_cons]
  by_cases hc : c = '\\'
  · simp only [hc, beq_self_eq_true, if_true, List.length_cons, true_and]
    omega
  · simp [hc]

/-- What stands before a character that is no backslash does not matter. -/
theorem escapes_append_cons_iff (before : List Char) (hc : c ≠ '\\') :
    Escapes (before ++ c :: after) ↔ Escapes after := by
  induction after using List.reverseRecOn with
  | nil => simp [escapes_concat_iff, hc, not_escapes_nil]
  | append_singleton after d ih =>
    rw [← List.cons_append, ← List.append_assoc, escapes_concat_iff, escapes_concat_iff, ih]

/-- Neither does what stands before an escaped character. -/
theorem escapes_escape_iff : Escapes ('\\' :: c :: after) ↔ Escapes after := by
  induction after using List.reverseRecOn with
  | nil =>
    have h : Escapes ['\\'] := by decide
    have hc : Escapes (['\\'] ++ [c]) ↔ c = '\\' ∧ ¬ Escapes ['\\'] := escapes_concat_iff
    simpa [h, not_escapes_nil] using hc
  | append_singleton after d ih =>
    rw [← List.cons_append, ← List.cons_append, escapes_concat_iff, escapes_concat_iff, ih]

theorem not_escapes_of_notMem (h : '\\' ∉ cs) : ¬ Escapes cs := by
  cases cs using List.reverseRecOn with
  | nil => exact not_escapes_nil
  | append_singleton cs c =>
    intro he
    rw [(escapes_concat_iff.1 he).1] at h
    exact h (List.mem_append_right _ List.mem_cons_self)

/-! ### Texts that close a literal -/

/-- Three quotes stand in the text, and the first of them is not escaped. -/
def Closes (cs : List Char) : Prop :=
  ∃ before after, cs = before ++ quotes ++ after ∧ ¬ Escapes before

theorem not_closes_nil : ¬ Closes [] := by
  rintro ⟨before, after, h, -⟩
  simp [quotes] at h

/-- An escaped character does not close. -/
theorem closes_escape_iff : Closes ('\\' :: c :: cs) ↔ Closes cs := by
  constructor
  · rintro ⟨before, after, h, hb⟩
    match before with
    | [] => simp [quotes] at h
    | [d] =>
      obtain ⟨rfl, -⟩ := List.cons.inj h
      exact absurd (by decide) hb
    | d :: d' :: before =>
      simp only [List.cons_append, List.cons.injEq] at h
      obtain ⟨rfl, rfl, rfl⟩ := h
      exact ⟨before, after, rfl, fun he => hb (escapes_escape_iff.2 he)⟩
  · rintro ⟨before, after, rfl, hb⟩
    exact ⟨'\\' :: c :: before, after, rfl, fun he => hb (escapes_escape_iff.1 he)⟩

theorem quotes_prefix_iff : quotes <+: c :: cs ↔ c = '"' ∧ ∃ rest, cs = '"' :: '"' :: rest := by
  constructor
  · rintro ⟨rest, h⟩
    obtain ⟨rfl, rfl⟩ := List.cons.inj h
    exact ⟨rfl, rest, rfl⟩
  · rintro ⟨rfl, rest, rfl⟩
    exact ⟨rest, rfl⟩

/-- A text closes at its start or behind its first character. -/
theorem closes_cons_iff (hc : c ≠ '\\') : Closes (c :: cs) ↔ quotes <+: c :: cs ∨ Closes cs := by
  have hskip : ∀ {before}, Escapes (c :: before) ↔ Escapes before :=
    escapes_append_cons_iff [] hc
  constructor
  · rintro ⟨before, after, h, hb⟩
    cases before with
    | nil => exact .inl ⟨after, h.symm⟩
    | cons d before =>
      obtain ⟨rfl, rfl⟩ := List.cons.inj h
      exact .inr ⟨before, after, rfl, fun he => hb (hskip.2 he)⟩
  · rintro (⟨after, h⟩ | ⟨before, after, rfl, hb⟩)
    · exact ⟨[], after, h.symm, not_escapes_nil⟩
    · exact ⟨c :: before, after, rfl, fun he => hb (hskip.1 he)⟩

/-- A single backslash is no text that closes. -/
theorem not_closes_backslash : ¬ Closes ['\\'] := by
  rintro ⟨before, after, h, -⟩
  have hlen := congrArg List.length h
  simp only [quotes, List.length_append, List.length_cons, List.length_nil] at hlen
  omega

theorem closes_quotes (rest : List Char) : Closes ('"' :: '"' :: '"' :: rest) :=
  ⟨[], rest, rfl, not_escapes_nil⟩

/-- Around a character that is neither a quote nor a backslash, a text closes on one side. -/
theorem closes_append_cons_iff (before after : List Char) (hq : c ≠ '"') (hc : c ≠ '\\') :
    Closes (before ++ c :: after) ↔ Closes before ∨ Closes after := by
  fun_induction read before with
  | case1 rest => simp [closes_quotes]
  | case2 d rest ih => simpa [closes_escape_iff] using ih
  | case3 d rest hquotes hescape ih =>
    by_cases hd : d = '\\'
    · -- the backslash is the last character before `c`, which it escapes
      cases rest with
      | nil =>
        rw [hd]
        show Closes ('\\' :: c :: after) ↔ _
        simp [closes_escape_iff, not_closes_backslash]
      | cons e rest => exact absurd rfl (hescape e rest hd)
    · have hstart : ¬ quotes <+: d :: rest := fun h => by
        obtain ⟨hdq, r, hr⟩ := quotes_prefix_iff.1 h
        exact hquotes r hdq hr
      have hstart' : ¬ quotes <+: d :: (rest ++ c :: after) := fun h => by
        obtain ⟨hdq, r, hr⟩ := quotes_prefix_iff.1 h
        match rest with
        | [] => exact hq (List.cons.inj hr).1
        | [e] => exact hq (List.cons.inj (List.cons.inj hr).2).1
        | e :: e' :: rest =>
          simp only [List.cons_append, List.cons.injEq] at hr
          exact hquotes rest hdq (by rw [hr.1, hr.2.1])
      rw [List.cons_append, closes_cons_iff hd, closes_cons_iff hd]
      simp only [hstart, hstart', false_or]
      exact ih
  | case4 =>
    have hstart : ¬ quotes <+: c :: after := fun h => hq (quotes_prefix_iff.1 h).1
    simp [closes_cons_iff hc, hstart, not_closes_nil]

/-- In front of a text, characters that are neither quotes nor backslashes do not matter. -/
theorem closes_append_iff (hq : '"' ∉ before) (hc : '\\' ∉ before) :
    Closes (before ++ after) ↔ Closes after := by
  induction before with
  | nil => rfl
  | cons c before ih =>
    rw [List.mem_cons, not_or] at hq hc
    have h := closes_append_cons_iff [] (before ++ after) (Ne.symm hq.1) (Ne.symm hc.1)
    rw [List.nil_append] at h
    rw [List.cons_append, h, ih hq.2 hc.2]
    simp [not_closes_nil]

/-- Parts that start with a line feed each close a literal one by one. -/
theorem closes_append_flatMap_iff {α : Type} (before : List Char) (f : α → List Char)
    (xs : List α) : Closes (before ++ xs.flatMap fun x => '\n' :: f x) ↔
      Closes before ∨ ∃ x ∈ xs, Closes (f x) := by
  induction xs generalizing before with
  | nil => simp
  | cons x xs ih =>
    rw [List.flatMap_cons, List.cons_append, closes_append_cons_iff _ _ (by decide) (by decide), ih]
    simp

/-! ### What is read -/

/-- What can stand between the quotes of a literal: it does not escape the quotes that close it, and
no three quotes start in it that would close it earlier. -/
structure IsContent (cs : List Char) : Prop where
  /-- The closing quotes are not escaped. -/
  not_escapes : ¬ Escapes cs
  /-- Nothing closes before, not even together with the first closing quotes. -/
  not_closes : ¬ Closes (cs ++ ['"', '"'])

/-- Two of the closing quotes come right behind the content. -/
theorem append_pair_prefix (x y : List Char) : x ++ ['"', '"'] <+: x ++ quotes ++ y :=
  ⟨'"' :: y, by simp [quotes]⟩

theorem isContent_nil : IsContent [] :=
  ⟨not_escapes_nil, fun ⟨before, after, h, _⟩ => by
    have hlen := congrArg List.length h
    simp only [quotes, List.length_append, List.length_cons, List.length_nil] at hlen
    omega⟩

/-- What is read is the content of a literal, up to the quotes that close it. -/
theorem eq_of_read {x y : List Char} (h : read cs = some (x, y)) :
    cs = x ++ quotes ++ y ∧ IsContent x := by
  fun_induction read cs generalizing x with
  | case1 rest =>
    obtain ⟨rfl, rfl⟩ := Prod.mk.inj (Option.some.inj h)
    exact ⟨rfl, isContent_nil⟩
  | case2 c rest ih =>
    obtain ⟨⟨x, y⟩, hr, hxy⟩ := Option.map_eq_some_iff.1 h
    obtain ⟨rfl, rfl⟩ := Prod.mk.inj hxy
    obtain ⟨rfl, hx⟩ := ih hr
    exact ⟨rfl, fun he => hx.not_escapes (escapes_escape_iff.1 he),
      fun hc => hx.not_closes (closes_escape_iff.1 hc)⟩
  | case3 c rest hquotes hescape ih =>
    obtain ⟨⟨x, y⟩, hr, hxy⟩ := Option.map_eq_some_iff.1 h
    obtain ⟨rfl, rfl⟩ := Prod.mk.inj hxy
    obtain ⟨rfl, hx⟩ := ih hr
    have hc : c ≠ '\\' := fun hc => by
      match x with
      | [] => exact hescape '"' _ hc rfl
      | d :: x => exact hescape d _ hc rfl
    refine ⟨rfl, fun he => hx.not_escapes ?_, fun hcl => ?_⟩
    · exact (escapes_append_cons_iff [] hc).1 he
    · rcases (closes_cons_iff hc).1 hcl with hp | hcl
      · have hrest : quotes <+: c :: (x ++ quotes ++ y) :=
          hp.trans (List.cons_prefix_cons.2 ⟨rfl, append_pair_prefix x y⟩)
        obtain ⟨hcq, r, hr⟩ := quotes_prefix_iff.1 hrest
        exact hquotes r hcq hr
      · exact hx.not_closes hcl
  | case4 => cases h

/-- Something is read from a text that closes. -/
theorem isSome_read_iff : (read cs).isSome = true ↔ Closes cs := by
  constructor
  · intro h
    obtain ⟨⟨x, y⟩, hr⟩ := Option.isSome_iff_exists.1 h
    obtain ⟨rfl, hx⟩ := eq_of_read hr
    exact ⟨x, y, rfl, hx.not_escapes⟩
  · intro h
    fun_induction read cs with
    | case1 rest => rfl
    | case2 c rest ih => simpa using ih (closes_escape_iff.1 h)
    | case3 c rest hquotes hescape ih =>
      by_cases hc : c = '\\'
      · cases rest with
        | nil => exact absurd (hc ▸ h) not_closes_backslash
        | cons d rest => exact absurd rfl (hescape d rest hc)
      · have hstart : ¬ quotes <+: c :: rest := fun hp => by
          obtain ⟨hcq, r, hr⟩ := quotes_prefix_iff.1 hp
          exact hquotes r hcq hr
        simpa using ih (((closes_cons_iff hc).1 h).resolve_left hstart)
    | case4 => exact absurd h not_closes_nil

instance (cs : List Char) : Decidable (Closes cs) := decidable_of_iff _ isSome_read_iff

/-- Quotes that are not escaped stand behind the content or in it, never in front of its end. -/
theorem IsContent.length_le {x y x' y' : List Char} (hx : ¬ Escapes x) (hx' : IsContent x')
    (h : x ++ quotes ++ y = x' ++ quotes ++ y') : x'.length ≤ x.length := by
  by_contra hlt
  refine hx'.not_closes ?_
  have hp : x ++ quotes <+: x' ++ ['"', '"'] := by
    have hpair : x' ++ ['"', '"'] <+: x ++ quotes ++ y := h ▸ append_pair_prefix x' y'
    refine List.prefix_of_prefix_length_le (List.prefix_append (x ++ quotes) y) hpair ?_
    simp only [quotes, List.length_append, List.length_cons, List.length_nil]
    omega
  obtain ⟨rest, hrest⟩ := hp
  exact ⟨x, rest, hrest.symm, hx⟩

/-- **What is read is the content that stands before the closing quotes.** -/
theorem read_eq_some_iff {x y : List Char} :
    read cs = some (x, y) ↔ cs = x ++ quotes ++ y ∧ IsContent x := by
  constructor
  · exact eq_of_read
  · rintro ⟨rfl, hx⟩
    have hcl : Closes (x ++ quotes ++ y) := ⟨x, y, rfl, hx.not_escapes⟩
    obtain ⟨⟨x', y'⟩, hr⟩ := Option.isSome_iff_exists.1 (isSome_read_iff.2 hcl)
    obtain ⟨heq, hx'⟩ := eq_of_read hr
    have hlen : x.length = x'.length :=
      Nat.le_antisymm (IsContent.length_le hx'.not_escapes hx heq.symm)
        (IsContent.length_le hx.not_escapes hx' heq)
    rw [List.append_assoc, List.append_assoc] at heq
    obtain ⟨rfl, hy⟩ := List.append_inj heq hlen
    rw [hr, List.append_cancel_left hy]

/-- What can stand between the quotes, said by the text alone: nothing in it closes, and at its end
there is neither a quote nor a backslash that is not escaped. -/
theorem isContent_iff : IsContent cs ↔
    ¬ Closes cs ∧ ¬ Escapes cs ∧ ∀ before, cs = before ++ ['"'] → Escapes before := by
  constructor
  · intro h
    refine ⟨fun hc => h.not_closes ?_, h.not_escapes, fun before hcs => ?_⟩
    · obtain ⟨before, after, rfl, hb⟩ := hc
      exact ⟨before, after ++ ['"', '"'], by simp, hb⟩
    · by_contra hb
      exact h.not_closes ⟨before, [], by simp [hcs, quotes], hb⟩
  · rintro ⟨hc, he, hend⟩
    refine ⟨he, ?_⟩
    rintro ⟨before, after, h, hb⟩
    -- the three quotes reach as far as the end, or they end one or two characters earlier
    cases after using List.reverseRecOn with
    | nil =>
      have hcs : cs ++ ['"', '"'] = (before ++ ['"']) ++ ['"', '"'] := by simpa [quotes] using h
      exact hb (hend before (List.append_cancel_right hcs))
    | append_singleton after c =>
      cases after using List.reverseRecOn with
      | nil =>
        have hcs : (cs ++ ['"']) ++ ['"'] = (before ++ quotes) ++ [c] := by simpa using h
        have hcs' : cs ++ ['"'] = (before ++ ['"', '"']) ++ ['"'] := by
          simpa [quotes] using (List.append_inj' hcs rfl).1
        have hq : ¬ Escapes (before ++ ['"']) := fun hq =>
          absurd (escapes_concat_iff.1 hq).1 (by decide)
        exact hq (hend (before ++ ['"']) (by simpa using List.append_cancel_right hcs'))
      | append_singleton after d =>
        have hcs : cs ++ ['"', '"'] = (before ++ quotes ++ after) ++ [d, c] := by simpa using h
        exact hc ⟨before, after, (List.append_inj' hcs rfl).1, hb⟩

/-- A text in triple quotes, behind blanks, is a literal if it can stand between the quotes. -/
theorem isLiteral_iff (h : ∀ c ∈ before, isBlank c = true) :
    IsLiteral (before ++ quotes ++ cs ++ quotes) ↔ IsContent cs := by
  have hdrop : (before ++ quotes ++ cs ++ quotes).dropWhile isBlank = quotes ++ (cs ++ quotes) := by
    rw [List.append_assoc, List.append_assoc, List.dropWhile_append_of_pos h]
    rfl
  have hread : readLiteral (before ++ quotes ++ cs ++ quotes) = read (cs ++ quotes) := by
    rw [readLiteral, hdrop]
    rfl
  rw [IsLiteral, hread]
  constructor
  · rintro ⟨content, hr⟩
    obtain ⟨heq, hc⟩ := read_eq_some_iff.1 hr
    rw [List.append_nil] at heq
    rwa [List.append_cancel_right heq]
  · intro hc
    exact ⟨cs, read_eq_some_iff.2 ⟨(List.append_nil _).symm, hc⟩⟩

end EntityRelation.Text.TripleQuoted
