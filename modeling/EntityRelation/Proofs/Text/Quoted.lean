import EntityRelation.Text.Quoted
import Mathlib.Logic.Function.Basic

/-!
# Reading quoted literals

A literal in single quotes is read from left to right behind the quote that opens it (`read`). A
backslash takes the next character along, which has to be a backslash or a quote, and the first
quote that is not taken along closes the literal. What is read is a value exactly if its escaped
characters stand there with a quote behind them (`read_eq_closed_iff`), so a value has one literal
and a literal has one value. **`literal_reads_back`** puts this together for whole texts.

The escaped characters are those of two replacements one after the other, of the backslashes first
and then of the quotes (`escape_eq_replace`). In this order the backslashes that stand before quotes
are not doubled.
-/

namespace EntityRelation.Text.Quoted

/-! ### The reader -/

/-- What reading behind an opening quote comes to. -/
inductive Reading where
  /-- A quote closes the literal: what the literal says, and what stands behind that quote. -/
  | closed (value rest : List Char)
  /-- A backslash stands before a character that it cannot take along. -/
  | stray (c : Char)
  /-- The text ends before the literal does. -/
  | unclosed
  deriving DecidableEq, Repr

/-- The reading with one more character in front of what the literal says. -/
def Reading.prepend (c : Char) : Reading → Reading
  | closed value rest => closed (c :: value) rest
  | stray d => stray d
  | unclosed => unclosed

/-- Reading behind an opening quote. -/
def read : List Char → Reading
  | [] => .unclosed
  | '\'' :: rest => .closed [] rest
  | '\\' :: '\\' :: rest => (read rest).prepend '\\'
  | '\\' :: '\'' :: rest => (read rest).prepend '\''
  | '\\' :: c :: _ => .stray c
  | ['\\'] => .unclosed
  | c :: rest => (read rest).prepend c

theorem Reading.prepend_eq_closed {c : Char} {r : Reading} {value rest : List Char}
    (h : r.prepend c = .closed value rest) : ∃ v, r = .closed v rest ∧ value = c :: v := by
  cases r with
  | closed v s =>
    cases h
    exact ⟨v, rfl, rfl⟩
  | stray => cases h
  | unclosed => cases h

/-- A character that needs no backslash stands for itself. -/
theorem read_cons {c : Char} (hbackslash : c ≠ '\\') (hquote : c ≠ '\'') (cs : List Char) :
    read (c :: cs) = (read cs).prepend c := by
  rw [read]
  · exact fun h => hquote h
  all_goals simp [hbackslash]

theorem escape_cons {c : Char} (hbackslash : c ≠ '\\') (hquote : c ≠ '\'') (cs : List Char) :
    escape (c :: cs) = c :: escape cs := if_neg (not_or.2 ⟨hbackslash, hquote⟩)

/-- The escaped characters and a quote are read as the characters, whatever stands behind. -/
theorem read_escape (cs rest : List Char) : read (escape cs ++ '\'' :: rest) = .closed cs rest := by
  induction cs with
  | nil => rfl
  | cons c cs ih =>
    by_cases hbackslash : c = '\\'
    · subst hbackslash
      show (read (escape cs ++ '\'' :: rest)).prepend '\\' = _
      rw [ih]
      rfl
    · by_cases hquote : c = '\''
      · subst hquote
        show (read (escape cs ++ '\'' :: rest)).prepend '\'' = _
        rw [ih]
        rfl
      · rw [escape_cons hbackslash hquote, List.cons_append, read_cons hbackslash hquote, ih]
        rfl

/-- Nothing else is read as these characters. -/
theorem eq_of_read {cs value rest : List Char} (h : read cs = .closed value rest) :
    cs = escape value ++ '\'' :: rest := by
  fun_induction read cs generalizing value with
  | case1 => cases h
  | case2 cs =>
    cases h
    rfl
  | case3 cs ih =>
    obtain ⟨v, hv, rfl⟩ := Reading.prepend_eq_closed h
    rw [ih hv]
    rfl
  | case4 cs ih =>
    obtain ⟨v, hv, rfl⟩ := Reading.prepend_eq_closed h
    rw [ih hv]
    rfl
  | case5 => cases h
  | case6 => cases h
  | case7 c cs hquote _ _ hstray hend ih =>
    -- the cases before this one take every text that starts with a backslash
    have hbackslash : c ≠ '\\' := by
      intro hc
      cases cs with
      | nil => exact hend hc rfl
      | cons d cs => exact hstray d cs hc rfl
    obtain ⟨v, hv, rfl⟩ := Reading.prepend_eq_closed h
    rw [escape_cons hbackslash hquote, ih hv]
    rfl

/-- **What is read is a value exactly if its escaped characters and a quote stand there.** -/
theorem read_eq_closed_iff {cs value rest : List Char} :
    read cs = .closed value rest ↔ cs = escape value ++ '\'' :: rest := by
  constructor
  · exact eq_of_read
  · rintro rfl
    exact read_escape value rest

/-! ### Two replacements -/

/-- Every occurrence of a character becomes some characters. -/
def replace (c : Char) (new cs : List Char) : List Char :=
  cs.flatMap fun x => if x = c then new else [x]

/-- The escaped characters come from doubling the backslashes and then writing one more of them
before every quote. -/
theorem escape_eq_replace (cs : List Char) :
    escape cs = replace '\'' ['\\', '\''] (replace '\\' ['\\', '\\'] cs) := by
  induction cs with
  | nil => rfl
  | cons c cs ih =>
    have hcons : replace '\\' ['\\', '\\'] (c :: cs) =
        (if c = '\\' then ['\\', '\\'] else [c]) ++ replace '\\' ['\\', '\\'] cs := rfl
    rw [hcons, replace, List.flatMap_append]
    change _ = _ ++ replace '\'' ['\\', '\''] (replace '\\' ['\\', '\\'] cs)
    rw [← ih, escape]
    by_cases hbackslash : c = '\\'
    · simp [hbackslash]
    · by_cases hquote : c = '\''
      · simp [hquote]
      · simp [hbackslash, hquote]

/-! ### Whole texts -/

/-- What a text says as a literal: it is opened by a quote, and the quote that closes it is its last
character. -/
def value? (text : String) : Option String :=
  match text.toList with
  | '\'' :: cs =>
    match read cs with
    | .closed value [] => some (String.ofList value)
    | _ => none
  | _ => none

/-- A text says a value exactly if it is the literal of the value. -/
theorem value?_eq_some_iff {text v : String} : value? text = some v ↔ text = literal v := by
  constructor
  · intro h
    unfold value? at h
    split at h
    case h_1 cs htext =>
      split at h
      case h_1 value hread =>
        obtain rfl := Option.some.inj h
        apply String.toList_inj.1
        rw [htext, read_eq_closed_iff.1 hread, literal, String.toList_ofList,
          String.toList_ofList]
        rfl
      case h_2 => cases h
    case h_2 => cases h
  · rintro rfl
    have hlist : (literal v).toList = '\'' :: (escape v.toList ++ ['\'']) := String.toList_ofList
    have hread : read (escape v.toList ++ ['\'']) = .closed v.toList [] := read_eq_closed_iff.2 rfl
    unfold value?
    rw [hlist]
    simp only [hread, String.ofList_toList]

/-- A literal says its value. -/
structure ReadsBack (v : String) : Prop where
  /-- Between its quotes stands the value after the two replacements. -/
  toList_eq : (literal v).toList =
    '\'' :: replace '\'' ['\\', '\''] (replace '\\' ['\\', '\\'] v.toList) ++ ['\'']
  /-- Behind the quote that opens it, the value is read, and the quote that closes it is the last
  character. -/
  read_tail : read (literal v).toList.tail = .closed v.toList []
  /-- Whatever stands behind the literal, it ends where it ends. -/
  read_tail_append : ∀ rest, read ((literal v).toList.tail ++ rest) = .closed v.toList rest
  /-- No other text says the value. -/
  value?_iff : ∀ text, value? text = some v ↔ text = literal v

/-- **Literals read back**: what is read from the literal of a value is the value, up to the last
character of the literal, no other text is read as this value, and so different values have
different literals. -/
theorem literal_reads_back : (∀ v, ReadsBack v) ∧ Function.Injective literal := by
  have htail : ∀ v, (literal v).toList.tail = escape v.toList ++ ['\''] := fun v => by
    rw [literal, String.toList_ofList]
    rfl
  refine ⟨fun v => ⟨?_, ?_, fun rest => ?_, fun text => value?_eq_some_iff⟩, fun v w h => ?_⟩
  · rw [literal, String.toList_ofList, escape_eq_replace]
  · rw [htail, read_eq_closed_iff]
  · rw [htail, List.append_assoc, read_eq_closed_iff]
    rfl
  · have hv : value? (literal v) = some v := value?_eq_some_iff.2 rfl
    have hw : value? (literal v) = some w := value?_eq_some_iff.2 h
    exact Option.some.inj (hv.symm.trans hw)

/-- Backslashes before a quote and at the end are told apart from the closing quote. -/
example : read "a\\\\\\'\\\\'; rest".toList = .closed "a\\'\\".toList "; rest".toList := by decide

end EntityRelation.Text.Quoted
