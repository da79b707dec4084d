import CurrencyPad.Text.Blank
import CurrencyPad.Text.Bytes
import Mathlib.Data.List.Basic

/-!
# Plain texts

A plain character is a character of ASCII that is no control.  Plain texts hold
no end of a line, and texts of ASCII are kept as they are in bytes.
-/

namespace CurrencyPad.Text

def isPlain (c : Char) : Bool :=
  ' ' ≤ c && c ≤ '~'

theorem toNat_of_isPlain {c : Char} (plain : isPlain c = true) :
    0x20 ≤ c.toNat ∧ c.toNat ≤ 0x7E := by
  rw [isPlain, Bool.and_eq_true, decide_eq_true_eq, decide_eq_true_eq]
    at plain
  exact ⟨plain.1, plain.2⟩

theorem isLineBreak_of_isPlain {c : Char} (plain : isPlain c = true) :
    isLineBreak c = false := by
  have bounds := toNat_of_isPlain plain
  simp only [isLineBreak, inRanges, lineBreakRanges, inRange, List.any_cons,
    List.any_nil, Bool.or_eq_false_iff, Bool.and_eq_false_iff,
    decide_eq_false_iff_not, and_true]
  omega

/-- A text that neither starts nor ends with a blank is not stripped. -/
theorem strip_eq_self {text : Text}
    (first : ∀ c ∈ text.head?, isBlank c = false)
    (last : ∀ c ∈ text.getLast?, isBlank c = false) : strip text = text := by
  have keeps : ∀ {row : Text}, (∀ c ∈ row.head?, isBlank c = false) →
      row.dropWhile isBlank = row := by
    intro row visible
    cases row with
    | nil =>
        rfl
    | cons c rest =>
        exact List.dropWhile_cons_of_neg (by simp [visible c rfl])
  have backwards : ∀ c ∈ text.reverse.head?, isBlank c = false := by
    rw [List.head?_reverse]
    exact last
  rw [strip, dropTrailing, keeps first, keeps backwards, List.reverse_reverse]

private theorem utf8EncodeChar_ascii {c : Char} (ascii : c.toNat < 0x80) :
    String.utf8EncodeChar c = [c.toUInt8] := by
  refine String.utf8EncodeChar_eq_singleton ?_
  rw [Char.utf8Size_eq_one_iff, UInt32.le_iff_toNat_le]
  exact Nat.le_of_lt_succ ascii

/-- A text of ASCII takes a byte for each character. -/
theorem toBytes_ascii {text : Text} (ascii : ∀ c ∈ text, c.toNat < 0x80) :
    toBytes text = text.map Char.toUInt8 := by
  induction text with
  | nil =>
      rfl
  | cons c rest inductionHypothesis =>
      rw [List.forall_mem_cons] at ascii
      rw [toBytes, List.flatMap_cons, utf8EncodeChar_ascii ascii.1,
        ← toBytes, inductionHypothesis ascii.2]
      rfl

private theorem leadingChar_ascii {c : Char} (ascii : c.toNat < 0x80)
    (rest : List UInt8) : leadingChar c.toUInt8 rest = (c, 0) := by
  have code : c.toUInt8.toNat = c.toNat :=
    Nat.mod_eq_of_lt (Nat.lt_trans ascii (by decide))
  have small : c.toUInt8 < 0x80 := by
    rw [UInt8.lt_iff_toNat_lt, code]
    exact ascii
  rw [leadingChar.eq_def, if_pos small, code, Char.ofNat_toNat]

/-- A text of ASCII is read from its bytes. -/
theorem ofBytes_toBytes {text : Text} (ascii : ∀ c ∈ text, c.toNat < 0x80) :
    ofBytes (toBytes text) = text := by
  rw [toBytes_ascii ascii, ofBytes]
  induction text with
  | nil =>
      rfl
  | cons c rest inductionHypothesis =>
      rw [List.forall_mem_cons] at ascii
      rw [List.map_cons, ofBytesAfter, leadingChar_ascii ascii.1]
      exact congrArg (c :: ·) (inductionHypothesis ascii.2)

/-- Plain characters up to a line feed go on with the line that is begun. -/
theorem linesFrom_append {row : Text} (plain : ∀ c ∈ row, isPlain c = true)
    (start rest : Text) :
    linesFrom start (row ++ '\n' :: rest) =
      (start.reverse ++ row) :: linesFrom [] rest := by
  induction row generalizing start with
  | nil =>
      rw [List.nil_append, List.append_nil]
      cases start <;> rfl
  | cons c others inductionHypothesis =>
      rw [List.forall_mem_cons] at plain
      have goesOn := isLineBreak_of_isPlain plain.1
      have noReturn : c ≠ '\r' := by
        rintro rfl
        exact absurd goesOn (by decide)
      rw [List.cons_append, linesFrom.eq_4]
      · rw [goesOn, if_neg Bool.false_ne_true, inductionHypothesis plain.2,
          List.reverse_cons, List.append_assoc, List.singleton_append]
      · rintro after rfl
        exact absurd rfl noReturn

/-- Plain rows that each end with a line feed are the lines of their text. -/
theorem lines_flatMap {rows : List Text}
    (plain : ∀ row ∈ rows, ∀ c ∈ row, isPlain c = true) :
    lines (rows.flatMap (· ++ ['\n'])) = rows := by
  rw [lines]
  induction rows with
  | nil =>
      rfl
  | cons row others inductionHypothesis =>
      rw [List.forall_mem_cons] at plain
      rw [List.flatMap_cons, List.append_assoc, List.singleton_append,
        linesFrom_append plain.1, inductionHypothesis plain.2]
      rfl

end CurrencyPad.Text
