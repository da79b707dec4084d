import CurrencyPad.Text.Blank
import CurrencyPad.Text.Bytes
import Mathlib.Data.List.Basic

/-!
# Lines of bytes

A line feed ends a line whatever bytes stand around it: what comes before it is
read without a look behind it, even where a character is cut short.  So parts that
end with line feeds are read one by one.
-/

namespace CurrencyPad.Text

/-- A character is read from the bytes before a line feed alone. -/
theorem leadingChar_append (first : UInt8) (bytes rest : List UInt8) :
    leadingChar first (bytes ++ 10 :: rest) = leadingChar first bytes := by
  have noContinuation : isContinuation 10 = false := by decide
  have noSecond : isSecond first 10 = false := by
    rw [isSecond, noContinuation, Bool.false_and]
  unfold leadingChar
  rcases bytes with _ | ⟨a, _ | ⟨b, _ | ⟨c, more⟩⟩⟩ <;>
    rcases rest with _ | ⟨d, _ | ⟨e, others⟩⟩ <;>
    simp [noContinuation, noSecond] <;>
    grind

theorem leadingChar_le (first : UInt8) (bytes : List UInt8) :
    (leadingChar first bytes).2 ≤ bytes.length := by
  unfold leadingChar
  rcases bytes with _ | ⟨a, _ | ⟨b, _ | ⟨c, more⟩⟩⟩ <;> grind

theorem ofBytesAfter_append {used : Nat} {bytes : List UInt8}
    (enough : used ≤ bytes.length) (rest : List UInt8) :
    ofBytesAfter used (bytes ++ 10 :: rest) =
      ofBytesAfter used bytes ++ '\n' :: ofBytes rest := by
  induction bytes generalizing used with
  | nil =>
      obtain rfl := Nat.le_zero.mp enough
      rfl
  | cons byte others inductionHypothesis =>
      cases used with
      | succ used =>
          exact inductionHypothesis (Nat.le_of_succ_le_succ enough)
      | zero =>
          have next := inductionHypothesis (leadingChar_le byte others)
          rw [List.cons_append, ofBytesAfter, ofBytesAfter,
            leadingChar_append]
          exact congrArg ((leadingChar byte others).1 :: ·) next

/-- Bytes are read apart from those behind a line feed. -/
theorem ofBytes_append (bytes rest : List UInt8) :
    ofBytes (bytes ++ 10 :: rest) = ofBytes bytes ++ '\n' :: ofBytes rest :=
  ofBytesAfter_append (Nat.zero_le _) rest

/-- A line feed ends the line that is begun. -/
theorem linesFrom_feed (start rest : Text) :
    linesFrom start ('\n' :: rest) = start.reverse :: linesFrom [] rest := by
  cases start <;> rfl

/-- A carriage return and a line feed end a line together. -/
theorem linesFrom_pair (start rest : Text) :
    linesFrom start ('\r' :: '\n' :: rest) =
      start.reverse :: linesFrom [] rest := by
  cases start <;> rfl

/-- Any other character is looked at alone. -/
theorem linesFrom_cons {c : Char} {others : Text}
    (single : ∀ more, c = '\r' → others ≠ '\n' :: more) (start : Text) :
    linesFrom start (c :: others) =
      if isLineBreak c then start.reverse :: linesFrom [] others
      else linesFrom (c :: start) others :=
  linesFrom.eq_4 start c others single

/-- What stands behind a line feed is cut into lines on its own. -/
theorem linesFrom_append_feed (start text rest : Text) :
    linesFrom start (text ++ '\n' :: rest) =
      linesFrom start (text ++ ['\n']) ++ linesFrom [] rest := by
  fun_induction linesFrom start text with
  | case1 | case2 start =>
      rw [List.nil_append, List.nil_append, linesFrom_feed, linesFrom_feed]
      rfl
  | case3 start others inductionHypothesis =>
      simp only [List.cons_append]
      rw [linesFrom_pair, linesFrom_pair, inductionHypothesis]
      rfl
  | case4 start c others single isBreak inductionHypothesis =>
      by_cases paired : c = '\r' ∧ others = []
      -- The carriage return makes a pair with the line feed.
      · obtain ⟨rfl, rfl⟩ := paired
        simp only [List.cons_append, List.nil_append]
        rw [linesFrom_pair, linesFrom_pair]
        rfl
      · have apart : ∀ behind more, c = '\r' →
            others ++ '\n' :: behind ≠ '\n' :: more := by
          intro behind more isReturn same
          cases others with
          | nil =>
              exact paired ⟨isReturn, rfl⟩
          | cons next others =>
              rw [(List.cons.inj same).1] at single
              exact single others isReturn rfl
        rw [List.cons_append, List.cons_append, linesFrom_cons (apart rest),
          linesFrom_cons (apart []), if_pos isBreak, if_pos isBreak,
          inductionHypothesis]
        rfl
  | case5 start c others single goesOn inductionHypothesis =>
      have noReturn : c ≠ '\r' := by
        rintro rfl
        exact goesOn rfl
      rw [List.cons_append, List.cons_append,
        linesFrom_cons fun _ isReturn => absurd isReturn noReturn,
        linesFrom_cons fun _ isReturn => absurd isReturn noReturn,
        if_neg goesOn, if_neg goesOn, inductionHypothesis]

end CurrencyPad.Text
