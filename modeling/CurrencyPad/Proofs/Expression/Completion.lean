import CurrencyPad.Proofs.Expression.Typing

/-!
# Complete lines

With the ten digits and with separators that are not mistaken for anything else,
a typed line is read as soon as its last operand has begun.  A line without a
last operand is empty or ends in an operator.
-/

namespace CurrencyPad

/-- Separators that are not mistaken for digits or operators as they are
typed, and a decimal separator that is not passed over. -/
structure Locale.IsDistinct (locale : Locale) : Prop where
  visible : Text.isBlank locale.decimal = false
  digits : ∀ c ∈ locale.grouping, Text.isAsciiDigit c = false
  operators : ∀ operator : Operator, locale.grouping ≠ some operator.glyph
  decimal : ∀ operator : Operator, operator.glyph ≠ locale.decimal

namespace Expression

/-- One of the ten digits. -/
def IsAscii (c : Char) : Prop :=
  Text.isAsciiDigit c = true

variable {locale : Locale}

theorem normalize_append (locale : Locale) (text more : Text) :
    normalize locale (text ++ more) =
      normalize locale text ++ normalize locale more :=
  List.filterMap_append

private theorem normalize_digits (distinct : locale.IsDistinct)
    {digits : Text} (all : ∀ c ∈ digits, Text.isAsciiDigit c = true) :
    normalize locale digits = digits := by
  refine normalize_of_forall fun c member =>
    normalChar_digit (all c member) ?_
  intro grouping
  have noDigit := distinct.digits c grouping
  rw [all c member] at noDigit
  cases noDigit

theorem normalize_glyph (distinct : locale.IsDistinct)
    (operator : Operator) :
    normalize locale [operator.glyph] = [operator.canonical] := by
  have normal := normalChar_operator operator.ofChar?_glyph
    (distinct.operators operator) (distinct.decimal operator)
  simp [normalize, normal]

/-- An operand is all digits, or digits on both sides of the separator, of which
those before it are not missing. -/
private theorem IsOperand.parts {separator : Char} {text : Text}
    (operand : IsOperand IsAscii separator text)
    (noDigit : Text.isAsciiDigit separator = false) :
    ∃ whole, whole ≠ [] ∧ (∀ c ∈ whole, Text.isAsciiDigit c = true) ∧
      (text = whole ∨
        ∃ fraction, (∀ c ∈ fraction, Text.isAsciiDigit c = true) ∧
          text = whole ++ separator :: fraction) := by
  have digits : ∀ part : Text, (∀ c ∈ part, c ∈ text) →
      separator ∉ part → ∀ c ∈ part, Text.isAsciiDigit c = true := by
    intro part within absent c member
    rcases operand.characters c (within c member) with digit | rfl
    · exact digit
    · exact absurd member absent
  by_cases present : separator ∈ text
  · obtain ⟨whole, fraction, rfl⟩ := List.append_of_mem present
    have once := operand.once
    simp only [List.count_append, List.count_cons_self] at once
    have absentBefore : separator ∉ whole :=
      List.count_eq_zero.mp (by omega)
    have absentAfter : separator ∉ fraction :=
      List.count_eq_zero.mp (by omega)
    refine ⟨whole, ?_, ?_, .inr ⟨fraction, ?_, rfl⟩⟩
    · rintro rfl
      obtain ⟨c, first, digit⟩ := operand.starts
      cases first
      rw [IsAscii, noDigit] at digit
      cases digit
    · exact digits whole (fun c member => List.mem_append_left _ member)
        absentBefore
    · exact digits fraction
        (fun c member =>
          List.mem_append_right _ (List.mem_cons_of_mem _ member))
        absentAfter
  · exact ⟨text, operand.ne_nil,
      digits text (fun c member => member) present, .inl rfl⟩

/-- The normal form of an operand is a numeral. -/
theorem IsOperand.isNumeral_normalize (distinct : locale.IsDistinct)
    {text : Text} (operand : IsOperand IsAscii locale.decimal text) :
    IsNumeral (normalize locale text) := by
  obtain ⟨whole, nonempty, digits, rfl | ⟨fraction, places, rfl⟩⟩ :=
    operand.parts locale.isAsciiDigit_decimal
  · rw [normalize_digits distinct digits]
    exact .whole nonempty digits
  · have point : normalize locale (locale.decimal :: fraction) =
        '.' :: fraction := by
      have normal := normalize_digits distinct places
      unfold normalize at normal ⊢
      rw [List.filterMap_cons_some
        (normalChar_decimal distinct.visible), normal]
    rw [normalize_append, normalize_digits distinct digits, point]
    exact .point nonempty digits places

/-- Numerals, each with the operator after it, and a last one make up a numeral
and others, each with the operator before it. -/
private theorem exists_steps (done : List (Text × Operator)) (last : Text)
    (valid : ∀ step ∈ done, IsNumeral step.1) (isNumeral : IsNumeral last) :
    ∃ first rest, IsNumeral first ∧ (∀ step ∈ rest, IsNumeral step.2) ∧
      first ++ stepsText rest =
        (done.flatMap fun step => step.1 ++ [step.2.canonical]) ++ last := by
  induction done with
  | nil =>
      exact ⟨last, [], isNumeral, nofun, List.append_nil last⟩
  | cons step steps inductionHypothesis =>
      rw [List.forall_mem_cons] at valid
      obtain ⟨first, rest, firstIsNumeral, restValid, same⟩ :=
        inductionHypothesis valid.2
      refine ⟨step.1, (step.2, first) :: rest, valid.1, ?_, ?_⟩
      · exact List.forall_mem_cons.mpr ⟨firstIsNumeral, restValid⟩
      · have split : stepsText ((step.2, first) :: rest) =
            step.2.canonical :: (first ++ stepsText rest) := rfl
        rw [split, same]
        simp

private theorem normalize_doneText (distinct : locale.IsDistinct)
    (done : List (Text × Operator)) :
    normalize locale (doneText done) =
      (done.map fun step => (normalize locale step.1, step.2)).flatMap
        fun step => step.1 ++ [step.2.canonical] := by
  induction done with
  | nil =>
      rfl
  | cons step rest inductionHypothesis =>
      have split : doneText (step :: rest) =
          step.1 ++ ([step.2.glyph] ++ doneText rest) := by
        simp [doneText]
      rw [split, normalize_append, normalize_append,
        normalize_glyph distinct, inductionHypothesis]
      simp

theorem normalize_withSign (distinct : locale.IsDistinct)
    (signed : Bool) (text : Text) :
    normalize locale (Text.withSign signed text) =
      Text.withSign signed (normalize locale text) := by
  cases signed with
  | false =>
      rfl
  | true =>
      have sign := normalize_append locale [Operator.minus.glyph] text
      rw [normalize_glyph distinct] at sign
      exact sign

namespace Line

/-- A line with a last operand is a row in its normal form. -/
theorem exists_row (distinct : locale.IsDistinct) {line : Line}
    (valid : line.Valid IsAscii locale.decimal)
    (operand : IsOperand IsAscii locale.decimal line.last) :
    ∃ row : Row, row.Valid ∧ row.write = normalize locale line.write := by
  have validDone :
      ∀ step ∈ line.done.map
          (fun step => (normalize locale step.1, step.2)),
        IsNumeral step.1 := by
    intro step member
    obtain ⟨typed, typedMember, rfl⟩ := List.mem_map.mp member
    exact (valid.done typed typedMember).isNumeral_normalize distinct
  obtain ⟨first, rest, firstIsNumeral, restValid, same⟩ :=
    exists_steps _ _ validDone (operand.isNumeral_normalize distinct)
  refine ⟨⟨line.signed, first, rest⟩,
    (Row.valid_iff _).mpr ⟨firstIsNumeral, restValid⟩, ?_⟩
  rw [Row.write, same, Line.write, Line.front, normalize_append,
    normalize_withSign distinct, normalize_doneText distinct,
    Text.withSign_append]

end Line

theorem IsNumeral.not_isSpelling {numeral : Text}
    (isNumeral : IsNumeral numeral) :
    ∀ c ∈ numeral, Operator.isSpelling c = false := by
  exact isNumeral.forall_mem
    (fun c digit => Operator.isSpelling_eq_false_of_isDigit
      (Text.isDigit_of_isAsciiDigit digit))
    (by decide)

/-- A row does not end in an operator. -/
theorem Row.getLast?_write {row : Row} (valid : row.Valid) :
    ∃ c, row.write.getLast? = some c ∧ Operator.isSpelling c = false := by
  obtain ⟨before, numeral, isNumeral, same⟩ :
      ∃ before numeral, IsNumeral numeral ∧
        row.write = before ++ numeral := by
    obtain ⟨first, rest⟩ := (Row.valid_iff row).mp valid
    obtain ⟨signed, numeral, steps⟩ := row
    rcases List.eq_nil_or_concat steps with rfl | ⟨init, step, rfl⟩
    · refine ⟨Text.withSign signed [], numeral, first, ?_⟩
      rw [← Text.withSign_append]
      simp [write, stepsText]
    · refine ⟨Text.withSign signed
          (numeral ++ stepsText init ++ [step.1.canonical]), step.2,
        rest step (by simp), ?_⟩
      rw [← Text.withSign_append]
      simp [write, stepsText]
  have ends := List.getLast?_eq_some_getLast isNumeral.ne_nil
  refine ⟨numeral.getLast isNumeral.ne_nil, ?_,
    isNumeral.not_isSpelling _ (List.getLast_mem _)⟩
  rw [same, List.getLast?_append, ends]
  rfl

private theorem exists_read_eq_error_iff {text : Text} :
    (∃ error, read locale text = .error error) ↔
      ∀ row : Row, row.Valid → row.write ≠ normalize locale text := by
  constructor
  · rintro ⟨error, failed⟩ row valid written
    have isRead : read locale text = .ok row.tree :=
      readNormal_eq_ok_iff_row.mpr ⟨row, valid, written, rfl⟩
    rw [isRead] at failed
    cases failed
  · intro noRow
    cases result : read locale text with
    | error error =>
        exact ⟨error, rfl⟩
    | ok tree =>
        obtain ⟨row, valid, written, _⟩ :=
          readNormal_eq_ok_iff_row.mp result
        exact absurd written (noRow row valid)

private theorem Line.write_ne_of_last_eq_nil
    (distinct : locale.IsDistinct) {line : Line} (empty : line.last = [])
    {row : Row} (valid : row.Valid) :
    row.write ≠ normalize locale line.write := by
  intro written
  obtain ⟨c, isLast, noOperator⟩ := Row.getLast?_write valid
  rw [written] at isLast
  rcases Line.write_of_last_eq_nil empty with
    nothing | ⟨before, operator, shape⟩
  · rw [nothing] at isLast
    cases isLast
  · rw [shape, normalize_append, normalize_glyph distinct,
      List.getLast?_concat] at isLast
    rw [← Option.some.inj isLast] at noOperator
    cases operator <;> cases noOperator

/-- A typed line cannot be read exactly if it is empty or ends in an
operator. -/
theorem IsTyped.read_eq_error_iff (distinct : locale.IsDistinct)
    (alphabet : Alphabet IsAscii locale.decimal) {text : Text}
    (typed : IsTyped IsAscii locale.decimal text) :
    (∃ error, read locale text = .error error) ↔
      text = [] ∨
        ∃ c, text.getLast? = some c ∧ Operator.isSpelling c = true := by
  obtain ⟨line, valid, rfl⟩ := typed
  rw [exists_read_eq_error_iff]
  rcases valid.last with empty | operand
  · refine iff_of_true
      (fun row => Line.write_ne_of_last_eq_nil distinct empty) ?_
    rcases Line.write_of_last_eq_nil empty with
      nothing | ⟨before, operator, shape⟩
    · exact .inl nothing
    · right
      rw [shape]
      exact ⟨operator.glyph, List.getLast?_concat,
        operator.isSpelling_glyph⟩
  · have ends : line.write.getLast? =
        some (line.last.getLast operand.ne_nil) := by
      rw [Line.write, List.getLast?_append,
        List.getLast?_eq_some_getLast operand.ne_nil]
      rfl
    refine iff_of_false ?_ ?_
    · intro noRow
      obtain ⟨row, rowValid, written⟩ :=
        line.exists_row distinct valid operand
      exact noRow row rowValid written
    · rintro (nothing | ⟨c, isLast, isOperator⟩)
      · rw [nothing] at ends
        cases ends
      · rw [ends] at isLast
        rw [← Option.some.inj isLast, operand.not_isSpelling alphabet _
          (List.getLast_mem _)] at isOperator
        cases isOperator

end Expression

end CurrencyPad
