import CurrencyPad.Pad.Display
import CurrencyPad.Proofs.Binary64.Nearest
import CurrencyPad.Proofs.Expression.Evaluation
import CurrencyPad.Proofs.Money.Evaluation

/-!
# The result line

The line under the expression is left out where it would repeat the expression:
nothing is entered, or one number without any operator but a sign.  That an
expression is such a number is told from its structure and from its value, once
more; it can be told from the characters of its normal form alone.
-/

namespace CurrencyPad

namespace Expression

/-- A numeral, perhaps after a minus sign. -/
def IsSingle (normal : Text) : Prop :=
  ∃ signed numeral, IsNumeral numeral ∧
    normal = Text.withSign signed numeral

namespace Row

theorem write_of_rest_eq_nil {row : Row} (single : row.rest = []) :
    row.write = Text.withSign row.signed row.first := by
  simp [write, single, stepsText]

/-- A row has one tree, and it is bare if the row is one numeral. -/
theorem isBareNumber_tree_iff (row : Row) :
    row.tree.isBareNumber = true ↔ row.rest = [] := by
  constructor
  · intro bare
    -- The tokens of a bare tree are few, and they are those of the row.
    have same := row.tokens_tree
    unfold tokens at same
    cases tree : row.tree with
    | operand numeral =>
        cases signed : row.signed <;>
          simp_all [Tree.tokens]
    | negate inner =>
        cases inner with
        | operand numeral =>
            cases signed : row.signed <;>
              simp_all [Tree.tokens]
        | _ =>
            simp [tree, Tree.isBareNumber] at bare
    | binary operator left right =>
        simp [tree, Tree.isBareNumber] at bare
  · intro single
    unfold tree
    rw [single]
    cases row.signed <;> rfl

/-- A row is one numeral if what it writes is one. -/
theorem isSingle_write_iff {row : Row} (valid : row.Valid) :
    IsSingle row.write ↔ row.rest = [] := by
  constructor
  · rintro ⟨signed, numeral, isNumeral, written⟩
    -- The numeral is a row too, and a text has the tokens of one row only.
    let single : Row := ⟨signed, numeral, []⟩
    have singleValid : single.Valid :=
      (valid_iff single).mpr ⟨isNumeral, nofun⟩
    have singleWritten : single.write = row.write := by
      rw [write_of_rest_eq_nil rfl, written]
    have ofRow := (row.tokens_scan_iff _).mpr ⟨valid, rfl⟩
    have ofSingle :=
      (single.tokens_scan_iff _).mpr ⟨singleValid, singleWritten⟩
    rw [ofRow] at ofSingle
    have same : row.tokens = single.tokens :=
      List.map_injective_iff.mpr (Option.some_injective Token) ofSingle
    unfold tokens at same
    cases rowSigned : row.signed <;> cases signed <;>
      simp_all [single]
  · intro single
    exact ⟨row.signed, row.first, ((valid_iff row).mp valid).1,
      write_of_rest_eq_nil single⟩

/-- Between the numerals of a row stand its operators. -/
theorem rest_eq_nil_iff_no_operator {row : Row} (valid : row.Valid) :
    row.rest = [] ↔
      ∀ c ∈ row.write.tail, Token.operatorOf? c = none := by
  have first : IsNumeral row.first := ((valid_iff row).mp valid).1
  constructor
  · intro single
    have noOperator : ∀ c ∈ row.first, Token.operatorOf? c = none := by
      refine first.forall_mem (fun c digit => ?_) rfl
      simpa using Text.of_isAsciiDigit
        (fun d => (Token.operatorOf? d).isNone) (by decide) digit
    intro c member
    rw [write_of_rest_eq_nil single] at member
    cases signed : row.signed with
    | false =>
        rw [signed] at member
        exact noOperator c (List.mem_of_mem_tail member)
    | true =>
        rw [signed] at member
        exact noOperator c member
  · intro noOperator
    cases steps : row.rest with
    | nil =>
        rfl
    | cons step others =>
        obtain ⟨head, tail, isHead⟩ :=
          List.exists_cons_of_ne_nil first.ne_nil
        have member : step.1.canonical ∈ row.write.tail := by
          cases signed : row.signed <;>
            simp [write, Text.withSign, signed, steps, isHead, stepsText]
        have none := noOperator _ member
        rw [operatorOf?_eq_some_iff.mpr rfl] at none
        cases none

end Row

variable {locale : Locale} {text : Text}

theorem value?_eq_some_iff {x : Binary64.Finite} :
    value? locale text = some x ↔
      ∃ (tree : Tree) (y : Binary64.Finite),
        read locale text = .ok tree ∧ tree.value? = some y.value ∧
          x = y.withoutNegativeZero := by
  unfold value? evaluate
  cases read locale text with
  | error error =>
      simp [Except.toOption]
  | ok tree =>
      cases value : tree.value? with
      | none =>
          simp [value, Except.toOption]
      | some y =>
          by_cases finite : y.isFinite = true
          · have found : Binary64.Finite.ofFloat? y = some ⟨y, finite⟩ :=
              dif_pos finite
            simp only [value, found, Except.toOption, Option.some.injEq]
            constructor
            · rintro rfl
              exact ⟨tree, ⟨y, finite⟩, rfl, value, rfl⟩
            · rintro ⟨_, ⟨z, _⟩, same, isValue, rfl⟩
              cases same
              cases value.symm.trans isValue
              rfl
          · have missing : Binary64.Finite.ofFloat? y = none :=
              dif_neg finite
            simp only [value, missing, Except.toOption, reduceCtorEq,
              false_iff]
            rintro ⟨_, ⟨z, zFinite⟩, same, isValue, _⟩
            cases same
            cases value.symm.trans isValue
            exact finite zFinite

/-- The result of a row is obvious if it has one numeral: its value is then told
from itself by nothing but the sign of a zero. -/
theorem exists_row_of_value? {x : Binary64.Finite}
    (valued : value? locale text = some x) :
    ∃ row : Row, row.Valid ∧ row.write = normalize locale text ∧
      (isObvious locale text (some x.value) = true ↔ row.rest = []) := by
  obtain ⟨tree, y, isRead, value, rfl⟩ := value?_eq_some_iff.mp valued
  obtain ⟨row, valid, written, rfl⟩ := readNormal_eq_ok_iff_row.mp isRead
  refine ⟨row, valid, written, ?_⟩
  have plain : (y.withoutNegativeZero.value == y.value) = true :=
    y.withoutNegativeZero_beq
  rw [← row.isBareNumber_tree_iff]
  simp [isObvious, isRead, value, BEq.symm plain]

theorem isObvious_value?_iff (locale : Locale) (text : Text) :
    isObvious locale text ((value? locale text).map (·.value)) = true ↔
      (value? locale text).isSome = true ∧
        IsSingle (normalize locale text) := by
  cases valued : value? locale text with
  | none =>
      simp [isObvious]
  | some x =>
      obtain ⟨row, valid, written, obvious⟩ := exists_row_of_value? valued
      rw [Option.map_some, obvious, ← written, Row.isSingle_write_iff valid]
      simp

/-- The result is obvious for the expressions that have a value and no operator
but a sign. -/
theorem isObvious_iff_no_operator (locale : Locale) (text : Text) :
    isObvious locale text ((value? locale text).map (·.value)) = true ↔
      (value? locale text).isSome = true ∧
        ∀ c ∈ (normalize locale text).tail, Token.operatorOf? c = none := by
  cases valued : value? locale text with
  | none =>
      simp [isObvious]
  | some x =>
      obtain ⟨row, valid, written, obvious⟩ := exists_row_of_value? valued
      rw [Option.map_some, obvious, ← written,
        Row.rest_eq_nil_iff_no_operator valid]
      simp

end Expression

namespace Display

open Expression

variable (config : Config) (sources : DisplaySources)

/-- No line is shown without an error where the expression is blank or a single
numeral with a value. -/
theorem result_eq_none_iff :
    (derive config sources).result = none ↔
      ((value? config.locale sources.expression).isSome = true ∨
          sources.showError = false) ∧
        (Text.isBlankText sources.expression = true ∨
          (value? config.locale sources.expression).isSome = true ∧
            IsSingle (normalize config.locale sources.expression)) := by
  have obvious := isObvious_value?_iff config.locale sources.expression
  rw [derive, resultLine, ← obvious]
  cases value? config.locale sources.expression <;>
    cases sources.showError <;> simp [or_iff_not_imp_left]

theorem result_eq_some {line : ResultLine}
    (shown : (derive config sources).result = some line) :
    line =
      ⟨resultText config (value? config.locale sources.expression),
        (value? config.locale sources.expression).isNone &&
          sources.showError⟩ := by
  simp only [derive, resultLine] at shown
  split at shown
  · cases shown
  · exact (Option.some.inj shown).symm

theorem resultText_some (x : Binary64.Finite) :
    Number.resultText config.locale config.resultDecimals x.value =
      .ok (resultText config (some x)) :=
  Number.resultText_eq_ok
    (config.resultDecimalsBound.trans (by decide)) x

/-- When the pad shows a result line and what stands in it, for any expression,
currency, rates and base currency, whether errors are shown or not.  The result
of an expression is obvious exactly if the expression has a value and no operator
but a sign. -/
theorem result_spec :
    ((derive config sources).result = none ↔
        ((value? config.locale sources.expression).isSome = true ∨
            sources.showError = false) ∧
          (Text.isBlankText sources.expression = true ∨
            (value? config.locale sources.expression).isSome = true ∧
              IsSingle (normalize config.locale sources.expression))) ∧
      (∀ line, (derive config sources).result = some line →
        (∀ x, value? config.locale sources.expression = some x →
            Number.resultText config.locale config.resultDecimals x.value =
              .ok line.text) ∧
          (value? config.locale sources.expression = none →
            line.text = "Error".toList) ∧
          (line.isError = true ↔
            value? config.locale sources.expression = none ∧
              sources.showError = true)) ∧
      (isObvious config.locale sources.expression
            ((value? config.locale sources.expression).map (·.value)) =
          true ↔
        (value? config.locale sources.expression).isSome = true ∧
          ∀ c ∈ (normalize config.locale sources.expression).tail,
            Token.operatorOf? c = none) := by
  refine ⟨result_eq_none_iff config sources, ?_,
    isObvious_iff_no_operator config.locale sources.expression⟩
  intro line shown
  rw [result_eq_some config sources shown]
  refine ⟨?_, ?_, ?_⟩
  · intro x valued
    rw [valued]
    exact resultText_some config x
  · intro valueless
    rw [valueless]
    rfl
  · simp

end Display

end CurrencyPad
