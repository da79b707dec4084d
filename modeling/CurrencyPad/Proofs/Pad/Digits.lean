import CurrencyPad.Proofs.Pad.Keys

/-!
# Typing a digit after an expression

A key takes any character that counts as a digit, in whatever script.  Numerals
are written with the ten digits `0` to `9` alone.  So a digit typed after an
expression belongs to its last operand if it is one of the ten, and any other
digit leaves a text that is no expression.
-/

namespace CurrencyPad

theorem Text.isBlank_eq_false_of_isDigit {c : Char}
    (digit : isDigit c = true) : isBlank c = false := by
  cases blank : isBlank c with
  | false =>
      rfl
  | true =>
      rw [isDigit_eq_false_of_isBlank blank] at digit
      cases digit

namespace Expression

theorem IsNumeral.append_digit {numeral : Text} {c : Char}
    (isNumeral : IsNumeral numeral) (digit : Text.isAsciiDigit c = true) :
    IsNumeral (numeral ++ [c]) := by
  have extended : ∀ {digits : Text},
      (∀ d ∈ digits, Text.isAsciiDigit d = true) →
        ∀ d ∈ digits ++ [c], Text.isAsciiDigit d = true := by
    intro digits all
    simpa [or_imp, forall_and, digit] using all
  cases isNumeral with
  | whole nonempty all =>
      exact .whole (by simp) (extended all)
  | point nonempty all places =>
      rw [List.append_assoc, List.cons_append]
      exact .point nonempty all (extended places)
  | bare nonempty places =>
      exact .bare (by simp) (extended places)

namespace Tree

/-- A tree with one more character at the end of its last operand. -/
def extend (c : Char) : Tree → Tree
  | .operand numeral => .operand (numeral ++ [c])
  | .negate inner => .negate (inner.extend c)
  | .binary operator left right => .binary operator left (right.extend c)

theorem print_extend (c : Char) (tree : Tree) :
    (tree.extend c).print = tree.print ++ [c] := by
  unfold print
  induction tree with
  | operand numeral =>
      simp [extend, tokens, Token.text]
  | negate inner inductionHypothesis =>
      simp [extend, tokens, inductionHypothesis]
  | binary operator left right _ inductionHypothesis =>
      simp [extend, tokens, inductionHypothesis]

variable {c : Char}

theorem IsProduct.extend {tree : Tree} (isProduct : tree.IsProduct)
    (digit : Text.isAsciiDigit c = true) : (tree.extend c).IsProduct := by
  cases isProduct with
  | operand isNumeral =>
      exact .operand (isNumeral.append_digit digit)
  | binary joins product isNumeral =>
      exact .binary joins product (isNumeral.append_digit digit)

theorem IsSum.extend {tree : Tree} (isSum : tree.IsSum)
    (digit : Text.isAsciiDigit c = true) : (tree.extend c).IsSum := by
  cases isSum with
  | product isProduct =>
      exact .product (isProduct.extend digit)
  | negate isProduct =>
      exact .negate (isProduct.extend digit)
  | binary adds isSum isProduct =>
      exact .binary adds isSum (isProduct.extend digit)

end Tree

/-- In the default locale every digit stands for itself, also one that no
numeral has. -/
theorem normalize_appendDigit (text : Text) (key : Digit) :
    normalize Locale.default (appendDigit text key) =
      normalize Locale.default text ++ [key.char] := by
  obtain ⟨c, digit⟩ := key
  have different : ∀ d, Text.isDigit d = false → c ≠ d := by
    rintro d noDigit rfl
    rw [digit] at noDigit
    cases noDigit
  have noOperator : Operator.ofChar? c = none := by
    simpa [Operator.isSpelling] using
      Operator.isSpelling_eq_false_of_isDigit digit
  have noComma : Locale.default.grouping ≠ some c := by
    intro grouping
    exact different ',' (by decide) (Option.some.inj grouping).symm
  have noPoint : c ≠ Locale.default.decimal := different '.' (by decide)
  have kept : normalChar Locale.default c = some c := by
    simp [normalChar, Text.isBlank_eq_false_of_isDigit digit, noComma,
      noPoint, noOperator]
  rw [appendDigit, normalize_append]
  simp [normalize, kept]

/-- A digit in an expression is one of the ten. -/
theorem Row.isAsciiDigit_of_mem_write {row : Row} (valid : row.Valid)
    {c : Char} (member : c ∈ row.write) (digit : Text.isDigit c = true) :
    Text.isAsciiDigit c = true := by
  have each := @Row.forall_mem_write row valid
    (fun d => Text.isDigit d = true → Text.isAsciiDigit d = true)
  apply each
  · exact fun d ascii _ => ascii
  · decide
  · rintro (_ | _ | _ | _) <;> decide
  · exact member
  · exact digit

/-- After an expression of the default locale one of the ten digits goes on with
the last operand, and a text with any other digit is not read. -/
theorem read_appendDigit_iff {text : Text} {tree : Tree}
    (isRead : read Locale.default text = .ok tree) (key : Digit) :
    (Text.isAsciiDigit key.char = true →
        read Locale.default (appendDigit text key) =
          .ok (tree.extend key.char)) ∧
      ((∃ other, read Locale.default (appendDigit text key) = .ok other) ↔
        Text.isAsciiDigit key.char = true) := by
  have extended : Text.isAsciiDigit key.char = true →
      read Locale.default (appendDigit text key) =
        .ok (tree.extend key.char) := by
    intro digit
    obtain ⟨isSum, printed⟩ := readNormal_eq_ok_iff.mp isRead
    refine readNormal_eq_ok_iff.mpr ⟨isSum.extend digit, ?_⟩
    rw [tree.print_extend, printed, normalize_appendDigit]
  refine ⟨extended, ?_, fun digit => ⟨_, extended digit⟩⟩
  -- A text that is read is written by a row, and a row has no other digits.
  rintro ⟨other, otherIsRead⟩
  obtain ⟨row, valid, written, _⟩ := readNormal_eq_ok_iff_row.mp otherIsRead
  rw [normalize_appendDigit] at written
  exact Row.isAsciiDigit_of_mem_write valid (by simp [written]) key.isDigit

/-- A digit after a division goes on with the divisor. -/
theorem read_appendDigit_divisor :
    let tree : Tree :=
      .binary .divide (.operand "8".toList) (.operand "2.".toList)
    read Locale.default "8÷2.".toList = .ok tree ∧
      read Locale.default "8÷2.5".toList = .ok (tree.extend '5') ∧
      ¬ ∃ other, read Locale.default "8÷2.٣".toList = .ok other := by
  intro tree
  have isRead : read Locale.default "8÷2.".toList = .ok tree := by
    rfl
  have five := read_appendDigit_iff isRead ⟨'5', by decide⟩
  have three := read_appendDigit_iff isRead ⟨'٣', by decide⟩
  refine ⟨isRead, five.1 (by decide), ?_⟩
  intro readable
  have ascii := three.2.mp readable
  revert ascii
  decide

/-- A superscript two is typed as a digit, and what stands then after an
expression is none. -/
theorem exists_digit_not_read :
    ∃ key : Digit, Digit.ofText ['²'] = .ok key ∧
      (∃ tree, read Locale.default "5".toList = .ok tree) ∧
      ¬ ∃ tree, read Locale.default (appendDigit "5".toList key) =
        .ok tree := by
  refine ⟨⟨'²', by decide⟩, rfl, ⟨.operand "5".toList, rfl⟩, ?_⟩
  rintro ⟨tree, isRead⟩
  have failed : read Locale.default "5²".toList =
      .error (.strayCharacter '²' 2) := by
    rfl
  rw [show appendDigit "5".toList _ = "5²".toList from rfl, failed] at isRead
  cases isRead

end Expression

end CurrencyPad
