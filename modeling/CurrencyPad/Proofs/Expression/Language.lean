import CurrencyPad.Proofs.Expression.Structure
import Mathlib.Tactic.IntervalCases

/-!
# The language of expressions

An expression is read if its normal form is a row of numerals.  Trees of the
right shape and normal forms that are read correspond to each other: a tree is
read from the text that it prints, and from no other normal form.
-/

namespace CurrencyPad

namespace Text

def asciiDigits : List Char :=
  ['0', '1', '2', '3', '4', '5', '6', '7', '8', '9']

theorem mem_asciiDigits_of_isAsciiDigit {c : Char}
    (digit : isAsciiDigit c = true) : c ∈ asciiDigits := by
  simp only [isAsciiDigit, Bool.and_eq_true, decide_eq_true_eq] at digit
  obtain ⟨least, greatest⟩ := digit
  have lower : 48 ≤ c.toNat := least
  have upper : c.toNat ≤ 57 := greatest
  have same : Char.ofNat c.toNat = c := Char.ofNat_toNat c
  generalize c.toNat = point at lower upper same
  subst same
  interval_cases point <;> simp [asciiDigits]

/-- What can be told of each of the ten digits can be told of a digit. -/
theorem of_isAsciiDigit (holds : Char → Bool)
    (each : asciiDigits.all holds = true) {c : Char}
    (digit : isAsciiDigit c = true) : holds c = true :=
  List.all_eq_true.mp each c (mem_asciiDigits_of_isAsciiDigit digit)

theorem isDigit_of_isAsciiDigit {c : Char}
    (digit : isAsciiDigit c = true) : isDigit c = true :=
  of_isAsciiDigit isDigit (by decide) digit

end Text

namespace Locale

theorem isAsciiDigit_decimal (locale : Locale) :
    Text.isAsciiDigit locale.decimal = false := by
  cases digit : Text.isAsciiDigit locale.decimal with
  | false =>
      rfl
  | true =>
      have isDigit := Text.isDigit_of_isAsciiDigit digit
      rw [locale.decimalIsNoDigit] at isDigit
      cases isDigit

end Locale

namespace Operator

def spellings : List Char :=
  ['+', '-', '\u2212', '×', '*', '÷', '/']

theorem mem_spellings_of_ofChar? {c : Char} {operator : Operator}
    (spells : ofChar? c = some operator) : c ∈ spellings := by
  unfold ofChar? at spells
  split_ifs at spells with plus minus times divide
  · simp [spellings, plus]
  · rcases minus with rfl | rfl <;> simp [spellings]
  · rcases times with rfl | rfl <;> simp [spellings]
  · rcases divide with rfl | rfl <;> simp [spellings]

/-- What can be told of each spelling can be told of what spells an
operator. -/
theorem of_ofChar? (holds : Char → Bool)
    (each : spellings.all holds = true) {c : Char} {operator : Operator}
    (spells : ofChar? c = some operator) : holds c = true :=
  List.all_eq_true.mp each c (mem_spellings_of_ofChar? spells)

end Operator

namespace Expression

variable {locale : Locale} {c : Char}

/-- A digit stands for itself unless it separates groups. -/
theorem normalChar_digit (digit : Text.isAsciiDigit c = true)
    (ungrouped : locale.grouping ≠ some c) :
    normalChar locale c = some c := by
  have visible : (!Text.isBlank c) = true :=
    Text.of_isAsciiDigit (fun d => !Text.isBlank d) (by decide) digit
  have noOperator : (Operator.ofChar? c).isNone = true :=
    Text.of_isAsciiDigit (fun d => (Operator.ofChar? d).isNone) (by decide)
      digit
  rw [Bool.not_eq_true'] at visible
  rw [Option.isNone_iff_eq_none] at noOperator
  have noDecimal : c ≠ locale.decimal := by
    rintro rfl
    have isDigit := Text.isDigit_of_isAsciiDigit digit
    rw [locale.decimalIsNoDigit] at isDigit
    cases isDigit
  simp [normalChar, visible, ungrouped, noDecimal, noOperator]

/-- The decimal separator stands for a point unless it is blank. -/
theorem normalChar_decimal (visible : Text.isBlank locale.decimal = false) :
    normalChar locale locale.decimal = some '.' := by
  simp [normalChar, visible, locale.separatorsDiffer]

/-- A spelling of an operator stands for the operator unless it separates
something. -/
theorem normalChar_operator {operator : Operator}
    (spells : Operator.ofChar? c = some operator)
    (ungrouped : locale.grouping ≠ some c) (noDecimal : c ≠ locale.decimal) :
    normalChar locale c = some operator.canonical := by
  have visible : (!Text.isBlank c) = true :=
    Operator.of_ofChar? (fun d => !Text.isBlank d) (by decide) spells
  rw [Bool.not_eq_true'] at visible
  simp [normalChar, visible, ungrouped, noDecimal, spells]

private theorem normalChar_default_canonical (operator : Operator) :
    normalChar Locale.default operator.canonical =
      some operator.canonical := by
  cases operator <;> decide

private theorem normalChar_default_digit (c : Char)
    (digit : Text.isAsciiDigit c = true) :
    normalChar Locale.default c = some c := by
  refine normalChar_digit digit ?_
  intro grouping
  have comma : c = ',' := (Option.some.inj grouping).symm
  rw [comma] at digit
  revert digit
  decide

theorem normalChar_default_of_mem {numeral : Text}
    (isNumeral : IsNumeral numeral) :
    ∀ c ∈ numeral, normalChar Locale.default c = some c :=
  isNumeral.forall_mem normalChar_default_digit (by decide)

theorem normalize_of_forall {text : Text}
    (kept : ∀ c ∈ text, normalChar locale c = some c) :
    normalize locale text = text := by
  induction text with
  | nil =>
      rfl
  | cons c rest inductionHypothesis =>
      rw [List.forall_mem_cons] at kept
      unfold normalize at inductionHypothesis ⊢
      rw [List.filterMap_cons_some kept.1, inductionHypothesis kept.2]

/-- With a point and a comma as separators a row is its own normal form. -/
theorem normalize_default_write {row : Row} (valid : row.Valid) :
    normalize Locale.default row.write = row.write :=
  normalize_of_forall (Row.forall_mem_write valid normalChar_default_digit
    (by decide) normalChar_default_canonical)

/-- An expression is read if and only if its normal form is a row of numerals.
What is read is a sum of products with the tokens of the normal form in their
order.  Every sum of products is read from its own text, and from exactly the
expressions of which this is the normal form. -/
theorem read_iff_row_and_print (locale : Locale) (text : Text) :
    ((∃ tree, read locale text = .ok tree) ↔
        ∃ row : Row, row.Valid ∧ row.write = normalize locale text) ∧
      (∀ tree : Tree, read locale text = .ok tree ↔
        tree.IsSum ∧ tree.print = normalize locale text) ∧
      (∀ tree : Tree, read locale text = .ok tree →
        (scan (normalize locale text)).map Lexeme.token? =
          tree.tokens.map some) ∧
      ∀ tree : Tree, tree.IsSum →
        read Locale.default tree.print = .ok tree := by
  refine ⟨?_, fun tree => readNormal_eq_ok_iff, ?_, ?_⟩
  · constructor
    · rintro ⟨tree, isRead⟩
      obtain ⟨row, valid, written, _⟩ := readNormal_eq_ok_iff_row.mp isRead
      exact ⟨row, valid, written⟩
    · rintro ⟨row, valid, written⟩
      exact ⟨row.tree, readNormal_eq_ok_iff_row.mpr
        ⟨row, valid, written, rfl⟩⟩
  · intro tree isRead
    obtain ⟨row, valid, written, rfl⟩ :=
      readNormal_eq_ok_iff_row.mp isRead
    rw [row.tokens_tree]
    exact (row.tokens_scan_iff _).mpr ⟨valid, written⟩
  · intro tree isSum
    obtain ⟨row, valid, rfl⟩ := isSum.exists_row
    refine readNormal_eq_ok_iff.mpr ⟨isSum, ?_⟩
    rw [row.print_tree, normalize_default_write valid]

/-- Division is read from left to right, after a sign and with a point that
nothing follows. -/
theorem read_division :
    let text := "-8÷4.÷.5".toList
    let tree : Tree :=
      .negate (.binary .divide (.binary .divide (.operand "8".toList)
        (.operand "4.".toList)) (.operand ".5".toList))
    tree.IsSum ∧ read Locale.default text = .ok tree ∧
      (scan (normalize Locale.default text)).map Lexeme.token? =
        tree.tokens.map some ∧
      read Locale.default tree.print = .ok tree := by
  intro text tree
  have isSum : tree.IsSum := by
    refine .negate (.binary (.inr rfl) (.binary (.inr rfl) (.operand ?_)
      ?_) ?_)
    · exact .whole (by decide) (List.all_eq_true.mp (by decide))
    · exact @IsNumeral.point ['4'] [] (by decide)
        (List.all_eq_true.mp (by decide)) nofun
    · exact .bare (by decide) (List.all_eq_true.mp (by decide))
  obtain ⟨_, reads, tokens, prints⟩ :=
    read_iff_row_and_print Locale.default text
  have isRead : read Locale.default text = .ok tree :=
    (reads tree).mpr ⟨isSum, by decide⟩
  exact ⟨isSum, isRead, tokens tree isRead, prints tree isSum⟩

end Expression

end CurrencyPad
