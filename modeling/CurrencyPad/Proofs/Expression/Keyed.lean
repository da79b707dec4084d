import CurrencyPad.Proofs.Expression.Completion
import CurrencyPad.Proofs.Expression.Evaluation

/-!
# Expressions typed key by key

A normal expression can be typed one character after another.  The edits then
write a zero before a point that begins a numeral, and change nothing else but
the glyphs of the operators.  So what is typed is read as the same tree with its
numerals in full, and has the same value.
-/

namespace CurrencyPad.Expression

/-- What the key of a normal character makes of the text typed so far. -/
def typeNormal (text : Text) (c : Char) : Text :=
  if c = '.' then appendSeparator text ['.']
  else
    match Token.operatorOf? c with
    | some operator => appendOperator text operator
    | none => text ++ [c]

/-- A numeral with a zero before a point that begins it. -/
def fullNumeral (numeral : Text) : Text :=
  if numeral.head? = some '.' then '0' :: numeral else numeral

theorem fullNumeral_bare (fraction : Text) :
    fullNumeral ('.' :: fraction) = '0' :: '.' :: fraction :=
  if_pos rfl

theorem fullNumeral_append_of_digits {digits : Text} (nonempty : digits ≠ [])
    (all : ∀ c ∈ digits, Text.isAsciiDigit c = true) (rest : Text) :
    fullNumeral (digits ++ rest) = digits ++ rest := by
  obtain ⟨c, others, rfl⟩ := List.exists_cons_of_ne_nil nonempty
  refine if_neg fun starts => ?_
  have digit := all c List.mem_cons_self
  rw [Option.some.inj starts] at digit
  revert digit
  decide

theorem IsNumeral.full {numeral : Text} (isNumeral : IsNumeral numeral) :
    IsNumeral (fullNumeral numeral) := by
  cases isNumeral with
  | whole nonempty all =>
      have same := fullNumeral_append_of_digits nonempty all []
      rw [List.append_nil] at same
      rw [same]
      exact .whole nonempty all
  | point nonempty all places =>
      rw [fullNumeral_append_of_digits nonempty all]
      exact .point nonempty all places
  | bare nonempty places =>
      rw [fullNumeral_bare]
      exact @IsNumeral.point ['0'] _ (by decide)
        (List.all_eq_true.mp (by decide)) places

/-- The zero before the point changes no value. -/
theorem numeralDecimal_fullNumeral (numeral : Text) :
    numeralDecimal (fullNumeral numeral) = numeralDecimal numeral := by
  by_cases starts : numeral.head? = some '.'
  · obtain ⟨fraction, rfl⟩ := List.head?_eq_some_iff.mp starts
    rw [fullNumeral_bare]
    have zero : Text.isAsciiDigit '0' = true := by decide
    have point : Text.isAsciiDigit '.' = false := by decide
    have value :
        Decimal.digitsValue ('0' :: fraction) =
          Decimal.digitsValue fraction := rfl
    simp [numeralDecimal, zero, point, value]
  · rw [fullNumeral, if_neg starts]

def Tree.fill : Tree → Tree
  | .operand numeral => .operand (fullNumeral numeral)
  | .negate inner => .negate inner.fill
  | .binary operator left right => .binary operator left.fill right.fill

theorem Tree.value?_fill (tree : Tree) : tree.fill.value? = tree.value? := by
  induction tree with
  | operand numeral =>
      rw [fill, value?, value?, numeralValue, numeralDecimal_fullNumeral]
      rfl
  | negate inner inductionHypothesis =>
      rw [fill, value?, value?, inductionHypothesis]
  | binary operator left right leftHypothesis rightHypothesis =>
      rw [fill, value?, value?, leftHypothesis, rightHypothesis]

private theorem fill_grow {before after : Before}
    (completes : ∀ product : Tree,
      after.complete product.fill = (before.complete product).fill)
    (product : Tree) (steps : List (Operator × Text)) :
    Tree.grow after product.fill
        (steps.map fun step => (step.1, fullNumeral step.2)) =
      (Tree.grow before product steps).fill := by
  induction steps generalizing before after product with
  | nil =>
      exact completes product
  | cons step rest inductionHypothesis =>
      obtain ⟨operator, numeral⟩ := step
      by_cases joins : operator.JoinsFactors
      · rw [List.map_cons, Tree.grow_cons_of_joinsFactors joins,
          Tree.grow_cons_of_joinsFactors joins,
          ← inductionHypothesis completes]
        rfl
      · have completed : ∀ next : Tree,
            (Before.sum (after.complete product.fill)
                operator).complete next.fill =
              ((Before.sum (before.complete product)
                operator).complete next).fill := by
          intro next
          rw [completes product]
          rfl
        rw [List.map_cons, Tree.grow_cons_of_not_joinsFactors joins,
          Tree.grow_cons_of_not_joinsFactors joins,
          ← inductionHypothesis completed]
        rfl

namespace Row

def fill (row : Row) : Row where
  signed := row.signed
  first := fullNumeral row.first
  rest := row.rest.map fun step => (step.1, fullNumeral step.2)

theorem Valid.fill {row : Row} (valid : row.Valid) : row.fill.Valid := by
  obtain ⟨first, rest⟩ := (valid_iff row).mp valid
  refine (valid_iff row.fill).mpr ⟨first.full, ?_⟩
  exact List.forall_mem_map.mpr fun step member => (rest step member).full

theorem tree_fill (row : Row) : row.fill.tree = row.tree.fill := by
  unfold tree fill
  cases row.signed with
  | false =>
      exact fill_grow (fun _ => rfl) (.operand row.first) row.rest
  | true =>
      exact fill_grow (fun _ => rfl) (.operand row.first) row.rest

end Row

/-- Operators as the pad shows them, each with the numeral after it. -/
def stepsShown (steps : List (Operator × Text)) : Text :=
  steps.flatMap fun step => step.1.glyph :: step.2

def Row.shown (row : Row) : Text :=
  Text.withSign row.signed (row.first ++ stepsShown row.rest)

theorem isDistinct_default : Locale.default.IsDistinct where
  visible := by decide
  digits := by
    intro c grouping
    cases grouping
    decide
  operators := by
    intro operator
    cases operator <;> decide
  decimal := by
    intro operator
    cases operator <;> decide

private theorem normalize_default_numeral {numeral : Text}
    (isNumeral : IsNumeral numeral) :
    normalize Locale.default numeral = numeral :=
  normalize_of_forall (normalChar_default_of_mem isNumeral)

private theorem normalize_stepsShown (steps : List (Operator × Text))
    (valid : ∀ step ∈ steps, IsNumeral step.2) :
    normalize Locale.default (stepsShown steps) = stepsText steps := by
  induction steps with
  | nil =>
      rfl
  | cons step rest inductionHypothesis =>
      rw [List.forall_mem_cons] at valid
      have split : stepsShown (step :: rest) =
          [step.1.glyph] ++ (step.2 ++ stepsShown rest) := rfl
      rw [split, normalize_append, normalize_append,
        normalize_glyph isDistinct_default,
        normalize_default_numeral valid.1, inductionHypothesis valid.2]
      rfl

/-- A row with glyphs is read as the row. -/
theorem Row.normalize_shown {row : Row} (valid : row.Valid) :
    normalize Locale.default row.shown = row.write := by
  obtain ⟨first, rest⟩ := (valid_iff row).mp valid
  rw [shown, normalize_withSign isDistinct_default, normalize_append,
    normalize_default_numeral first, normalize_stepsShown row.rest rest,
    write]

theorem currentOperand_append {more : Text}
    (noOperator : ∀ c ∈ more, Operator.isSpelling c = false) (text : Text) :
    currentOperand (text ++ more) = currentOperand text ++ more := by
  have inside : ∀ c ∈ more.reverse, (!Operator.isSpelling c) = true := by
    intro c member
    rw [noOperator c (List.mem_reverse.mp member)]
    rfl
  rw [currentOperand, List.reverse_append,
    List.takeWhile_append_of_pos inside, List.reverse_append,
    List.reverse_reverse, currentOperand]

theorem currentOperand_concat_glyph (text : Text) (operator : Operator) :
    currentOperand (text ++ [operator.glyph]) = [] := by
  simp [currentOperand]

theorem typeNormal_digit {c : Char} (digit : Text.isAsciiDigit c = true)
    (text : Text) : typeNormal text c = text ++ [c] := by
  have noPoint : (c != '.') = true :=
    Text.of_isAsciiDigit (fun d => d != '.') (by decide) digit
  have noOperator : (Token.operatorOf? c).isNone = true :=
    Text.of_isAsciiDigit (fun d => (Token.operatorOf? d).isNone) (by decide)
      digit
  rw [Option.isNone_iff_eq_none] at noOperator
  rw [typeNormal, if_neg (by simpa using noPoint), noOperator]

theorem typeNormal_canonical (text : Text) (operator : Operator) :
    typeNormal text operator.canonical = appendOperator text operator := by
  have noPoint : operator.canonical ≠ '.' := by
    cases operator <;> decide
  rw [typeNormal, if_neg noPoint, operatorOf?_eq_some_iff.mpr rfl]

theorem foldl_typeNormal_digits {digits : Text}
    (all : ∀ c ∈ digits, Text.isAsciiDigit c = true) (text : Text) :
    digits.foldl typeNormal text = text ++ digits := by
  induction digits generalizing text with
  | nil =>
      exact (List.append_nil text).symm
  | cons c rest inductionHypothesis =>
      rw [List.forall_mem_cons] at all
      rw [List.foldl_cons, typeNormal_digit all.1,
        inductionHypothesis all.2, List.append_assoc]
      rfl

private theorem typeNormal_point {text digits : Text}
    (ready : currentOperand text = [])
    (all : ∀ c ∈ digits, Text.isAsciiDigit c = true) :
    typeNormal (text ++ digits) '.' =
      text ++ (if digits = [] then ['0'] else digits) ++ ['.'] := by
  have noOperator : ∀ c ∈ digits, Operator.isSpelling c = false :=
    fun c member => Operator.isSpelling_eq_false_of_isDigit
      (Text.isDigit_of_isAsciiDigit (all c member))
  have absent : ¬ occursIn ['.'] digits = true := by
    rw [IsTyped.occursIn_singleton]
    intro member
    have digit := all '.' member
    revert digit
    decide
  rw [typeNormal, if_pos rfl, appendSeparator,
    currentOperand_append noOperator, ready, List.nil_append, if_neg absent]
  by_cases empty : digits = []
  · simp [empty]
  · simp [empty]

/-- A numeral is typed in full where no operand is begun. -/
theorem foldl_typeNormal_numeral {numeral : Text}
    (isNumeral : IsNumeral numeral) {text : Text}
    (ready : currentOperand text = []) :
    numeral.foldl typeNormal text = text ++ fullNumeral numeral := by
  cases isNumeral with
  | whole nonempty all =>
      have same := fullNumeral_append_of_digits nonempty all []
      rw [List.append_nil] at same
      rw [same, foldl_typeNormal_digits all]
  | point nonempty all places =>
      rw [fullNumeral_append_of_digits nonempty all, List.foldl_append,
        foldl_typeNormal_digits all, List.foldl_cons,
        typeNormal_point ready all, if_neg nonempty,
        foldl_typeNormal_digits places]
      simp
  | bare nonempty places =>
      have pointTyped := @typeNormal_point text [] ready nofun
      rw [List.append_nil, if_pos rfl] at pointTyped
      rw [fullNumeral_bare, List.foldl_cons, pointTyped,
        foldl_typeNormal_digits places]
      simp

/-- An operator is typed after a numeral as its glyph. -/
private theorem typeNormal_canonical_of_numeral {numeral : Text}
    (isNumeral : IsNumeral numeral) (text : Text) (operator : Operator) :
    typeNormal (text ++ numeral) operator.canonical =
      text ++ numeral ++ [operator.glyph] := by
  have isLast := List.getLast?_eq_some_getLast isNumeral.ne_nil
  have ends : (text ++ numeral).getLast? =
      some (numeral.getLast isNumeral.ne_nil) := by
    rw [List.getLast?_append, isLast]
    rfl
  rw [typeNormal_canonical, IsTyped.appendOperator_of_operand ends
    (isNumeral.not_isSpelling _ (List.getLast_mem _))]

private theorem foldl_typeNormal_steps (steps : List (Operator × Text))
    (valid : ∀ step ∈ steps, IsNumeral step.2) {numeral : Text}
    (isNumeral : IsNumeral numeral) (text : Text) :
    (stepsText steps).foldl typeNormal (text ++ numeral) =
      text ++ numeral ++
        stepsShown (steps.map fun step => (step.1, fullNumeral step.2)) := by
  -- Every step ends in a numeral, after which the next operator is typed.
  induction steps generalizing numeral text with
  | nil =>
      exact (List.append_nil _).symm
  | cons step rest inductionHypothesis =>
      rw [List.forall_mem_cons] at valid
      have split : stepsText (step :: rest) =
          step.1.canonical :: (step.2 ++ stepsText rest) := rfl
      rw [split, List.foldl_cons, List.foldl_append,
        typeNormal_canonical_of_numeral isNumeral,
        foldl_typeNormal_numeral valid.1
          (currentOperand_concat_glyph _ _),
        inductionHypothesis valid.2 valid.1.full]
      simp [stepsShown]

/-- A row is typed with its numerals in full and with the glyphs of its
operators. -/
theorem Row.foldl_typeNormal_write {row : Row} (valid : row.Valid) :
    row.write.foldl typeNormal [] = row.fill.shown := by
  obtain ⟨first, rest⟩ := (valid_iff row).mp valid
  have body : ∀ text : Text, currentOperand text = [] →
      (row.first ++ stepsText row.rest).foldl typeNormal text =
        text ++ (fullNumeral row.first ++ stepsShown row.fill.rest) := by
    intro text ready
    rw [List.foldl_append, foldl_typeNormal_numeral first ready,
      foldl_typeNormal_steps row.rest rest first.full, List.append_assoc]
    rfl
  unfold write shown
  cases sign : row.signed with
  | false =>
      have unsigned : row.fill.signed = false := sign
      rw [unsigned]
      exact body [] rfl
  | true =>
      have signed : row.fill.signed = true := sign
      rw [signed]
      exact body ['-'] (by decide)

/-- What is typed with the keys of an expression is read as the tree of the
expression with its numerals in full. -/
theorem read_typed {text : Text} {tree : Tree}
    (isRead : read Locale.default text = .ok tree) :
    read Locale.default
        ((normalize Locale.default text).foldl typeNormal []) =
      .ok tree.fill := by
  obtain ⟨row, valid, written, rfl⟩ := readNormal_eq_ok_iff_row.mp isRead
  rw [← written, row.foldl_typeNormal_write valid, ← row.tree_fill]
  exact readNormal_eq_ok_iff_row.mpr
    ⟨row.fill, valid.fill, (row.fill.normalize_shown valid.fill).symm, rfl⟩

/-- What is typed with the keys of an expression has the value of the
expression. -/
theorem value?_typed {text : Text} {tree : Tree}
    (isRead : read Locale.default text = .ok tree) :
    value? Locale.default
        ((normalize Locale.default text).foldl typeNormal []) =
      value? Locale.default text := by
  unfold value? evaluate
  rw [read_typed isRead, isRead]
  dsimp only
  rw [tree.value?_fill]

end CurrencyPad.Expression
