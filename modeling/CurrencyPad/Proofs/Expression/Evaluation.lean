import CurrencyPad.Expression.Value
import CurrencyPad.Proofs.Binary64.Equality
import CurrencyPad.Proofs.Expression.Language

/-!
# Evaluation of rows

The value of an expression can be told from its row of numerals without any
tree: the factors of every term are folded from left to right, then the terms
are.  A numeral of value zero after a division sign is found before anything
else.
-/

namespace CurrencyPad

def Operator.apply : Operator → Float → Float → Float
  | .plus, x, y => x + y
  | .minus, x, y => x - y
  | .times, x, y => x * y
  | .divide, x, y => x / y

namespace Expression

/-- The double that numerals make of another one, each by the operator before
it. -/
def foldFactors (x : Float) (factors : List (Operator × Text)) : Float :=
  factors.foldl
    (fun x factor => factor.1.apply x (numeralValue factor.2)) x

/-- A numeral and further factors, each with the operator before it. -/
structure Term where
  first : Text
  factors : List (Operator × Text)

def Term.value (term : Term) : Float :=
  foldFactors (numeralValue term.first) term.factors

/-- The double that terms make of another one, each by the operator before
it. -/
def foldTerms (x : Float) (terms : List (Operator × Term)) : Float :=
  terms.foldl (fun x term => term.1.apply x term.2.value) x

/-- The factors with which steps begin, and the terms that come after them. -/
def splitTerms :
    List (Operator × Text) → List (Operator × Text) × List (Operator × Term)
  | [] => ([], [])
  | (operator, numeral) :: rest =>
      let (factors, terms) := splitTerms rest
      if operator.JoinsFactors then ((operator, numeral) :: factors, terms)
      else ([], (operator, ⟨numeral, factors⟩) :: terms)

/-- A step that divides by a numeral of value zero. -/
def DividesByZero (step : Operator × Text) : Prop :=
  step.1 = .divide ∧ (numeralValue step.2 == 0) = true

instance (step : Operator × Text) : Decidable (DividesByZero step) :=
  inferInstanceAs (Decidable (_ ∧ _))

namespace Row

def firstTerm (row : Row) : Term :=
  ⟨row.first, (splitTerms row.rest).1⟩

def laterTerms (row : Row) : List (Operator × Term) :=
  (splitTerms row.rest).2

/-- The value of a row, from left to right.  A sign negates the whole first
term. -/
def value (row : Row) : Float :=
  foldTerms
    (if row.signed then -row.firstTerm.value else row.firstTerm.value)
    row.laterTerms

/-- The result of a row or the error that it ends with. -/
def result (row : Row) : Except ValueError Float :=
  if ∃ step ∈ row.rest, DividesByZero step then .error .divisionByZero
  else if row.value.isInf || row.value.isNaN then .error .notFinite
  else .ok (if row.value == 0 then 0 else row.value)

end Row

namespace Tree

theorem value?_binary_operand {step : Operator × Text}
    (divides : ¬ DividesByZero step) {left : Tree} {x : Float}
    (value : left.value? = some x) :
    (Tree.binary step.1 left (.operand step.2)).value? =
      some (step.1.apply x (numeralValue step.2)) := by
  obtain ⟨operator, numeral⟩ := step
  cases operator with
  | divide =>
      have nonzero : (numeralValue numeral == 0) = false := by
        simpa [DividesByZero] using divides
      simp [value?, value, nonzero, Operator.apply]
  | _ =>
      simp [value?, value, Operator.apply]

theorem value?_binary_of_not_joinsFactors {operator : Operator}
    (adds : ¬ operator.JoinsFactors) {left right : Tree} {x y : Float}
    (leftValue : left.value? = some x)
    (rightValue : right.value? = some y) :
    (Tree.binary operator left right).value? =
      some (operator.apply x y) := by
  cases operator with
  | plus =>
      simp [value?, leftValue, rightValue, Operator.apply]
  | minus =>
      simp [value?, leftValue, rightValue, Operator.apply]
  | times =>
      exact absurd (.inl rfl) adds
  | divide =>
      exact absurd (.inr rfl) adds

theorem value?_binary_of_left_eq_none {left : Tree}
    (valueless : left.value? = none) (operator : Operator) (right : Tree) :
    (Tree.binary operator left right).value? = none := by
  simp [value?, valueless]

theorem value?_binary_of_dividesByZero {step : Operator × Text}
    (divides : DividesByZero step) (left : Tree) :
    (Tree.binary step.1 left (.operand step.2)).value? = none := by
  obtain ⟨isDivision, isZero⟩ := divides
  cases left.value? with
  | none =>
      simp [value?, isDivision, isZero]
  | some x =>
      simp [value?, isDivision, isZero]

theorem value?_complete_of_eq_none (before : Before) {tree : Tree}
    (valueless : tree.value? = none) :
    (before.complete tree).value? = none := by
  cases before with
  | nothing =>
      exact valueless
  | sign =>
      simp [Before.complete, value?, valueless]
  | sum left operator =>
      cases left.value? with
      | none =>
          simp [Before.complete, value?, valueless]
      | some x =>
          simp [Before.complete, value?, valueless]

/-- A tree that grows without a division by zero has the value of the terms it
grows by. -/
theorem value?_grow {before : Before} {negated : Float → Float}
    (completes : ∀ (tree : Tree) (x : Float), tree.value? = some x →
      (before.complete tree).value? = some (negated x))
    {product : Tree} {x : Float} (value : product.value? = some x)
    (steps : List (Operator × Text))
    (divides : ∀ step ∈ steps, ¬ DividesByZero step) :
    (grow before product steps).value? =
      some (foldTerms (negated (foldFactors x (splitTerms steps).1))
        (splitTerms steps).2) := by
  -- What completes a term changes from term to term: first the sign, then the
  -- sum of all terms before.
  induction steps generalizing before negated product x with
  | nil =>
      exact completes product x value
  | cons step rest inductionHypothesis =>
      rw [List.forall_mem_cons] at divides
      obtain ⟨operator, numeral⟩ := step
      by_cases joins : operator.JoinsFactors
      · rw [grow_cons_of_joinsFactors joins,
          inductionHypothesis completes
            (value?_binary_operand divides.1 value) divides.2]
        simp [splitTerms, joins, foldFactors]
      · have completed : ∀ (tree : Tree) (y : Float),
            tree.value? = some y →
              ((Before.sum (before.complete product)
                  operator).complete tree).value? =
                some (operator.apply (negated x) y) :=
          fun _ _ treeValue =>
            value?_binary_of_not_joinsFactors joins
              (completes product x value) treeValue
        rw [grow_cons_of_not_joinsFactors joins,
          inductionHypothesis completed rfl divides.2]
        simp [splitTerms, joins, foldFactors, foldTerms, Term.value]

/-- A tree that grows by a division by zero has no value. -/
theorem value?_grow_eq_none {before : Before} {product : Tree}
    (steps : List (Operator × Text))
    (fails : product.value? = none ∨
      (∀ tree : Tree, (before.complete tree).value? = none) ∨
        ∃ step ∈ steps, DividesByZero step) :
    (grow before product steps).value? = none := by
  -- Once a term has no value, no later term can be completed either.
  induction steps generalizing before product with
  | nil =>
      rcases fails with valueless | fails | ⟨step, member, _⟩
      · exact value?_complete_of_eq_none before valueless
      · exact fails product
      · cases member
  | cons step rest inductionHypothesis =>
      obtain ⟨operator, numeral⟩ := step
      by_cases joins : operator.JoinsFactors
      · rw [grow_cons_of_joinsFactors joins]
        refine inductionHypothesis ?_
        rcases fails with valueless | fails | ⟨step, member, divides⟩
        · exact .inl (value?_binary_of_left_eq_none valueless _ _)
        · exact .inr (.inl fails)
        · rcases List.mem_cons.mp member with rfl | later
          · exact .inl (value?_binary_of_dividesByZero divides product)
          · exact .inr (.inr ⟨step, later, divides⟩)
      · rw [grow_cons_of_not_joinsFactors joins]
        refine inductionHypothesis (.inr ?_)
        rcases fails with valueless | fails | ⟨step, member, divides⟩
        · have incomplete :=
            value?_complete_of_eq_none before valueless
          exact .inl (value?_binary_of_left_eq_none incomplete operator)
        · exact .inl
            (value?_binary_of_left_eq_none (fails product) operator)
        · rcases List.mem_cons.mp member with rfl | later
          · exact absurd (.inr divides.1) joins
          · exact .inr ⟨step, later, divides⟩

end Tree

/-- The tree of a row has the value of the row unless it divides by zero. -/
theorem Row.value?_tree (row : Row) :
    row.tree.value? =
      if ∃ step ∈ row.rest, DividesByZero step then none
      else some row.value := by
  by_cases divides : ∃ step ∈ row.rest, DividesByZero step
  · rw [if_pos divides]
    exact Tree.value?_grow_eq_none row.rest (.inr (.inr divides))
  · rw [if_neg divides]
    have undivided : ∀ step ∈ row.rest, ¬ DividesByZero step :=
      fun step member zero => divides ⟨step, member, zero⟩
    have first :
        (Tree.operand row.first).value? =
          some (numeralValue row.first) := rfl
    unfold Row.tree Row.value
    cases row.signed with
    | false =>
        have keeps : ∀ (tree : Tree) (x : Float), tree.value? = some x →
            (Before.nothing.complete tree).value? = some (id x) :=
          fun _ _ value => value
        exact Tree.value?_grow keeps first row.rest undivided
    | true =>
        have negates : ∀ (tree : Tree) (x : Float), tree.value? = some x →
            (Before.sign.complete tree).value? = some (-x) := by
          intro tree x value
          simp [Before.complete, Tree.value?, value]
        exact Tree.value?_grow negates first row.rest undivided

/-- A double is passed on as a result if it is finite, a negative zero as a plain
one. -/
theorem ofFloat?_eq (x : Float) :
    (Binary64.Finite.ofFloat? x).map (·.withoutNegativeZero.value) =
      if x.isInf || x.isNaN then none
      else some (if x == 0 then 0 else x) := by
  unfold Binary64.Finite.ofFloat?
  have finite := Binary64.isFinite_eq x
  split
  case isTrue isFinite =>
    rw [isFinite] at finite
    have notSpecial : (x.isInf || x.isNaN) = false := by
      simpa using finite
    rw [notSpecial]
    simp only [Option.map_some, Binary64.Finite.withoutNegativeZero]
    split <;> simp_all [Binary64.Finite.zero]
  case isFalse infinite =>
    rw [finite] at infinite
    cases special : x.isInf || x.isNaN with
    | true =>
        rfl
    | false =>
        rw [special] at infinite
        exact absurd rfl infinite

theorem evaluate_of_row {locale : Locale} {text : Text} {row : Row}
    (valid : row.Valid) (written : row.write = normalize locale text) :
    (evaluate locale text).map (·.value) = row.result := by
  have isRead : read locale text = .ok row.tree :=
    readNormal_eq_ok_iff_row.mpr ⟨row, valid, written, rfl⟩
  have passed := ofFloat?_eq row.value
  by_cases divides : ∃ step ∈ row.rest, DividesByZero step
  · have undefined : row.tree.value? = none := by
      rw [row.value?_tree, if_pos divides]
    have isEvaluated : evaluate locale text = .error .divisionByZero := by
      simp only [evaluate, isRead, undefined]
    rw [isEvaluated, Row.result, if_pos divides]
    rfl
  · have defined : row.tree.value? = some row.value := by
      rw [row.value?_tree, if_neg divides]
    cases found : Binary64.Finite.ofFloat? row.value with
    | none =>
        have isEvaluated : evaluate locale text = .error .notFinite := by
          simp only [evaluate, isRead, defined, found]
        rw [isEvaluated, Row.result, if_neg divides]
        rw [found] at passed
        split at passed
        case isTrue special =>
          rw [if_pos special]
          rfl
        · cases passed
    | some x =>
        have isEvaluated :
            evaluate locale text = .ok x.withoutNegativeZero := by
          simp only [evaluate, isRead, defined, found]
        rw [isEvaluated, Row.result, if_neg divides]
        rw [found] at passed
        split at passed
        · cases passed
        case isFalse ordinary =>
          rw [if_neg ordinary, ← Option.some.inj passed]
          rfl

private theorem evaluate_ok_facts {locale : Locale} {text : Text}
    {value : Binary64.Finite} (evaluated : evaluate locale text = .ok value) :
    value.value.isInf = false ∧ value.value.isNaN = false ∧
      value.value ≠ -0.0 := by
  have finite := Binary64.isFinite_eq value.value
  rw [value.isFinite] at finite
  have ordinary :
      value.value.isInf = false ∧ value.value.isNaN = false := by
    simpa using finite
  refine ⟨ordinary.1, ordinary.2, ?_⟩
  obtain ⟨x, rfl⟩ :
      ∃ x : Binary64.Finite, value = x.withoutNegativeZero := by
    unfold evaluate at evaluated
    split at evaluated
    · cases evaluated
    · split at evaluated
      · cases evaluated
      · split at evaluated
        · cases evaluated
        case h_2 x _ =>
          exact ⟨x, (Except.ok.inj evaluated).symm⟩
  unfold Binary64.Finite.withoutNegativeZero
  split
  · decide
  case isFalse nonzero =>
    intro isNegativeZero
    rw [isNegativeZero] at nonzero
    revert nonzero
    decide

/-- An expression that is read evaluates to the result of its row: the error of
a division by zero if there is one, else the value of the row from left to
right, if this is finite.  Any other expression keeps the error with which it is
read, and only errors leave an expression without a value. -/
theorem evaluate_eq_row_result (locale : Locale) (text : Text) :
    (∀ tree, read locale text = .ok tree →
        ∃ row : Row, row.Valid ∧ row.write = normalize locale text) ∧
      (∀ row : Row, row.Valid → row.write = normalize locale text →
        (evaluate locale text).map (·.value) = row.result) ∧
      (∀ error, read locale text = .error error →
        evaluate locale text = .error (.unreadable error)) ∧
      (∀ value, evaluate locale text = .ok value →
        value.value.isInf = false ∧ value.value.isNaN = false ∧
          value.value ≠ -0.0) ∧
      (value? locale text = none ↔
        ∃ error, evaluate locale text = .error error) := by
  refine ⟨?_, fun row valid written => evaluate_of_row valid written,
    ?_, fun value evaluated => evaluate_ok_facts evaluated, ?_⟩
  · intro tree isRead
    obtain ⟨row, valid, written, _⟩ := readNormal_eq_ok_iff_row.mp isRead
    exact ⟨row, valid, written⟩
  · intro error isUnread
    rw [evaluate, isUnread]
  · unfold value?
    cases evaluate locale text with
    | error error =>
        simp [Except.toOption]
    | ok value =>
        simp [Except.toOption]

/-- A division by zero is found although what it divides is no number. -/
theorem evaluate_zero_divided_twice :
    let text := "0÷0÷0+1".toList
    let row : Row :=
      ⟨false, ['0'], [(.divide, ['0']), (.divide, ['0']), (.plus, ['1'])]⟩
    row.Valid ∧ row.write = normalize Locale.default text ∧
      row.value.isNaN = true ∧
      (evaluate Locale.default text).map (·.value) =
        .error .divisionByZero := by
  intro text row
  have valid : row.Valid := by
    have zero : IsNumeral ['0'] :=
      .whole (by decide) (List.all_eq_true.mp (by decide))
    have one : IsNumeral ['1'] :=
      .whole (by decide) (List.all_eq_true.mp (by decide))
    intro numeral member
    simp only [row, Row.numerals, List.map_cons, List.map_nil,
      List.mem_cons, List.not_mem_nil, or_false] at member
    rcases member with rfl | rfl | rfl | rfl
    · exact zero
    · exact zero
    · exact zero
    · exact one
  have written : row.write = normalize Locale.default text := by decide
  have undefined : row.value.isNaN = true := by decide +kernel
  have result : row.result = .error .divisionByZero := rfl
  obtain ⟨_, evaluates, _⟩ := evaluate_eq_row_result Locale.default text
  exact ⟨valid, written, undefined,
    (evaluates row valid written).trans result⟩

end Expression

end CurrencyPad
