import CurrencyPad.Expression.Reading
import CurrencyPad.Proofs.Expression.Scan

/-!
# The structure of a row

Reading gives a row of numerals its structure: products of numerals, and sums of
products with perhaps a sign before the first.  Every such tree is the structure
of the row that it prints, and of no other.
-/

namespace CurrencyPad

/-- The operators that join the factors of a product. -/
def Operator.JoinsFactors (operator : Operator) : Prop :=
  operator = .times ∨ operator = .divide

instance (operator : Operator) : Decidable operator.JoinsFactors :=
  inferInstanceAs (Decidable (_ ∨ _))

namespace Expression

namespace Tree

/-- A product of numerals from left to right. -/
inductive IsProduct : Tree → Prop
  | operand {numeral : Text} (isNumeral : IsNumeral numeral) :
      IsProduct (.operand numeral)
  | binary {operator : Operator} {left : Tree} {numeral : Text}
      (joins : operator.JoinsFactors) (product : IsProduct left)
      (isNumeral : IsNumeral numeral) :
      IsProduct (.binary operator left (.operand numeral))

/-- A sum of products from left to right, perhaps with a sign before the first
product. -/
inductive IsSum : Tree → Prop
  | product {tree : Tree} (isProduct : IsProduct tree) :
      IsSum tree
  | negate {tree : Tree} (isProduct : IsProduct tree) :
      IsSum (.negate tree)
  | binary {operator : Operator} {left right : Tree}
      (adds : ¬ operator.JoinsFactors) (isSum : IsSum left)
      (isProduct : IsProduct right) :
      IsSum (.binary operator left right)

def tokens : Tree → List Token
  | .operand numeral => [.numeral numeral]
  | .negate inner => .operator .minus :: inner.tokens
  | .binary operator left right =>
      left.tokens ++ .operator operator :: right.tokens

def print (tree : Tree) : Text :=
  tree.tokens.flatMap Token.text

/-- A tree goes on growing where more operators and numerals are read after a
product. -/
def grow (before : Before) (product : Tree) :
    List (Operator × Text) → Tree
  | [] => before.complete product
  | (operator, numeral) :: rest =>
      if operator.JoinsFactors then
        grow before (.binary operator product (.operand numeral)) rest
      else
        grow (.sum (before.complete product) operator) (.operand numeral)
          rest

theorem grow_cons_of_joinsFactors {operator : Operator}
    (joins : operator.JoinsFactors) (numeral : Text)
    (rest : List (Operator × Text)) (before : Before) (product : Tree) :
    grow before product ((operator, numeral) :: rest) =
      grow before (.binary operator product (.operand numeral)) rest :=
  if_pos joins

theorem grow_cons_of_not_joinsFactors {operator : Operator}
    (adds : ¬ operator.JoinsFactors) (numeral : Text)
    (rest : List (Operator × Text)) (before : Before) (product : Tree) :
    grow before product ((operator, numeral) :: rest) =
      grow (.sum (before.complete product) operator) (.operand numeral)
        rest :=
  if_neg adds

def multiply (product : Tree) (factors : List (Operator × Text)) : Tree :=
  factors.foldl
    (fun left factor => .binary factor.1 left (.operand factor.2)) product

theorem grow_of_joinsFactors {factors : List (Operator × Text)}
    (join : ∀ factor ∈ factors, factor.1.JoinsFactors)
    (before : Before) (product : Tree) :
    grow before product factors =
      before.complete (multiply product factors) := by
  induction factors generalizing product with
  | nil =>
      rfl
  | cons factor rest inductionHypothesis =>
      obtain ⟨operator, numeral⟩ := factor
      have joins : operator.JoinsFactors :=
        join (operator, numeral) List.mem_cons_self
      rw [grow_cons_of_joinsFactors joins,
        inductionHypothesis fun other member =>
          join other (List.mem_cons_of_mem _ member)]
      rfl

/-- An operator that joins no factors completes what was read before it. -/
theorem grow_append {operator : Operator} (adds : ¬ operator.JoinsFactors)
    (steps later : List (Operator × Text)) (numeral : Text)
    (before : Before) (product : Tree) :
    grow before product (steps ++ (operator, numeral) :: later) =
      grow (.sum (grow before product steps) operator) (.operand numeral)
        later := by
  induction steps generalizing before product with
  | nil =>
      exact grow_cons_of_not_joinsFactors adds numeral later before product
  | cons step rest inductionHypothesis =>
      obtain ⟨first, firstNumeral⟩ := step
      rw [List.cons_append, grow, grow]
      split
      · exact inductionHypothesis before _
      · exact inductionHypothesis _ _

end Tree

namespace Row

def tree (row : Row) : Tree :=
  Tree.grow (if row.signed then .sign else .nothing) (.operand row.first)
    row.rest

end Row

private theorem exists_steps_iff {operator : Operator} {position : Nat}
    {lexemes : List Lexeme} {holds : List (Operator × Text) → Prop} :
    (∃ steps,
        (Lexeme.token (.operator operator) position :: lexemes).map
            Lexeme.token? =
          (stepsTokens steps).map some ∧
        holds steps) ↔
      ∃ numeral steps,
        lexemes.map Lexeme.token? =
            (Token.numeral numeral :: stepsTokens steps).map some ∧
          holds ((operator, numeral) :: steps) := by
  constructor
  · rintro ⟨steps, scanned, held⟩
    cases steps with
    | nil =>
        cases scanned
    | cons step rest =>
        obtain ⟨first, numeral⟩ := step
        simp only [stepsTokens_cons, List.map_cons, List.cons.injEq,
          Lexeme.token?, Option.some.injEq, Token.operator.injEq] at scanned
        obtain ⟨rfl, scanned⟩ := scanned
        exact ⟨numeral, rest, scanned, held⟩
  · rintro ⟨numeral, steps, scanned, held⟩
    refine ⟨(operator, numeral) :: steps, ?_, held⟩
    rw [List.map_cons, scanned]
    rfl

mutual

/-- What is read where an operand is needed. -/
theorem readOperand_eq_ok_iff {length : Nat} {before : Before}
    {factors : Factors} {tree : Tree} (lexemes : List Lexeme) :
    readOperand length before factors lexemes = .ok tree ↔
      ∃ numeral steps,
        lexemes.map Lexeme.token? =
            (Token.numeral numeral :: stepsTokens steps).map some ∧
          Tree.grow before (factors.append numeral) steps = tree := by
  cases lexemes with
  | nil =>
      simp [readOperand]
  | cons lexeme rest =>
      cases lexeme with
      | stray c position =>
          simp [readOperand, Lexeme.token?]
      | token found position =>
          cases found with
          | operator operator =>
              simp [readOperand, Lexeme.token?]
          | numeral numeral =>
              rw [readOperand, readOperator_eq_ok_iff rest]
              simp [Lexeme.token?, and_assoc]

/-- What is read after an operand. -/
theorem readOperator_eq_ok_iff {length : Nat} {before : Before}
    {product tree : Tree} (lexemes : List Lexeme) :
    readOperator length before product lexemes = .ok tree ↔
      ∃ steps,
        lexemes.map Lexeme.token? = (stepsTokens steps).map some ∧
          Tree.grow before product steps = tree := by
  cases lexemes with
  | nil =>
      simp [readOperator, Tree.grow]
  | cons lexeme rest =>
      cases lexeme with
      | stray c position =>
          simp only [readOperator, reduceCtorEq, false_iff]
          rintro ⟨steps, scanned, _⟩
          cases steps <;> cases scanned
      | token found position =>
          cases found with
          | numeral numeral =>
              simp only [readOperator, reduceCtorEq, false_iff]
              rintro ⟨steps, scanned, _⟩
              cases steps <;> cases scanned
          | operator operator =>
              rw [readOperator, exists_steps_iff]
              split
              case isTrue joins =>
                simp only [Tree.grow_cons_of_joinsFactors joins]
                exact readOperand_eq_ok_iff rest
              case isFalse adds =>
                simp only [Tree.grow_cons_of_not_joinsFactors adds]
                exact readOperand_eq_ok_iff rest

end

private theorem readNormal_eq_ok_iff_tokens {normal : Text} {tree : Tree} :
    readNormal normal = .ok tree ↔
      ∃ row : Row,
        (scan normal).map Lexeme.token? = row.tokens.map some ∧
          row.tree = tree := by
  unfold readNormal
  split
  case h_1 nothing =>
    simp only [nothing, reduceCtorEq, false_iff]
    rintro ⟨⟨signed, first, rest⟩, scanned, _⟩
    cases signed <;> cases scanned
  case h_2 position lexemes scans =>
    refine (readOperand_eq_ok_iff lexemes).trans ?_
    rw [scans]
    constructor
    · rintro ⟨numeral, steps, scanned, grown⟩
      refine ⟨⟨true, numeral, steps⟩, ?_, grown⟩
      rw [List.map_cons, scanned]
      rfl
    · rintro ⟨⟨signed, first, rest⟩, scanned, grown⟩
      cases signed with
      | false =>
          cases scanned
      | true =>
          exact ⟨first, rest, (List.cons.inj scanned).2, grown⟩
  case h_3 unsigned =>
    refine (readOperand_eq_ok_iff (scan normal)).trans ?_
    constructor
    · rintro ⟨numeral, steps, scanned, grown⟩
      exact ⟨⟨false, numeral, steps⟩, scanned, grown⟩
    · rintro ⟨⟨signed, first, rest⟩, scanned, grown⟩
      cases signed with
      | false =>
          exact ⟨first, rest, scanned, grown⟩
      | true =>
          obtain ⟨lexeme, lexemes, scans, isSign, _⟩ :=
            List.map_eq_cons_iff.mp scanned
          cases lexeme with
          | token found position =>
              cases isSign
              exact absurd scans (unsigned position lexemes)
          | stray c position =>
              cases isSign

/-- A normal expression is read if it is a row of numerals, and what is read is
the structure of this row. -/
theorem readNormal_eq_ok_iff_row {normal : Text} {tree : Tree} :
    readNormal normal = .ok tree ↔
      ∃ row : Row, row.Valid ∧ row.write = normal ∧ row.tree = tree := by
  rw [readNormal_eq_ok_iff_tokens]
  simp only [Row.tokens_scan_iff, and_assoc]

namespace Tree

theorem isSum_grow {before : Before} {product : Tree}
    (completes : ∀ tree, IsProduct tree → IsSum (before.complete tree))
    (isProduct : IsProduct product) (steps : List (Operator × Text))
    (valid : ∀ step ∈ steps, IsNumeral step.2) :
    IsSum (grow before product steps) := by
  induction steps generalizing before product with
  | nil =>
      exact completes product isProduct
  | cons step rest inductionHypothesis =>
      obtain ⟨operator, numeral⟩ := step
      have isNumeral : IsNumeral numeral :=
        valid (operator, numeral) List.mem_cons_self
      have validRest : ∀ step ∈ rest, IsNumeral step.2 :=
        fun step member => valid step (List.mem_cons_of_mem _ member)
      by_cases joins : operator.JoinsFactors
      · rw [grow_cons_of_joinsFactors joins]
        exact inductionHypothesis completes
          (.binary joins isProduct isNumeral) validRest
      · rw [grow_cons_of_not_joinsFactors joins]
        refine inductionHypothesis ?_ (.operand isNumeral) validRest
        intro tree treeIsProduct
        exact .binary joins (completes product isProduct) treeIsProduct

end Tree

def Before.tokens : Before → List Token
  | .nothing => []
  | .sign => [.operator .minus]
  | .sum left operator => left.tokens ++ [.operator operator]

theorem Before.tokens_complete (before : Before) (product : Tree) :
    (before.complete product).tokens = before.tokens ++ product.tokens := by
  cases before <;> simp [Before.complete, Before.tokens, Tree.tokens]

namespace Tree

theorem tokens_grow (before : Before) (product : Tree)
    (steps : List (Operator × Text)) :
    (grow before product steps).tokens =
      before.tokens ++ product.tokens ++ stepsTokens steps := by
  induction steps generalizing before product with
  | nil =>
      rw [grow, before.tokens_complete, stepsTokens_nil, List.append_nil]
  | cons step rest inductionHypothesis =>
      obtain ⟨operator, numeral⟩ := step
      by_cases joins : operator.JoinsFactors
      · rw [grow_cons_of_joinsFactors joins, inductionHypothesis]
        simp [tokens]
      · rw [grow_cons_of_not_joinsFactors joins, inductionHypothesis,
          Before.tokens, before.tokens_complete]
        simp [tokens]

/-- Every product is a numeral with further factors. -/
theorem IsProduct.exists_factors {tree : Tree} (isProduct : IsProduct tree) :
    ∃ first factors, IsNumeral first ∧
      (∀ factor ∈ factors,
        factor.1.JoinsFactors ∧ IsNumeral factor.2) ∧
      multiply (.operand first) factors = tree := by
  induction isProduct with
  | operand isNumeral =>
      exact ⟨_, [], isNumeral, nofun, rfl⟩
  | @binary operator left numeral joins _ isNumeral inductionHypothesis =>
      obtain ⟨first, factors, firstIsNumeral, valid, rfl⟩ :=
        inductionHypothesis
      refine ⟨first, factors ++ [(operator, numeral)], firstIsNumeral,
        ?_, ?_⟩
      · intro factor member
        rcases List.mem_append.mp member with old | new
        · exact valid factor old
        · rw [List.mem_singleton.mp new]
          exact ⟨joins, isNumeral⟩
      · rw [multiply, List.foldl_append]
        rfl

/-- Every sum is the structure of a row. -/
theorem IsSum.exists_row {tree : Tree} (isSum : IsSum tree) :
    ∃ row : Row, row.Valid ∧ row.tree = tree := by
  have ofProduct : ∀ {product : Tree}, IsProduct product →
      ∀ signed : Bool, ∃ row : Row, row.Valid ∧
        row.tree =
          (if signed then Before.sign else .nothing).complete product := by
    intro product isProduct signed
    obtain ⟨first, factors, isNumeral, valid, rfl⟩ :=
      isProduct.exists_factors
    refine ⟨⟨signed, first, factors⟩, (Row.valid_iff _).mpr
      ⟨isNumeral, fun factor member => (valid factor member).2⟩, ?_⟩
    exact grow_of_joinsFactors
      (fun factor member => (valid factor member).1) _ _
  induction isSum with
  | product isProduct =>
      exact ofProduct isProduct false
  | negate isProduct =>
      exact ofProduct isProduct true
  | @binary operator left right adds _ isProduct inductionHypothesis =>
      obtain ⟨row, valid, rfl⟩ := inductionHypothesis
      obtain ⟨first, factors, isNumeral, validFactors, rfl⟩ :=
        isProduct.exists_factors
      obtain ⟨validFirst, validRest⟩ := (Row.valid_iff row).mp valid
      refine ⟨⟨row.signed, row.first,
        row.rest ++ (operator, first) :: factors⟩, ?_, ?_⟩
      · refine (Row.valid_iff _).mpr ⟨validFirst, fun step member => ?_⟩
        rcases List.mem_append.mp member with old | new
        · exact validRest step old
        · rcases List.mem_cons.mp new with rfl | later
          · exact isNumeral
          · exact (validFactors step later).2
      · have grown := grow_append adds row.rest factors first
          (if row.signed then .sign else .nothing) (.operand row.first)
        refine grown.trans ?_
        exact grow_of_joinsFactors
          (fun factor member => (validFactors factor member).1) _ _

end Tree

namespace Row

theorem isSum_tree {row : Row} (valid : row.Valid) : row.tree.IsSum := by
  obtain ⟨first, rest⟩ := (valid_iff row).mp valid
  refine Tree.isSum_grow ?_ (.operand first) row.rest rest
  intro tree isProduct
  cases row.signed with
  | false =>
      exact .product isProduct
  | true =>
      exact .negate isProduct

/-- The structure of a row has the tokens of the row in their order. -/
theorem tokens_tree (row : Row) : row.tree.tokens = row.tokens := by
  unfold tree tokens
  rw [Tree.tokens_grow]
  cases row.signed <;> rfl

theorem print_tree (row : Row) : row.tree.print = row.write := by
  rw [Tree.print, tokens_tree, flatMap_text_tokens]

end Row

/-- A normal expression is read as a tree if this is a sum that prints it. -/
theorem readNormal_eq_ok_iff {normal : Text} {tree : Tree} :
    readNormal normal = .ok tree ↔ tree.IsSum ∧ tree.print = normal := by
  rw [readNormal_eq_ok_iff_row]
  constructor
  · rintro ⟨row, valid, rfl, rfl⟩
    exact ⟨row.isSum_tree valid, row.print_tree⟩
  · rintro ⟨isSum, rfl⟩
    obtain ⟨row, valid, rfl⟩ := isSum.exists_row
    exact ⟨row, valid, row.print_tree.symm, rfl⟩

end Expression

end CurrencyPad
