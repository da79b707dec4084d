import CurrencyPad.Expression.Token
import Mathlib.Data.List.TakeWhile

/-!
# Rows of numerals

A normal expression is a row of numerals with an operator between neighbours and
perhaps a minus sign before the first.  Scanning takes such a row apart into its
tokens, and whatever is taken apart into the tokens of a row is this row.
-/

namespace CurrencyPad.Expression

/-- One or more digits and perhaps a point with any digits after it, or a point
with one or more digits after it. -/
inductive IsNumeral : Text → Prop
  | whole {digits : Text} (nonempty : digits ≠ [])
      (all : ∀ c ∈ digits, Text.isAsciiDigit c = true) :
      IsNumeral digits
  | point {digits fraction : Text} (nonempty : digits ≠ [])
      (all : ∀ c ∈ digits, Text.isAsciiDigit c = true)
      (places : ∀ c ∈ fraction, Text.isAsciiDigit c = true) :
      IsNumeral (digits ++ '.' :: fraction)
  | bare {fraction : Text} (nonempty : fraction ≠ [])
      (places : ∀ c ∈ fraction, Text.isAsciiDigit c = true) :
      IsNumeral ('.' :: fraction)

/-- What holds of the ten digits and of a point holds of all characters of a
numeral. -/
theorem IsNumeral.forall_mem {numeral : Text}
    (isNumeral : IsNumeral numeral) {holds : Char → Prop}
    (ofDigit : ∀ c, Text.isAsciiDigit c = true → holds c)
    (ofPoint : holds '.') : ∀ c ∈ numeral, holds c := by
  intro c member
  cases isNumeral with
  | whole nonempty all =>
      exact ofDigit c (all c member)
  | point nonempty all places =>
      rcases List.mem_append.mp member with digit | member
      · exact ofDigit c (all c digit)
      · rcases List.mem_cons.mp member with rfl | place
        · exact ofPoint
        · exact ofDigit c (places c place)
  | bare nonempty places =>
      rcases List.mem_cons.mp member with rfl | place
      · exact ofPoint
      · exact ofDigit c (places c place)

theorem IsNumeral.ne_nil {numeral : Text} (isNumeral : IsNumeral numeral) :
    numeral ≠ [] := by
  cases isNumeral with
  | whole nonempty all =>
      exact nonempty
  | point nonempty all places =>
      exact List.append_ne_nil_of_left_ne_nil nonempty _
  | bare nonempty places =>
      exact List.cons_ne_nil _ _

/-- A numeral before which a minus sign may stand, and further numerals, each
with the operator before it. -/
structure Row where
  signed : Bool
  first : Text
  rest : List (Operator × Text)

def stepsText (steps : List (Operator × Text)) : Text :=
  steps.flatMap fun step => step.1.canonical :: step.2

def stepsTokens (steps : List (Operator × Text)) : List Token :=
  steps.flatMap fun step => [.operator step.1, .numeral step.2]

@[simp]
theorem stepsTokens_nil : stepsTokens [] = [] := rfl

@[simp]
theorem stepsTokens_cons (step : Operator × Text)
    (rest : List (Operator × Text)) :
    stepsTokens (step :: rest) =
      .operator step.1 :: .numeral step.2 :: stepsTokens rest := rfl

@[simp]
theorem stepsTokens_eq_nil_iff (steps : List (Operator × Text)) :
    stepsTokens steps = [] ↔ steps = [] := by
  cases steps <;> simp

namespace Row

def numerals (row : Row) : List Text :=
  row.first :: row.rest.map Prod.snd

def Valid (row : Row) : Prop :=
  ∀ numeral ∈ row.numerals, IsNumeral numeral

def write (row : Row) : Text :=
  Text.withSign row.signed (row.first ++ stepsText row.rest)

def tokens (row : Row) : List Token :=
  (if row.signed then [.operator .minus] else []) ++
    .numeral row.first :: stepsTokens row.rest

theorem valid_iff (row : Row) :
    row.Valid ↔
      IsNumeral row.first ∧ ∀ step ∈ row.rest, IsNumeral step.2 := by
  simp only [Valid, numerals, List.forall_mem_cons, List.forall_mem_map]

/-- What holds of digits, of a point and of operators holds of all characters
of a row. -/
theorem forall_mem_write {row : Row} (valid : row.Valid)
    {holds : Char → Prop}
    (ofDigit : ∀ c, Text.isAsciiDigit c = true → holds c)
    (ofPoint : holds '.')
    (ofOperator : ∀ operator : Operator, holds operator.canonical) :
    ∀ c ∈ row.write, holds c := by
  obtain ⟨first, rest⟩ := (valid_iff row).mp valid
  have unsigned : ∀ c ∈ row.first ++ stepsText row.rest, holds c := by
    intro c member
    rcases List.mem_append.mp member with inFirst | inRest
    · exact first.forall_mem ofDigit ofPoint c inFirst
    · obtain ⟨step, stepMember, inStep⟩ := List.mem_flatMap.mp inRest
      rcases List.mem_cons.mp inStep with rfl | inNumeral
      · exact ofOperator step.1
      · exact (rest step stepMember).forall_mem ofDigit ofPoint c inNumeral
  unfold write Text.withSign
  cases row.signed with
  | false =>
      exact unsigned
  | true =>
      exact List.forall_mem_cons.mpr ⟨ofOperator .minus, unsigned⟩

end Row

/-- A token whose text is a numeral if it is one. -/
def Token.IsValid : Token → Prop
  | .numeral digits => IsNumeral digits
  | .operator _ => True

/-- What comes next does not go on with a numeral. -/
def Ends (rest : Text) : Prop :=
  ∀ c ∈ rest.head?, Text.isAsciiDigit c = false ∧ c ≠ '.'

theorem ends_nil : Ends [] := by
  simp [Ends]

theorem ends_stepsText (steps : List (Operator × Text)) :
    Ends (stepsText steps) := by
  cases steps with
  | nil =>
      exact ends_nil
  | cons step rest =>
      obtain ⟨operator, numeral⟩ := step
      simp only [Ends, stepsText, List.flatMap_cons, List.cons_append,
        List.head?_cons, Option.mem_def, Option.some.injEq, forall_eq']
      cases operator <;> decide

theorem operatorOf?_eq_some_iff {c : Char} {operator : Operator} :
    Token.operatorOf? c = some operator ↔ c = operator.canonical := by
  constructor
  · intro spelled
    unfold Token.operatorOf? at spelled
    split_ifs at spelled <;> cases spelled <;> assumption
  · rintro rfl
    cases operator <;> rfl

private theorem takeWhile_of_ends {rest : Text} (ends : Ends rest) :
    rest.takeWhile Text.isAsciiDigit = [] ∧
      rest.dropWhile Text.isAsciiDigit = rest := by
  cases rest with
  | nil =>
      exact ⟨rfl, rfl⟩
  | cons c tail =>
      have stops : Text.isAsciiDigit c = false := (ends c rfl).1
      simp [stops]

theorem span_append {digits rest : Text}
    (all : ∀ c ∈ digits, Text.isAsciiDigit c = true)
    (stops : rest.takeWhile Text.isAsciiDigit = [] ∧
      rest.dropWhile Text.isAsciiDigit = rest) :
    (digits ++ rest).takeWhile Text.isAsciiDigit = digits ∧
      (digits ++ rest).dropWhile Text.isAsciiDigit = rest := by
  rw [List.takeWhile_append_of_pos all, List.dropWhile_append_of_pos all,
    stops.1, stops.2, List.append_nil]
  exact ⟨rfl, rfl⟩

theorem span_point (fraction : Text) :
    (('.' :: fraction : Text).takeWhile Text.isAsciiDigit = [] ∧
      ('.' :: fraction : Text).dropWhile Text.isAsciiDigit =
        '.' :: fraction) := by
  have stops : Text.isAsciiDigit '.' = false := by decide
  simp [stops]

/-- A whole numeral is taken where nothing goes on with it. -/
theorem leadingNumeral?_append {numeral rest : Text}
    (isNumeral : IsNumeral numeral) (ends : Ends rest) :
    Token.leadingNumeral? (numeral ++ rest) = some numeral := by
  have stops := takeWhile_of_ends ends
  unfold Token.leadingNumeral?
  cases isNumeral with
  | whole nonempty all =>
      obtain ⟨taken, left⟩ := span_append all stops
      rw [taken, left]
      split
      case h_1 tail =>
        exact absurd rfl (ends '.' rfl).2
      · simp [nonempty]
  | @point digits fraction nonempty all places =>
      obtain ⟨taken, left⟩ := span_append all (span_point (fraction ++ rest))
      obtain ⟨placesTaken, _⟩ := span_append places stops
      rw [List.append_assoc, List.cons_append, taken, left]
      simp [placesTaken, nonempty]
  | @bare fraction nonempty places =>
      obtain ⟨taken, left⟩ := span_point (fraction ++ rest)
      obtain ⟨placesTaken, _⟩ := span_append places stops
      rw [List.cons_append, taken, left]
      simp [placesTaken, nonempty]

private theorem all_takeWhile (text : Text) :
    ∀ c ∈ text.takeWhile Text.isAsciiDigit,
      Text.isAsciiDigit c = true :=
  fun _ member => List.mem_takeWhile_imp member

/-- What is taken as a numeral is one and stands at the start. -/
theorem isNumeral_of_leadingNumeral? {text numeral : Text}
    (taken : Token.leadingNumeral? text = some numeral) :
    IsNumeral numeral ∧ ∃ rest, text = numeral ++ rest := by
  have parts :
      text.takeWhile Text.isAsciiDigit ++
          text.dropWhile Text.isAsciiDigit = text :=
    List.takeWhile_append_dropWhile
  have digits := all_takeWhile text
  unfold Token.leadingNumeral? at taken
  generalize text.takeWhile Text.isAsciiDigit = whole at parts digits taken
  generalize text.dropWhile Text.isAsciiDigit = left at parts taken
  subst parts
  split at taken
  case h_1 tail =>
    dsimp only at taken
    have places := all_takeWhile tail
    have tailParts :
        tail.takeWhile Text.isAsciiDigit ++
            tail.dropWhile Text.isAsciiDigit = tail :=
      List.takeWhile_append_dropWhile
    generalize tail.takeWhile Text.isAsciiDigit = fraction
      at places tailParts taken
    generalize tail.dropWhile Text.isAsciiDigit = rest at tailParts
    subst tailParts
    split at taken
    · cases taken
    case isFalse nonempty =>
      cases taken
      refine ⟨?_, rest, by simp⟩
      cases whole with
      | nil =>
          exact .bare (by simpa using nonempty) places
      | cons c others =>
          exact .point (List.cons_ne_nil c others) digits places
  · dsimp only at taken
    split at taken
    · cases taken
    case isFalse nonempty =>
      cases taken
      exact ⟨.whole (by simpa using nonempty) digits, left, rfl⟩

/-- The operator that starts a text is its first token. -/
theorem leading?_operator (operator : Operator) (rest : Text) :
    Token.leading? (operator.canonical :: rest) =
      some (.operator operator) := by
  have noDigit : Text.isAsciiDigit operator.canonical = false := by
    cases operator <;> decide
  have noPoint : operator.canonical ≠ '.' := by
    cases operator <;> decide
  have noNumeral :
      Token.leadingNumeral? (operator.canonical :: rest) = none := by
    unfold Token.leadingNumeral?
    simp only [List.takeWhile_cons, List.dropWhile_cons, noDigit]
    split
    case h_1 point =>
      simp_all
    · rfl
  rw [Token.leading?, noNumeral]
  simp [operatorOf?_eq_some_iff.mpr rfl]

theorem leading?_numeral {numeral rest : Text}
    (isNumeral : IsNumeral numeral) (ends : Ends rest) :
    Token.leading? (numeral ++ rest) = some (.numeral numeral) := by
  rw [Token.leading?, leadingNumeral?_append isNumeral ends]

theorem isValid_of_leading? {text : Text} {token : Token}
    (starts : Token.leading? text = some token) :
    token.IsValid ∧ token.text ≠ [] ∧ ∃ rest, text = token.text ++ rest := by
  unfold Token.leading? at starts
  split at starts
  case h_1 numeral taken =>
    cases starts
    obtain ⟨isNumeral, atStart⟩ := isNumeral_of_leadingNumeral? taken
    exact ⟨isNumeral, isNumeral.ne_nil, atStart⟩
  · cases text with
    | nil =>
        cases starts
    | cons c rest =>
        obtain ⟨operator, spelled, rfl⟩ := Option.map_eq_some_iff.mp starts
        have same := operatorOf?_eq_some_iff.mp spelled
        rw [same]
        exact ⟨trivial, List.cons_ne_nil _ _, rest, rfl⟩

/-- The token that a lexeme is, unless it is a stray character. -/
def Lexeme.token? : Lexeme → Option Token
  | .token found _ => some found
  | .stray _ _ => none

theorem scanFrom_append (before : Nat) (inside rest : Text) :
    scanFrom before inside.length (inside ++ rest) =
      scanFrom (before + inside.length) 0 rest := by
  induction inside generalizing before with
  | nil =>
      rfl
  | cons c tail inductionHypothesis =>
      have next := inductionHypothesis (before + 1)
      rw [Nat.add_assoc, Nat.add_comm 1] at next
      exact next

/-- Scanning takes the token at the start and goes on after it. -/
theorem scanFrom_of_leading? {token : Token} {rest : Text}
    (starts : Token.leading? (token.text ++ rest) = some token)
    (before : Nat) :
    scanFrom before 0 (token.text ++ rest) =
      .token token (before + 1) ::
        scanFrom (before + token.text.length) 0 rest := by
  have nonempty := (isValid_of_leading? starts).2.1
  cases characters : token.text with
  | nil =>
      exact absurd characters nonempty
  | cons c tail =>
      rw [characters] at starts
      have next := scanFrom_append (before + 1) tail rest
      rw [Nat.add_assoc, Nat.add_comm 1] at next
      simp only [List.cons_append, scanFrom] at starts ⊢
      rw [starts]
      dsimp only
      rw [characters, List.length_cons, Nat.add_sub_cancel, next]

/-- Tokens without anything between them make up the text. -/
theorem text_of_scanFrom (tokens : List Token) {before : Nat} {text : Text}
    (scanned :
      (scanFrom before 0 text).map Lexeme.token? = tokens.map some) :
    tokens.flatMap Token.text = text ∧
      ∀ token ∈ tokens, token.IsValid := by
  induction tokens generalizing before text with
  | nil =>
      cases text with
      | nil =>
          exact ⟨rfl, nofun⟩
      | cons c rest =>
          unfold scanFrom at scanned
          split at scanned <;> cases scanned
  | cons token tokens inductionHypothesis =>
      cases text with
      | nil =>
          cases scanned
      | cons c tail =>
          cases starts : Token.leading? (c :: tail) with
          | none =>
              simp [scanFrom, starts, Lexeme.token?] at scanned
          | some first =>
              obtain ⟨valid, _, rest, parts⟩ := isValid_of_leading? starts
              rw [parts] at starts scanned ⊢
              rw [scanFrom_of_leading? starts] at scanned
              simp only [List.map_cons, List.cons.injEq, Lexeme.token?,
                Option.some.injEq] at scanned
              obtain ⟨rfl, scannedRest⟩ := scanned
              obtain ⟨sameRest, validRest⟩ :=
                inductionHypothesis scannedRest
              refine ⟨?_, ?_⟩
              · rw [List.flatMap_cons, sameRest]
              · intro other member
                rcases List.mem_cons.mp member with rfl | later
                · exact valid
                · exact validRest other later

private theorem scanFrom_operator (operator : Operator) (before : Nat)
    (rest : Text) :
    scanFrom before 0 (operator.canonical :: rest) =
      .token (.operator operator) (before + 1) ::
        scanFrom (before + 1) 0 rest :=
  have starts :
      Token.leading? ((Token.operator operator).text ++ rest) =
        some (.operator operator) :=
    leading?_operator operator rest
  scanFrom_of_leading? starts before

private theorem scanFrom_numeral {numeral rest : Text}
    (isNumeral : IsNumeral numeral) (ends : Ends rest) (before : Nat) :
    scanFrom before 0 (numeral ++ rest) =
      .token (.numeral numeral) (before + 1) ::
        scanFrom (before + numeral.length) 0 rest :=
  have starts :
      Token.leading? ((Token.numeral numeral).text ++ rest) =
        some (.numeral numeral) :=
    leading?_numeral isNumeral ends
  scanFrom_of_leading? starts before

private theorem tokens_scanFrom_steps (steps : List (Operator × Text))
    (valid : ∀ step ∈ steps, IsNumeral step.2) (before : Nat) :
    (scanFrom before 0 (stepsText steps)).map Lexeme.token? =
      (stepsTokens steps).map some := by
  induction steps generalizing before with
  | nil =>
      rfl
  | cons step rest inductionHypothesis =>
      obtain ⟨operator, numeral⟩ := step
      have isNumeral : IsNumeral numeral :=
        valid (operator, numeral) List.mem_cons_self
      have parts :
          stepsText ((operator, numeral) :: rest) =
            operator.canonical :: (numeral ++ stepsText rest) := rfl
      rw [parts, scanFrom_operator,
        scanFrom_numeral isNumeral (ends_stepsText rest), List.map_cons,
        List.map_cons,
        inductionHypothesis fun step member =>
          valid step (List.mem_cons_of_mem _ member)]
      rfl

private theorem tokens_scanFrom_numeral {numeral : Text}
    (isNumeral : IsNumeral numeral) {steps : List (Operator × Text)}
    (valid : ∀ step ∈ steps, IsNumeral step.2) (before : Nat) :
    (scanFrom before 0 (numeral ++ stepsText steps)).map Lexeme.token? =
      (Token.numeral numeral :: stepsTokens steps).map some := by
  rw [scanFrom_numeral isNumeral (ends_stepsText steps), List.map_cons,
    tokens_scanFrom_steps steps valid]
  rfl

namespace Row

theorem flatMap_text_tokens (row : Row) :
    row.tokens.flatMap Token.text = row.write := by
  have steps : (stepsTokens row.rest).flatMap Token.text =
      stepsText row.rest := by
    simp [stepsTokens, stepsText, List.flatMap_assoc, Token.text]
  unfold tokens write
  cases row.signed <;>
    simp [Text.withSign, Token.text, steps, Operator.canonical]

/-- A text is scanned into the tokens of a row if it is this row and its
numerals are numerals. -/
theorem tokens_scan_iff (row : Row) (text : Text) :
    (scan text).map Lexeme.token? = row.tokens.map some ↔
      row.Valid ∧ row.write = text := by
  constructor
  · intro scanned
    obtain ⟨sameText, valid⟩ := text_of_scanFrom row.tokens scanned
    refine ⟨(valid_iff row).mpr ⟨?_, ?_⟩, ?_⟩
    · exact valid (.numeral row.first) (by simp [tokens])
    · intro step member
      refine valid (.numeral step.2) ?_
      simp only [tokens, stepsTokens, List.mem_append, List.mem_cons,
        List.mem_flatMap]
      exact .inr (.inr ⟨step, member, by simp⟩)
    · rw [← flatMap_text_tokens]
      exact sameText
  · rintro ⟨valid, rfl⟩
    obtain ⟨first, rest⟩ := (valid_iff row).mp valid
    unfold scan write tokens
    cases row.signed with
    | false =>
        exact tokens_scanFrom_numeral first rest 0
    | true =>
        have sign :
            Text.withSign true (row.first ++ stepsText row.rest) =
              Operator.minus.canonical ::
                (row.first ++ stepsText row.rest) := rfl
        rw [sign, scanFrom_operator, List.map_cons,
          tokens_scanFrom_numeral first rest]
        rfl

end Row

end CurrencyPad.Expression
