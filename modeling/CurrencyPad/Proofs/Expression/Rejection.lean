import CurrencyPad.Proofs.Expression.LongestToken
import Mathlib.Data.List.Chain

/-!
# Rejected expressions

A text that is no expression has nothing to read, or it ends where an operand is
needed, or it holds a token or a character that cannot follow.  Reading reports
the first such place, and what stands before it can still be completed by a
digit or is complete.
-/

namespace CurrencyPad.Expression

def Token.isOperator : Token → Bool
  | .numeral _ => false
  | .operator _ => true

/-- Some row of numerals starts with the tokens. -/
def Begins (tokens : List Token) : Prop :=
  ∃ row : Row, row.Valid ∧ tokens <+: row.tokens

/-- The tokens are those of a row of numerals. -/
def IsRow (tokens : List Token) : Prop :=
  ∃ row : Row, row.Valid ∧ row.tokens = tokens

/-- After the tokens an operand is needed: there are none, or there is only a
sign, or an operator comes after a row of numerals. -/
inductive NeedsOperand : List Token → Prop
  | nothing :
      NeedsOperand []
  | sign :
      NeedsOperand [.operator .minus]
  | operator {tokens : List Token} (isRow : IsRow tokens)
      (operator : Operator) :
      NeedsOperand (tokens ++ [.operator operator])

/-- Neighbours in a row are a numeral and an operator. -/
theorem isChain_tokens (row : Row) :
    row.tokens.IsChain fun left right =>
      left.isOperator ≠ right.isOperator := by
  have steps : ∀ (numeral : Text) (rest : List (Operator × Text)),
      (Token.numeral numeral :: stepsTokens rest).IsChain
        fun left right => left.isOperator ≠ right.isOperator := by
    intro numeral rest
    induction rest generalizing numeral with
    | nil =>
        simp
    | cons step rest inductionHypothesis =>
        rw [stepsTokens_cons, List.isChain_cons_cons, List.isChain_cons_cons]
        exact ⟨Bool.false_ne_true, Bool.true_eq_false.mp,
          inductionHypothesis step.2⟩
  unfold Row.tokens
  cases row.signed with
  | false =>
      exact steps row.first row.rest
  | true =>
      apply List.IsChain.cons_cons
      · exact Bool.true_eq_false.mp
      · exact steps row.first row.rest

/-- Two numerals, or two operators, never follow each other. -/
theorem not_begins_of_same_kind {left right : Token}
    (same : left.isOperator = right.isOperator) (front : List Token) :
    ¬ Begins (front ++ [left] ++ [right]) := by
  rintro ⟨row, _, more, parts⟩
  have neighbours := List.isChain_iff_forall_rel_of_append_cons_cons.mp
    (isChain_tokens row)
  have adjacent : row.tokens = front ++ left :: right :: more := by
    simp [← parts]
  exact neighbours adjacent same

/-- A row starts with no operator but a sign. -/
theorem not_begins_operator {operator : Operator}
    (noSign : operator ≠ .minus) : ¬ Begins [.operator operator] := by
  rintro ⟨⟨signed, first, rest⟩, _, more, parts⟩
  cases signed with
  | false =>
      cases parts
  | true =>
      cases parts
      exact noSign rfl

theorem IsRow.exists_concat {tokens : List Token} (isRow : IsRow tokens) :
    ∃ front numeral, tokens = front ++ [.numeral numeral] := by
  obtain ⟨⟨signed, first, rest⟩, _, rfl⟩ := isRow
  rcases List.eq_nil_or_concat rest with rfl | ⟨init, step, rfl⟩
  · exact ⟨_, first, rfl⟩
  · refine ⟨(if signed then [.operator .minus] else []) ++
      .numeral first :: stepsTokens init ++ [.operator step.1], step.2, ?_⟩
    simp [Row.tokens, stepsTokens]

namespace NeedsOperand

variable {tokens : List Token}

/-- A numeral completes a row where an operand is needed. -/
theorem concat (needs : NeedsOperand tokens) {numeral : Text}
    (isNumeral : IsNumeral numeral) :
    IsRow (tokens ++ [.numeral numeral]) := by
  cases needs with
  | nothing =>
      exact ⟨⟨false, numeral, []⟩, (Row.valid_iff _).mpr ⟨isNumeral, nofun⟩,
        rfl⟩
  | sign =>
      exact ⟨⟨true, numeral, []⟩, (Row.valid_iff _).mpr ⟨isNumeral, nofun⟩,
        rfl⟩
  | operator isRow operator =>
      obtain ⟨row, valid, rfl⟩ := isRow
      obtain ⟨first, rest⟩ := (Row.valid_iff row).mp valid
      refine ⟨⟨row.signed, row.first, row.rest ++ [(operator, numeral)]⟩,
        (Row.valid_iff _).mpr ⟨first, ?_⟩, ?_⟩
      · intro step member
        rcases List.mem_append.mp member with old | new
        · exact rest step old
        · rw [List.mem_singleton.mp new]
          exact isNumeral
      · simp [Row.tokens, stepsTokens]

theorem begins (needs : NeedsOperand tokens) : Begins tokens := by
  have zero : IsNumeral ['0'] :=
    .whole (by decide) (List.all_eq_true.mp (by decide))
  obtain ⟨row, valid, parts⟩ := needs.concat zero
  exact ⟨row, valid, [.numeral ['0']], parts.symm⟩

/-- Where an operand is needed no operator follows but a sign at the start. -/
theorem not_begins (needs : NeedsOperand tokens) {operator : Operator}
    (noSign : tokens = [] → operator ≠ .minus) :
    ¬ Begins (tokens ++ [.operator operator]) := by
  cases needs with
  | nothing =>
      exact not_begins_operator (noSign rfl)
  | sign =>
      apply not_begins_of_same_kind _ []
      rfl
  | operator isRow other =>
      apply not_begins_of_same_kind
      rfl

end NeedsOperand

/-- Why and where the reading of a normal text that is not empty stops. -/
inductive Stops (normal : Text) : ReadingError → Prop
  | incomplete {tokens : List Token} (scanned : Scanned normal tokens [])
      (needs : NeedsOperand tokens) :
      Stops normal (.incomplete normal.length)
  | token {tokens : List Token} {rest : Text} {token : Token}
      (scanned : Scanned normal tokens rest)
      (before : NeedsOperand tokens ∨ IsRow tokens)
      (longest : token.IsLongest rest)
      (cannotFollow : ¬ Begins (tokens ++ [token])) :
      Stops normal
        (.unexpectedToken token ((tokens.flatMap Token.text).length + 1))
  | stray {tokens : List Token} {rest : Text} {c : Char}
      (scanned : Scanned normal tokens rest)
      (before : NeedsOperand tokens ∨ IsRow tokens)
      (noneStarts : Token.NoneStarts rest) (first : rest.head? = some c) :
      Stops normal
        (.strayCharacter c ((tokens.flatMap Token.text).length + 1))

private theorem length_flatMap_concat (tokens : List Token) (token : Token) :
    ((tokens ++ [token]).flatMap Token.text).length =
      (tokens.flatMap Token.text).length + token.text.length := by
  simp

mutual

theorem stops_of_readOperand {normal rest : Text} {tokens : List Token}
    {before : Before} {factors : Factors} {error : ReadingError}
    (lexemes : List Lexeme) (scanned : Scanned normal tokens rest)
    (needs : NeedsOperand tokens)
    (scans : scanFrom (tokens.flatMap Token.text).length 0 rest = lexemes)
    (noSign : tokens = [] → ∀ position later,
      lexemes ≠ .token (.operator .minus) position :: later)
    (failed : readOperand normal.length before factors lexemes =
      .error error) : Stops normal error := by
  cases lexemes with
  | nil =>
      cases failed
      rw [scanFrom_eq_nil_iff.mp scans] at scanned
      exact .incomplete scanned needs
  | cons lexeme later =>
      cases lexeme with
      | stray c position =>
          cases failed
          obtain ⟨rfl, noneStarts, first⟩ := scanFrom_eq_stray scans
          exact .stray scanned (.inl needs) noneStarts first
      | token found position =>
          obtain ⟨rfl, longest, left, parts, more⟩ := scanFrom_eq_token scans
          cases found with
          | operator operator =>
              cases failed
              refine .token scanned (.inl needs) longest (needs.not_begins ?_)
              rintro none rfl
              exact noSign none _ _ rfl
          | numeral numeral =>
              rw [← length_flatMap_concat] at more
              exact stops_of_readOperator later
                (scanned.concat longest parts) (needs.concat longest.valid)
                more.symm failed

theorem stops_of_readOperator {normal rest : Text} {tokens : List Token}
    {before : Before} {product : Tree} {error : ReadingError}
    (lexemes : List Lexeme) (scanned : Scanned normal tokens rest)
    (isRow : IsRow tokens)
    (scans : scanFrom (tokens.flatMap Token.text).length 0 rest = lexemes)
    (failed : readOperator normal.length before product lexemes =
      .error error) : Stops normal error := by
  cases lexemes with
  | nil =>
      cases failed
  | cons lexeme later =>
      cases lexeme with
      | stray c position =>
          cases failed
          obtain ⟨rfl, noneStarts, first⟩ := scanFrom_eq_stray scans
          exact .stray scanned (.inr isRow) noneStarts first
      | token found position =>
          obtain ⟨rfl, longest, left, parts, more⟩ := scanFrom_eq_token scans
          cases found with
          | numeral numeral =>
              cases failed
              refine .token scanned (.inr isRow) longest ?_
              obtain ⟨front, last, rfl⟩ := isRow.exists_concat
              apply not_begins_of_same_kind
              rfl
          | operator operator =>
              have needs : NeedsOperand (tokens ++ [.operator operator]) :=
                .operator isRow operator
              have next := scanned.concat longest parts
              have noSign : tokens ++ [.operator operator] = [] →
                  ∀ position others,
                    later ≠ .token (.operator .minus) position :: others :=
                fun none => absurd none (by simp)
              rw [← length_flatMap_concat] at more
              rw [readOperator] at failed
              split at failed
              · exact stops_of_readOperand later next needs more.symm noSign
                  failed
              · exact stops_of_readOperand later next needs more.symm noSign
                  failed

end

/-- Reading says of an empty text that there is nothing to read, and of any other
one that is no expression where it stops. -/
theorem stops_of_readNormal {normal : Text} {error : ReadingError}
    (failed : readNormal normal = .error error) :
    (normal = [] ∧ error = .empty) ∨ (normal ≠ [] ∧ Stops normal error) := by
  have empty : scan normal = [] ↔ normal = [] := scanFrom_eq_nil_iff
  unfold readNormal at failed
  split at failed
  case h_1 nothing =>
    cases failed
    exact .inl ⟨empty.mp nothing, rfl⟩
  case h_2 position lexemes scans =>
    obtain ⟨_, longest, later, parts, more⟩ := scanFrom_eq_token scans
    refine .inr ⟨fun none => ?_, ?_⟩
    · rw [empty.mpr none] at scans
      cases scans
    · exact stops_of_readOperand lexemes
        (Scanned.done.concat longest parts) .sign more.symm nofun failed
  case h_3 some unsigned =>
    refine .inr ⟨fun none => some (empty.mpr none), ?_⟩
    exact stops_of_readOperand (scan normal) .done .nothing rfl
      (fun _ => unsigned) failed

namespace ReadingError

/-- What is told to the user: the reason and the place. -/
def report (error : ReadingError) : String × Nat :=
  (error.reason, error.position)

private theorem head?_append {start : String} {c : Char}
    (first : start.toList.head? = some c) (rest : String) :
    (start ++ rest).toList.head? = some c := by
  rw [String.toList_append, List.head?_append, first, Option.some_or]

/-- The other reasons start with capital letters. -/
private theorem head?_reason (error : ReadingError) :
    error = .empty ∨ (∃ length, error = .incomplete length) ∨
      error.reason.toList.head? = some 'U' ∨
      error.reason.toList.head? = some 'N' := by
  cases error with
  | empty =>
      exact .inl rfl
  | incomplete length =>
      exact .inr (.inl ⟨length, rfl⟩)
  | unexpectedToken token position =>
      right; right; left
      unfold reason
      repeat apply head?_append
      decide
  | strayCharacter c position =>
      right; right; right
      unfold reason
      repeat apply head?_append
      decide

theorem report_eq_empty_iff {error : ReadingError} :
    error.report = ("empty expression", 0) ↔ error = .empty := by
  constructor
  · intro same
    have reasons : error.reason = "empty expression" :=
      congrArg Prod.fst same
    rcases error.head?_reason with empty | ⟨length, rfl⟩ | other
    · exact empty
    · have different : "incomplete expression" ≠ "empty expression" := by
        decide
      exact absurd reasons different
    · rw [reasons] at other
      exact absurd other (by decide)
  · rintro rfl
    rfl

theorem report_eq_incomplete_iff {error : ReadingError} {length : Nat} :
    error.report = ("incomplete expression", length) ↔
      error = .incomplete length := by
  constructor
  · intro same
    have reasons : error.reason = "incomplete expression" :=
      congrArg Prod.fst same
    rcases error.head?_reason with rfl | ⟨other, rfl⟩ | different
    · exact absurd reasons (by decide)
    · exact congrArg incomplete (congrArg Prod.snd same)
    · rw [reasons] at different
      exact absurd different (by decide)
  · rintro rfl
    rfl

end ReadingError

/-- A normal text that is read as it is, or as soon as any digit follows it. -/
def Viable (front : Text) : Prop :=
  (∃ tree, read Locale.default front = .ok tree) ∨
    ∀ digit, Text.isAsciiDigit digit = true →
      ∃ tree, read Locale.default (front ++ [digit]) = .ok tree

theorem IsRow.exists_read {tokens : List Token} (isRow : IsRow tokens) :
    ∃ tree,
      read Locale.default (tokens.flatMap Token.text) = .ok tree := by
  obtain ⟨row, valid, rfl⟩ := isRow
  refine ⟨row.tree, readNormal_eq_ok_iff_row.mpr ⟨row, valid, ?_, rfl⟩⟩
  rw [row.flatMap_text_tokens, normalize_default_write valid]

theorem viable_of_tokens {tokens : List Token}
    (before : NeedsOperand tokens ∨ IsRow tokens) :
    Viable (tokens.flatMap Token.text) := by
  rcases before with needs | isRow
  · right
    intro digit ascii
    have isNumeral : IsNumeral [digit] :=
      .whole (by simp) (by simpa using ascii)
    have isRead := (needs.concat isNumeral).exists_read
    rw [List.flatMap_append] at isRead
    exact isRead
  · exact .inl isRow.exists_read

/-- Where an operand is needed at the end of the text, this is what is
reported. -/
theorem Stops.eq_incomplete {normal : Text} {error : ReadingError}
    (stops : Stops normal error) {all : List Token}
    (toEnd : Scanned normal all []) (needs : NeedsOperand all) :
    error = .incomplete normal.length := by
  cases stops with
  | incomplete _ _ =>
      rfl
  | @token tokens rest token scanned before longest cannotFollow =>
      obtain ⟨next, more, rfl, nextLongest⟩ :=
        scanned.exists_next toEnd longest.ne_nil
      obtain ⟨row, valid, starts⟩ := needs.begins
      rw [nextLongest.unique longest] at starts
      refine absurd ⟨row, valid, List.IsPrefix.trans ?_ starts⟩ cannotFollow
      exact ⟨more, by simp⟩
  | @stray tokens rest c scanned before noneStarts first =>
      have some : rest ≠ [] := by
        rintro rfl
        cases first
      obtain ⟨next, more, _, nextLongest⟩ := scanned.exists_next toEnd some
      exact absurd nextLongest.starts (noneStarts next nextLongest.valid)

/-- The place after some tokens, counted from 1, divides the text. -/
private theorem place_spec {normal rest : Text} {tokens : List Token}
    (scanned : Scanned normal tokens rest) (some : rest ≠ [])
    (before : NeedsOperand tokens ∨ IsRow tokens) :
    let place := (tokens.flatMap Token.text).length + 1
    1 ≤ place ∧ place ≤ normal.length ∧ Viable (normal.take (place - 1)) ∧
      normal.drop (place - 1) = rest := by
  have parts := scanned.text_eq
  have left := List.length_pos_iff.mpr some
  subst parts
  refine ⟨Nat.le_add_left 1 _, ?_, ?_, ?_⟩
  · rw [List.length_append]
    omega
  · rw [Nat.add_sub_cancel, List.take_left]
    exact viable_of_tokens before
  · rw [Nat.add_sub_cancel, List.drop_left]

/-- What is reported of a text that is no expression.  Nothing to read is reported
at the place 0, and exactly of an empty normal form; an incomplete expression
after the last place, and exactly where the tokens of the text follow each other
and an operand is needed in the end.  Anything else is reported at the first token
or character that cannot follow, and what stands before it is viable. -/
theorem report_of_read_eq_error {locale : Locale} {text : Text}
    {error : ReadingError} (failed : read locale text = .error error) :
    let normal := normalize locale text
    let place := error.position
    (error.report = ("empty expression", 0) ↔ normal = []) ∧
      (error.report = ("incomplete expression", normal.length) ↔
        normal ≠ [] ∧
          ∃ tokens, Scanned normal tokens [] ∧ NeedsOperand tokens) ∧
      (error.report ≠ ("empty expression", 0) →
        error.report ≠ ("incomplete expression", normal.length) →
          1 ≤ place ∧ place ≤ normal.length ∧
            Viable (normal.take (place - 1)) ∧
            ∃ tokens, Scanned normal tokens (normal.drop (place - 1)) ∧
              ((∃ token, error = .unexpectedToken token place ∧
                  token.IsLongest (normal.drop (place - 1)) ∧
                  ¬ Begins (tokens ++ [token])) ∨
                ∃ c, error = .strayCharacter c place ∧
                  Token.NoneStarts (normal.drop (place - 1)) ∧
                  (normal.drop (place - 1)).head? = some c)) := by
  intro normal place
  rw [ReadingError.report_eq_empty_iff, ReadingError.report_eq_incomplete_iff]
  rcases stops_of_readNormal failed with ⟨empty, rfl⟩ | ⟨some, stops⟩
  · refine ⟨iff_of_true rfl empty, ?_, fun notEmpty => absurd rfl notEmpty⟩
    exact iff_of_false nofun fun nonempty => nonempty.1 empty
  · have notEmpty : error ≠ .empty := by
      rintro rfl
      cases stops
    refine ⟨iff_of_false notEmpty some, ⟨?_, ?_⟩, fun _ unfinished => ?_⟩
    · rintro rfl
      cases stops with
      | incomplete scanned needs =>
          exact ⟨some, _, scanned, needs⟩
    · rintro ⟨_, tokens, scanned, needs⟩
      exact stops.eq_incomplete scanned needs
    · cases stops with
      | incomplete _ _ =>
          exact absurd rfl unfinished
      | token scanned before longest cannotFollow =>
          obtain ⟨least, most, viable, rfl⟩ :=
            place_spec scanned longest.ne_nil before
          exact ⟨least, most, viable, _, scanned,
            .inl ⟨_, rfl, longest, cannotFollow⟩⟩
      | @stray tokens rest c scanned before noneStarts first =>
          have nonempty : rest ≠ [] := by
            rintro rfl
            cases first
          obtain ⟨least, most, viable, rfl⟩ :=
            place_spec scanned nonempty before
          exact ⟨least, most, viable, _, scanned,
            .inr ⟨_, rfl, noneStarts, first⟩⟩

/-- A second numeral right after the first is found at its first character, and
the text before it is an expression. -/
theorem report_of_read_two_numerals :
    let error : ReadingError := .unexpectedToken (.numeral ".3".toList) 6
    read Locale.default "2×1.2.3".toList = .error error ∧
      error.report ≠ ("incomplete expression", 7) ∧
      Viable "2*1.2".toList ∧
      ∃ tokens, Scanned "2*1.2.3".toList tokens ".3".toList ∧
        ¬ Begins (tokens ++ [.numeral ".3".toList]) := by
  intro error
  have failed : read Locale.default "2×1.2.3".toList =
      .error (.unexpectedToken (.numeral ".3".toList) 6) := by
    decide +kernel
  have isNormal : normalize Locale.default "2×1.2.3".toList =
      "2*1.2.3".toList := by
    decide
  have report := report_of_read_eq_error failed
  dsimp only at report
  rw [isNormal] at report
  obtain ⟨empty, _, place⟩ := report
  have notEmpty : error.report ≠ ("empty expression", 0) := fun reported =>
    absurd (empty.mp reported) (by decide)
  have notIncomplete : error.report ≠ ("incomplete expression", 7) := by
    rw [ne_eq, ReadingError.report_eq_incomplete_iff]
    show ReadingError.unexpectedToken (.numeral ".3".toList) 6 ≠ .incomplete 7
    decide
  obtain ⟨_, _, viable, tokens, scanned, stray⟩ :=
    place notEmpty notIncomplete
  refine ⟨failed, notIncomplete, viable, tokens, scanned, ?_⟩
  rcases stray with ⟨token, same, _, cannotFollow⟩ | ⟨c, same, _⟩
  · cases same
    exact cannotFollow
  · cases same

end CurrencyPad.Expression
