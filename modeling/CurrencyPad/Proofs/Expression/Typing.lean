import CurrencyPad.Expression.Edit
import CurrencyPad.Proofs.Expression.Language
import Mathlib.Data.List.Chain

/-!
# Typed expressions

While an expression is typed it is a line of operands, each finished by the
operator after it but the last, which may be empty.  Every edit makes such a line
of such a line.  In the end the expression is read unless it is empty or ends in
an operator.
-/

namespace CurrencyPad

namespace Text

theorem withSign_append (negative : Bool) (text more : Text) :
    withSign negative (text ++ more) = withSign negative text ++ more := by
  cases negative <;> rfl

end Text

namespace Operator

@[simp]
theorem ofChar?_glyph (operator : Operator) :
    ofChar? operator.glyph = some operator := by
  cases operator <;> decide

@[simp]
theorem isSpelling_glyph (operator : Operator) :
    isSpelling operator.glyph = true := by
  rw [isSpelling, ofChar?_glyph]
  rfl

/-- No digit spells an operator. -/
theorem isSpelling_eq_false_of_isDigit {c : Char}
    (digit : Text.isDigit c = true) : isSpelling c = false := by
  cases spelled : ofChar? c with
  | none =>
      simp [isSpelling, spelled]
  | some operator =>
      have noDigit : (!Text.isDigit c) = true :=
        of_ofChar? (fun d => !Text.isDigit d) (by decide) spelled
      rw [digit] at noDigit
      cases noDigit

end Operator

namespace Expression

/-- A number as it is typed: a digit, further digits and at most one
separator. -/
structure IsOperand (digit : Char → Prop) (separator : Char)
    (text : Text) : Prop where
  starts : ∃ c ∈ text.head?, digit c
  characters : ∀ c ∈ text, digit c ∨ c = separator
  once : text.count separator ≤ 1

/-- What can be typed: digits, and a separator that is neither a digit nor an
operator. -/
structure Alphabet (digit : Char → Prop) (separator : Char) : Prop where
  digits : ∀ c, digit c → Text.isDigit c = true
  noDigit : Text.isDigit separator = false
  noOperator : Operator.isSpelling separator = false

theorem Alphabet.not_digit {digit : Char → Prop} {separator : Char}
    (alphabet : Alphabet digit separator) : ¬ digit separator := by
  intro typed
  have isDigit := alphabet.digits separator typed
  rw [alphabet.noDigit] at isDigit
  cases isDigit

theorem Alphabet.not_mem_of_digits {digit : Char → Prop} {separator : Char}
    (alphabet : Alphabet digit separator) {text : Text}
    (all : ∀ c ∈ text, digit c) : separator ∉ text :=
  fun member => alphabet.not_digit (all separator member)

/-- An expression while it is typed: perhaps a sign, operands with the operators
after them, and the operand being typed. -/
structure Line where
  signed : Bool
  done : List (Text × Operator)
  last : Text

/-- Operands, each with the operator after it. -/
def doneText (done : List (Text × Operator)) : Text :=
  done.flatMap fun step => step.1 ++ [step.2.glyph]

def Line.front (line : Line) : Text :=
  Text.withSign line.signed (doneText line.done)

def Line.write (line : Line) : Text :=
  line.front ++ line.last

/-- Only the operand being typed may be empty. -/
structure Line.Valid (digit : Char → Prop) (separator : Char)
    (line : Line) : Prop where
  done : ∀ step ∈ line.done, IsOperand digit separator step.1
  last : line.last = [] ∨ IsOperand digit separator line.last

variable {digit : Char → Prop} {separator : Char}

namespace IsOperand

theorem ne_nil {text : Text} (operand : IsOperand digit separator text) :
    text ≠ [] := by
  rintro rfl
  obtain ⟨c, member, _⟩ := operand.starts
  cases member

private theorem starts_append {text : Text}
    (operand : IsOperand digit separator text) (more : Text) :
    ∃ c ∈ (text ++ more).head?, digit c := by
  obtain ⟨first, isFirst, typed⟩ := operand.starts
  refine ⟨first, ?_, typed⟩
  rw [List.head?_append, Option.mem_def.mp isFirst]
  rfl

theorem not_isSpelling (alphabet : Alphabet digit separator) {text : Text}
    (operand : IsOperand digit separator text) :
    ∀ c ∈ text, Operator.isSpelling c = false := by
  intro c member
  rcases operand.characters c member with isDigit | rfl
  · exact Operator.isSpelling_eq_false_of_isDigit
      (alphabet.digits c isDigit)
  · exact alphabet.noOperator

/-- A digit and further digits make an operand. -/
theorem of_digits (alphabet : Alphabet digit separator) {whole : Text}
    (nonempty : whole ≠ []) (all : ∀ c ∈ whole, digit c) :
    IsOperand digit separator whole := by
  obtain ⟨first, rest, rfl⟩ := List.exists_cons_of_ne_nil nonempty
  refine ⟨⟨first, rfl, all first List.mem_cons_self⟩,
    fun c member => .inl (all c member), ?_⟩
  rw [List.count_eq_zero_of_not_mem (alphabet.not_mem_of_digits all)]
  exact Nat.zero_le 1

theorem append_digit (alphabet : Alphabet digit separator) {text : Text}
    (before : text = [] ∨ IsOperand digit separator text) {c : Char}
    (typed : digit c) : IsOperand digit separator (text ++ [c]) := by
  have different : c ≠ separator := by
    rintro rfl
    exact alphabet.not_digit typed
  rcases before with rfl | operand
  · exact of_digits alphabet (List.cons_ne_nil c []) (by simpa using typed)
  · refine ⟨operand.starts_append [c], ?_, ?_⟩
    · intro d member
      rcases List.mem_append.mp member with old | new
      · exact operand.characters d old
      · exact .inl (List.mem_singleton.mp new ▸ typed)
    · simpa [List.count_append, different] using operand.once

theorem append_separator {text : Text}
    (operand : IsOperand digit separator text)
    (absent : separator ∉ text) :
    IsOperand digit separator (text ++ [separator]) := by
  refine ⟨operand.starts_append [separator], ?_, ?_⟩
  · intro d member
    rcases List.mem_append.mp member with old | new
    · exact operand.characters d old
    · exact .inr (List.mem_singleton.mp new)
  · simp [List.count_append, List.count_eq_zero_of_not_mem absent]

/-- Digits, a separator and any digits after it make an operand. -/
theorem of_point (alphabet : Alphabet digit separator)
    {whole fraction : Text} (nonempty : whole ≠ [])
    (all : ∀ c ∈ whole, digit c) (places : ∀ c ∈ fraction, digit c) :
    IsOperand digit separator (whole ++ separator :: fraction) := by
  have begun := (of_digits alphabet nonempty all).append_separator
    (alphabet.not_mem_of_digits all)
  have extended : ∀ (more text : Text), IsOperand digit separator text →
      (∀ c ∈ more, digit c) → IsOperand digit separator (text ++ more) := by
    intro more
    induction more with
    | nil =>
        intro text operand _
        rw [List.append_nil]
        exact operand
    | cons c rest inductionHypothesis =>
        intro text operand typed
        rw [List.forall_mem_cons] at typed
        have next := inductionHypothesis (text ++ [c])
          (append_digit alphabet (.inr operand) typed.1) typed.2
        rw [List.append_assoc] at next
        exact next
  have whole := extended fraction _ begun places
  rw [List.append_assoc] at whole
  exact whole

theorem dropLast {text : Text} (operand : IsOperand digit separator text) :
    text.dropLast = [] ∨ IsOperand digit separator text.dropLast := by
  by_cases empty : text.dropLast = []
  · exact .inl empty
  · right
    obtain ⟨first, isFirst, firstTyped⟩ := operand.starts
    refine ⟨⟨first, ?_, firstTyped⟩, ?_, ?_⟩
    · obtain ⟨c, rest, rfl⟩ := List.exists_cons_of_ne_nil operand.ne_nil
      cases rest with
      | nil =>
          exact absurd rfl empty
      | cons d others =>
          exact isFirst
    · intro c member
      exact operand.characters c (text.dropLast_sublist.mem member)
    · exact (text.dropLast_sublist.count_le separator).trans operand.once

end IsOperand

namespace Line

theorem doneText_append (done : List (Text × Operator)) (text : Text)
    (operator : Operator) :
    doneText (done ++ [(text, operator)]) =
      doneText done ++ text ++ [operator.glyph] := by
  simp [doneText]

/-- Of two neighbours one is no operator. -/
def Apart (left right : Char) : Prop :=
  Operator.isSpelling left = false ∨ Operator.isSpelling right = false

private theorem isChain_append {text tail : Text}
    (noOperator : ∀ c ∈ text, Operator.isSpelling c = false)
    (apart : tail.IsChain Apart) : (text ++ tail).IsChain Apart := by
  induction text with
  | nil =>
      exact apart
  | cons c rest inductionHypothesis =>
      rw [List.forall_mem_cons] at noOperator
      exact List.isChain_cons.mpr
        ⟨fun _ _ => .inl noOperator.1, inductionHypothesis noOperator.2⟩

private theorem isChain_doneText_append
    (alphabet : Alphabet digit separator) {done : List (Text × Operator)}
    {last : Text}
    (validDone : ∀ step ∈ done, IsOperand digit separator step.1)
    (validLast : last = [] ∨ IsOperand digit separator last) :
    (doneText done ++ last).IsChain Apart ∧
      ∀ c ∈ (doneText done ++ last).head?,
        Operator.isSpelling c = false := by
  -- What is left of a line without its first operand and operator begins
  -- with no operator again.
  induction done with
  | nil =>
      rcases validLast with rfl | operand
      · exact ⟨.nil, nofun⟩
      · have noOperator := operand.not_isSpelling alphabet
        refine ⟨?_, fun c first =>
          noOperator c (List.mem_of_mem_head? first)⟩
        have apart : (last ++ []).IsChain Apart :=
          isChain_append noOperator .nil
        rw [List.append_nil] at apart
        exact apart
  | cons step rest inductionHypothesis =>
      rw [List.forall_mem_cons] at validDone
      obtain ⟨apart, firsts⟩ := inductionHypothesis validDone.2
      have noOperator := validDone.1.not_isSpelling alphabet
      have split : doneText (step :: rest) ++ last =
          step.1 ++ (step.2.glyph :: (doneText rest ++ last)) := by
        simp [doneText]
      rw [split]
      refine ⟨isChain_append noOperator
        (List.isChain_cons.mpr ⟨fun c first => .inr (firsts c first),
          apart⟩), ?_⟩
      intro c first
      obtain ⟨head, tail, isHead⟩ :=
        List.exists_cons_of_ne_nil validDone.1.ne_nil
      rw [isHead] at first noOperator
      rw [← Option.some.inj first]
      exact noOperator head List.mem_cons_self

/-- No operator stands beside another one, and none but a minus sign stands at
the start. -/
theorem isChain_write (alphabet : Alphabet digit separator) {line : Line}
    (valid : line.Valid digit separator) :
    line.write.IsChain Apart ∧
      ∀ c ∈ line.write.head?,
        Operator.isSpelling c = true → c = Operator.minus.glyph := by
  obtain ⟨signed, done, last⟩ := line
  obtain ⟨apart, firsts⟩ :=
    isChain_doneText_append alphabet valid.done valid.last
  have shape : Line.write ⟨signed, done, last⟩ =
      Text.withSign signed (doneText done ++ last) :=
    (Text.withSign_append signed (doneText done) last).symm
  rw [shape]
  cases signed with
  | false =>
      refine ⟨apart, fun c first isOperator => ?_⟩
      rw [firsts c first] at isOperator
      cases isOperator
  | true =>
      exact ⟨List.isChain_cons.mpr
          ⟨fun c first => .inr (firsts c first), apart⟩,
        fun c first _ => (Option.some.inj first).symm⟩

/-- Before the operand being typed there is nothing, a sign, or an operator after
an operand. -/
theorem front_cases (line : Line) :
    (line.done = [] ∧ line.signed = false ∧ line.front = []) ∨
      (line.done = [] ∧ line.signed = true ∧
        line.front = [Operator.minus.glyph]) ∨
      ∃ done text operator,
        line.done = done ++ [(text, operator)] ∧
          line.front =
            Text.withSign line.signed (doneText done) ++ text ++
              [operator.glyph] := by
  obtain ⟨signed, done, last⟩ := line
  rcases List.eq_nil_or_concat done with rfl | ⟨init, step, rfl⟩
  · cases signed with
    | false =>
        exact .inl ⟨rfl, rfl, rfl⟩
    | true =>
        exact .inr (.inl ⟨rfl, rfl, rfl⟩)
  · refine .inr (.inr ⟨init, step.1, step.2, ?_, ?_⟩)
    · simp
    · rw [front, List.concat_eq_append, doneText_append,
        Text.withSign_append, Text.withSign_append]

/-- A line without a last operand is empty or ends in an operator. -/
theorem write_of_last_eq_nil {line : Line} (empty : line.last = []) :
    line.write = [] ∨
      ∃ before operator, line.write = before ++ [Operator.glyph operator] := by
  rw [write, empty, List.append_nil]
  rcases line.front_cases with
    ⟨_, _, shape⟩ | ⟨_, _, shape⟩ | ⟨_, _, operator, _, shape⟩
  · exact .inl shape
  · exact .inr ⟨[], .minus, shape⟩
  · exact .inr ⟨_, operator, shape⟩

/-- The operand being typed is what is written after the last operator. -/
theorem currentOperand_write (alphabet : Alphabet digit separator)
    {line : Line} (valid : line.Valid digit separator) :
    currentOperand line.write = line.last := by
  have inside : ∀ c ∈ line.last.reverse,
      (!Operator.isSpelling c) = true := by
    intro c member
    rcases valid.last with empty | operand
    · rw [empty] at member
      cases member
    · rw [operand.not_isSpelling alphabet c (List.mem_reverse.mp member)]
      rfl
  have outside :
      line.front.reverse.takeWhile (fun c => !Operator.isSpelling c) =
        [] := by
    rcases line.front_cases with
      ⟨_, _, shape⟩ | ⟨_, _, shape⟩ | ⟨done, text, operator, _, shape⟩
    · simp [shape]
    · simp [shape]
    · simp [shape]
  rw [currentOperand, write, List.reverse_append,
    List.takeWhile_append_of_pos inside, outside, List.append_nil,
    List.reverse_reverse]

end Line

/-- A text that is a line of operands and operators. -/
def IsTyped (digit : Char → Prop) (separator : Char) (text : Text) : Prop :=
  ∃ line : Line, line.Valid digit separator ∧ line.write = text

namespace IsTyped

theorem nil : IsTyped digit separator [] :=
  ⟨⟨false, [], []⟩, ⟨nofun, .inl rfl⟩, rfl⟩

theorem sign : IsTyped digit separator [Operator.minus.glyph] :=
  ⟨⟨true, [], []⟩, ⟨nofun, .inl rfl⟩, rfl⟩

/-- Operands are finished by the operator after the last of them. -/
private theorem of_done {done : List (Text × Operator)}
    (valid : ∀ step ∈ done, IsOperand digit separator step.1) {text : Text}
    (operand : IsOperand digit separator text) (signed : Bool)
    (operator : Operator) :
    IsTyped digit separator
      (Text.withSign signed (doneText done) ++ text ++
        [operator.glyph]) := by
  refine ⟨⟨signed, done ++ [(text, operator)], []⟩, ⟨?_, .inl rfl⟩, ?_⟩
  · intro step member
    rcases List.mem_append.mp member with earlier | last
    · exact valid step earlier
    · rw [List.mem_singleton.mp last]
      exact operand
  · rw [Line.write, List.append_nil, Line.front, Line.doneText_append,
      Text.withSign_append, Text.withSign_append]

theorem appendDigit (alphabet : Alphabet digit separator) {text : Text}
    (typed : IsTyped digit separator text) {key : Digit}
    (allowed : digit key.char) :
    IsTyped digit separator (Expression.appendDigit text key) := by
  obtain ⟨line, valid, rfl⟩ := typed
  refine ⟨⟨line.signed, line.done, line.last ++ [key.char]⟩,
    ⟨valid.done, .inr ?_⟩, ?_⟩
  · exact IsOperand.append_digit alphabet valid.last allowed
  · exact (List.append_assoc _ _ _).symm

theorem backspace {text : Text} (typed : IsTyped digit separator text) :
    IsTyped digit separator (Expression.backspace text) := by
  obtain ⟨line, valid, rfl⟩ := typed
  unfold Expression.backspace Line.write
  rcases valid.last with empty | operand
  · rw [empty, List.append_nil]
    rcases line.front_cases with
      ⟨_, _, shape⟩ | ⟨_, _, shape⟩ | ⟨done, text, operator, parts, shape⟩
    · rw [shape]
      exact nil
    · rw [shape]
      exact nil
    · rw [shape, List.dropLast_concat]
      have validDone := valid.done
      rw [parts] at validDone
      refine ⟨⟨line.signed, done, text⟩, ⟨?_, .inr ?_⟩, rfl⟩
      · exact fun step member =>
          validDone step (List.mem_append_left _ member)
      · exact validDone (text, operator) List.mem_concat_self
  · rw [List.dropLast_append_of_ne_nil operand.ne_nil]
    exact ⟨⟨line.signed, line.done, line.last.dropLast⟩,
      ⟨valid.done, operand.dropLast⟩, rfl⟩

theorem appendOperator_of_operand {text : Text} {c : Char}
    (ends : text.getLast? = some c)
    (noOperator : Operator.isSpelling c = false) (operator : Operator) :
    Expression.appendOperator text operator =
      text ++ [operator.glyph] := by
  simp [Expression.appendOperator, ends, noOperator]

private theorem appendOperator_of_operator {text : Text} {c : Char}
    (nonempty : text ≠ []) (isOperator : Operator.isSpelling c = true)
    (operator : Operator) :
    Expression.appendOperator (text ++ [c]) operator =
      text ++ [operator.glyph] := by
  simp [Expression.appendOperator, isOperator, nonempty]

theorem appendOperator (alphabet : Alphabet digit separator) {text : Text}
    (typed : IsTyped digit separator text) (operator : Operator) :
    IsTyped digit separator (Expression.appendOperator text operator) := by
  obtain ⟨line, valid, rfl⟩ := typed
  unfold Line.write
  rcases valid.last with empty | operand
  · rw [empty, List.append_nil]
    rcases line.front_cases with
      ⟨_, _, shape⟩ | ⟨_, _, shape⟩ | ⟨done, text, old, parts, shape⟩
    · rw [shape]
      by_cases minus : operator = .minus
      · rw [minus]
        exact sign
      · have unchanged : Expression.appendOperator [] operator = [] :=
          if_neg minus
        rw [unchanged]
        exact nil
    · rw [shape]
      exact sign
    · have validDone := valid.done
      rw [parts] at validDone
      have textIsOperand : IsOperand digit separator text :=
        validDone (text, old) List.mem_concat_self
      rw [shape, appendOperator_of_operator
        (List.append_ne_nil_of_right_ne_nil _ textIsOperand.ne_nil)
        old.isSpelling_glyph]
      exact of_done
        (fun step member => validDone step (List.mem_append_left _ member))
        textIsOperand line.signed operator
  · obtain ⟨c, isLast⟩ : ∃ c, line.last.getLast? = some c :=
      ⟨_, List.getLast?_eq_some_getLast operand.ne_nil⟩
    have ends : (line.front ++ line.last).getLast? = some c := by
      rw [List.getLast?_append, isLast]
      rfl
    have noOperator := operand.not_isSpelling alphabet c
      (List.mem_of_getLast? isLast)
    rw [appendOperator_of_operand ends noOperator]
    exact of_done valid.done operand line.signed operator

theorem occursIn_singleton (separator : Char) (text : Text) :
    occursIn [separator] text = true ↔ separator ∈ text := by
  induction text with
  | nil =>
      simp [occursIn]
  | cons c rest inductionHypothesis =>
      simp [occursIn, inductionHypothesis]

theorem appendSeparator (alphabet : Alphabet digit separator)
    (zero : digit '0') {text : Text}
    (typed : IsTyped digit separator text) :
    IsTyped digit separator
      (Expression.appendSeparator text [separator]) := by
  obtain ⟨line, valid, rfl⟩ := typed
  unfold Expression.appendSeparator
  rw [line.currentOperand_write alphabet valid]
  dsimp only
  by_cases present : separator ∈ line.last
  · rw [if_pos ((occursIn_singleton _ _).mpr present)]
    exact ⟨line, valid, rfl⟩
  · rw [if_neg fun occurs =>
      present ((occursIn_singleton _ _).mp occurs)]
    rcases valid.last with empty | operand
    · rw [if_pos (by simp [empty])]
      have digitFirst : IsOperand digit separator ([] ++ ['0']) :=
        IsOperand.append_digit alphabet (.inl rfl) zero
      have different : separator ∉ ([] ++ ['0'] : Text) :=
        alphabet.not_mem_of_digits (by simpa using zero)
      refine ⟨⟨line.signed, line.done, ['0', separator]⟩,
        ⟨valid.done, .inr (digitFirst.append_separator different)⟩, ?_⟩
      rw [Line.write, Line.write, empty, List.append_nil]
      rfl
    · rw [if_neg (by simpa using operand.ne_nil)]
      exact ⟨⟨line.signed, line.done, line.last ++ [separator]⟩,
        ⟨valid.done, .inr (operand.append_separator present)⟩,
        (List.append_assoc _ _ _).symm⟩

end IsTyped

end Expression

end CurrencyPad
