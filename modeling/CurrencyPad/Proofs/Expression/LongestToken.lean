import CurrencyPad.Proofs.Expression.Language

/-!
# Longest tokens

At every place of a text scanning takes the longest token that stands there, and
it stops where none does.  What is scanned is therefore told by the tokens and by
the text after them alone.
-/

namespace CurrencyPad.Expression

namespace Token

/-- The token stands at the start of the text, and no longer one does. -/
structure IsLongest (token : Token) (text : Text) : Prop where
  valid : token.IsValid
  starts : token.text <+: text
  longest : ∀ other : Token, other.IsValid → other.text <+: text →
    other.text.length ≤ token.text.length

/-- No token stands at the start of the text. -/
def NoneStarts (text : Text) : Prop :=
  ∀ token : Token, token.IsValid → ¬ token.text <+: text

/-- Where a numeral stands, the numeral that is taken is at least as long. -/
theorem exists_leadingNumeral?_append {numeral : Text}
    (isNumeral : IsNumeral numeral) (rest : Text) :
    ∃ taken, leadingNumeral? (numeral ++ rest) = some taken ∧
      numeral.length ≤ taken.length := by
  unfold leadingNumeral?
  cases isNumeral with
  | whole nonempty all =>
      rw [List.takeWhile_append_of_pos all]
      split
      · simp [nonempty]
      · simp [nonempty]
  | @point digits fraction nonempty all places =>
      obtain ⟨taken, left⟩ := span_append all (span_point (fraction ++ rest))
      rw [List.append_assoc, List.cons_append, taken, left]
      simp [List.takeWhile_append_of_pos places, nonempty]
  | @bare fraction nonempty places =>
      obtain ⟨taken, left⟩ := span_point (fraction ++ rest)
      rw [List.cons_append, taken, left]
      simp [List.takeWhile_append_of_pos places, nonempty]

theorem IsValid.ne_nil {token : Token} (valid : token.IsValid) :
    token.text ≠ [] := by
  cases token with
  | numeral digits =>
      exact IsNumeral.ne_nil valid
  | operator sign =>
      exact List.cons_ne_nil _ _

/-- Valid tokens are told apart by their texts. -/
theorem eq_of_text_eq {token other : Token} (valid : token.IsValid)
    (otherValid : other.IsValid) (same : token.text = other.text) :
    token = other := by
  have apart : ∀ {digits : Text} {sign : Operator}, IsNumeral digits →
      digits ≠ [sign.canonical] := by
    rintro digits sign isNumeral rfl
    have noOperator : ∀ c ∈ [sign.canonical],
        (operatorOf? c).isNone = true := by
      refine isNumeral.forall_mem ?_ ?_
      · intro c digit
        exact Text.of_isAsciiDigit (fun d => (operatorOf? d).isNone)
          (by decide) digit
      · decide
    rw [List.forall_mem_singleton, operatorOf?_eq_some_iff.mpr rfl]
      at noOperator
    cases noOperator
  cases token with
  | numeral digits =>
      cases other with
      | numeral otherDigits =>
          exact congrArg Token.numeral same
      | operator sign =>
          exact absurd same (apart valid)
  | operator sign =>
      cases other with
      | numeral otherDigits =>
          exact absurd same.symm (apart otherValid)
      | operator otherSign =>
          cases sign <;> cases otherSign <;> first | rfl | cases same

theorem IsLongest.ne_nil {token : Token} {text : Text}
    (longest : token.IsLongest text) : text ≠ [] := by
  rintro rfl
  exact longest.valid.ne_nil (List.prefix_nil.mp longest.starts)

theorem IsLongest.unique {token other : Token} {text : Text}
    (longest : token.IsLongest text) (otherLongest : other.IsLongest text) :
    token = other := by
  have atMost := otherLongest.longest token longest.valid longest.starts
  have atLeast := longest.longest other otherLongest.valid otherLongest.starts
  have isPrefix : token.text <+: other.text :=
    List.prefix_of_prefix_length_le longest.starts otherLongest.starts atMost
  apply eq_of_text_eq longest.valid otherLongest.valid
  exact isPrefix.eq_of_length_le atLeast

/-- Some token is taken where one stands. -/
theorem exists_leading?_eq_some {token : Token} {text : Text}
    (valid : token.IsValid) (starts : token.text <+: text) :
    ∃ taken, leading? text = some taken ∧
      token.text.length ≤ taken.text.length := by
  obtain ⟨rest, rfl⟩ := starts
  cases token with
  | numeral digits =>
      obtain ⟨taken, isTaken, atMost⟩ :=
        exists_leadingNumeral?_append valid rest
      refine ⟨.numeral taken, ?_, atMost⟩
      simp only [leading?, text, isTaken]
  | operator sign =>
      exact ⟨.operator sign, leading?_operator sign rest, le_rfl⟩

/-- The token that is taken is the longest one. -/
theorem leading?_eq_some_iff {text : Text} {token : Token} :
    leading? text = some token ↔ token.IsLongest text := by
  have longest : ∀ {taken : Token}, leading? text = some taken →
      taken.IsLongest text := by
    intro taken isTaken
    obtain ⟨valid, _, rest, parts⟩ := isValid_of_leading? isTaken
    refine ⟨valid, ⟨rest, parts.symm⟩, fun other otherValid starts => ?_⟩
    obtain ⟨same, isSame, atMost⟩ :=
      exists_leading?_eq_some otherValid starts
    rw [isTaken] at isSame
    cases isSame
    exact atMost
  constructor
  · exact longest
  · intro isLongest
    obtain ⟨taken, isTaken, _⟩ :=
      exists_leading?_eq_some isLongest.valid isLongest.starts
    rw [isTaken, isLongest.unique (longest isTaken)]

theorem leading?_eq_none_iff {text : Text} :
    leading? text = none ↔ NoneStarts text := by
  constructor
  · intro none token valid starts
    obtain ⟨taken, isTaken, _⟩ := exists_leading?_eq_some valid starts
    rw [none] at isTaken
    cases isTaken
  · intro noneStarts
    cases taken : leading? text with
    | none =>
        rfl
    | some token =>
        have longest := leading?_eq_some_iff.mp taken
        exact absurd longest.starts (noneStarts token longest.valid)

end Token

/-- The text begins with the tokens, each the longest one at its place, and goes
on with the rest. -/
inductive Scanned : Text → List Token → Text → Prop
  | done {text : Text} :
      Scanned text [] text
  | next {token : Token} {tokens : List Token} {text later rest : Text}
      (longest : token.IsLongest text) (parts : text = token.text ++ later)
      (more : Scanned later tokens rest) :
      Scanned text (token :: tokens) rest

namespace Scanned

variable {text rest : Text} {tokens : List Token}

theorem text_eq (scanned : Scanned text tokens rest) :
    text = tokens.flatMap Token.text ++ rest := by
  induction scanned with
  | done =>
      rfl
  | next longest parts more inductionHypothesis =>
      rw [parts, inductionHypothesis, List.flatMap_cons, List.append_assoc]

theorem concat {token : Token} {later : Text}
    (scanned : Scanned text tokens rest) (longest : token.IsLongest rest)
    (parts : rest = token.text ++ later) :
    Scanned text (tokens ++ [token]) later := by
  induction scanned with
  | done =>
      exact .next longest parts .done
  | next first firstParts more inductionHypothesis =>
      exact .next first firstParts (inductionHypothesis longest parts)

/-- A text that is scanned to its end goes on with the longest token at every
place before. -/
theorem exists_next {all : List Token} (scanned : Scanned text tokens rest)
    (toEnd : Scanned text all []) (some : rest ≠ []) :
    ∃ token more, all = tokens ++ token :: more ∧ token.IsLongest rest := by
  induction scanned generalizing all with
  | done =>
      cases toEnd with
      | done =>
          exact absurd rfl some
      | next longest parts more =>
          exact ⟨_, _, rfl, longest⟩
  | @next token tokens text later rest longest parts more
      inductionHypothesis =>
      cases toEnd with
      | done =>
          exact absurd rfl longest.ne_nil
      | next otherLongest otherParts otherMore =>
          have same := longest.unique otherLongest
          subst same
          rw [parts, List.append_cancel_left_eq] at otherParts
          subst otherParts
          obtain ⟨next, others, rfl, isLongest⟩ :=
            inductionHypothesis otherMore some
          exact ⟨next, others, rfl, isLongest⟩

end Scanned

variable {before : Nat} {text : Text} {lexemes : List Lexeme}

theorem scanFrom_eq_nil_iff : scanFrom before 0 text = [] ↔ text = [] := by
  cases text with
  | nil =>
      exact ⟨fun _ => rfl, fun _ => rfl⟩
  | cons c rest =>
      unfold scanFrom
      split <;> simp

/-- A token that is scanned is the longest one at its place. -/
theorem scanFrom_eq_token {token : Token} {position : Nat}
    (scanned : scanFrom before 0 text = .token token position :: lexemes) :
    position = before + 1 ∧ token.IsLongest text ∧
      ∃ later, text = token.text ++ later ∧
        lexemes = scanFrom (before + token.text.length) 0 later := by
  cases text with
  | nil =>
      cases scanned
  | cons c rest =>
      cases starts : Token.leading? (c :: rest) with
      | none =>
          simp [scanFrom, starts] at scanned
      | some first =>
          obtain ⟨_, _, later, parts⟩ := isValid_of_leading? starts
          have longest := Token.leading?_eq_some_iff.mp starts
          rw [parts] at starts scanned
          rw [scanFrom_of_leading? starts] at scanned
          simp only [List.cons.injEq, Lexeme.token.injEq] at scanned
          obtain ⟨⟨rfl, rfl⟩, rfl⟩ := scanned
          exact ⟨rfl, longest, later, parts, rfl⟩

/-- Where a stray character is scanned, no token stands. -/
theorem scanFrom_eq_stray {c : Char} {position : Nat}
    (scanned : scanFrom before 0 text = .stray c position :: lexemes) :
    position = before + 1 ∧ Token.NoneStarts text ∧
      text.head? = some c := by
  cases text with
  | nil =>
      cases scanned
  | cons first rest =>
      cases starts : Token.leading? (first :: rest) with
      | none =>
          simp only [scanFrom, starts, List.cons.injEq, Lexeme.stray.injEq]
            at scanned
          obtain ⟨⟨rfl, rfl⟩, _⟩ := scanned
          exact ⟨rfl, Token.leading?_eq_none_iff.mp starts, rfl⟩
      | some token =>
          simp [scanFrom, starts] at scanned

end CurrencyPad.Expression
