import CurrencyPad.Proofs.Engine.Interleaving
import CurrencyPad.Proofs.Engine.Effect
import CurrencyPad.Proofs.Expression.Completion
import CurrencyPad.Proofs.Pad.Amount

/-!
# What the expression looks like

At every point of every run the expression is a line of operands and operators,
whether the user typed it or the engine wrote an amount into it.
-/

namespace CurrencyPad

open Expression

variable {digit : Char → Prop} {config : Config}

/-- Every way in which an entry changes leaves a line of operands if the digits
that are typed are digits of the line. -/
theorem Entry.Change.isTyped
    (alphabet : Alphabet digit config.locale.decimal)
    (ascii : ∀ c, Text.isAsciiDigit c = true → digit c)
    {turns : Event → Prop}
    (allowed : ∀ key : Digit, turns (.digit key) → digit key.char)
    {entry next : Entry}
    (typed : IsTyped digit config.locale.decimal entry.expression)
    (change : Entry.Change config turns entry next) :
    IsTyped digit config.locale.decimal next.expression := by
  have written := fun money : Money => money.isTyped_fullText alphabet ascii
  cases change with
  | nothing =>
      exact typed
  | selected code =>
      exact typed
  | converted rates source target amount =>
      change IsTyped digit config.locale.decimal
        ((Entry.convertedText? config rates source target amount).getD
          entry.expression)
      unfold Entry.convertedText?
      cases rates.convert? source target amount.value with
      | none =>
          exact typed
      | some converted =>
          exact written _
  | @applied event turn noChoice =>
      cases event with
      | backspace =>
          change IsTyped digit config.locale.decimal
            (if entry.expression = [] then entry
              else entry.typed
                (Expression.backspace entry.expression)).expression
          split
          · exact typed
          · exact typed.backspace
      | separator =>
          exact typed.appendSeparator alphabet (ascii '0' (by decide))
      | operator key =>
          exact typed.appendOperator alphabet key
      | digit key =>
          have base : IsTyped digit config.locale.decimal
              (if entry.overrideInitial then [] else entry.expression) := by
            split
            · exact .nil
            · exact typed
          exact base.appendDigit alphabet (allowed key turn)
      | clear =>
          exact .nil
      | equals =>
          change IsTyped digit config.locale.decimal
            (entry.calculated config).expression
          unfold Entry.calculated
          split
          · exact written _
          · exact typed
      | currency code =>
          exact absurd rfl (noChoice code)
      | initial value =>
          cases value with
          | none =>
              exact typed
          | some money =>
              change IsTyped digit config.locale.decimal
                (entry.filledIn config money).expression
              unfold Entry.filledIn
              split
              · exact typed
              · exact written _

namespace Engine

theorem isTyped_runFrom
    (alphabet : Alphabet digit config.locale.decimal)
    (ascii : ∀ c, Text.isAsciiDigit c = true → digit c)
    (rates : Option (Option Snapshot)) (base : Option (Option Text))
    (actions : List Action)
    (allowed : ∀ action ∈ actions, ∀ key : Digit,
      action.event? = some (.digit key) → digit key.char) :
    IsTyped digit config.locale.decimal
      ((new config rates base).runFrom 0 actions).expression := by
  have handedIn : ∀ action ∈ actions, ∀ event,
      action.event? = some event →
        ∀ key, event = .digit key → digit key.char := by
    intro action member event announced key same
    rw [same] at announced
    exact allowed action member key announced
  refine entry_runFrom_induction
    (motive := fun entry =>
      IsTyped digit config.locale.decimal entry.expression)
    .nil ?_ actions handedIn
  intro entry next typed change
  exact change.isTyped alphabet ascii (fun key turn => turn key rfl) typed

private theorem isSpelling_decimal
    (noGlyph : config.locale.decimal ∉ ['×', '÷', '\u2212']) :
    Operator.isSpelling config.locale.decimal = false := by
  have notReserved := config.locale.decimalIsNotReserved
  cases spelled : Operator.ofChar? config.locale.decimal with
  | none =>
      simp [Operator.isSpelling, spelled]
  | some operator =>
      have member := Operator.mem_spellings_of_ofChar? spelled
      simp only [Operator.spellings, Locale.reserved, List.mem_cons,
        List.not_mem_nil, or_false, not_or] at member notReserved noGlyph
      tauto

/-- In every state that an engine can reach the expression is a line of operands
and operators.  If only the ten digits are typed and the separators are not
mistaken for anything else, it is read unless it is empty or ends in an
operator. -/
theorem expression_is_line
    (config : Config) (rates : Option (Option Snapshot))
    (base : Option (Option Text)) (actions : List Action)
    (noGlyph : config.locale.decimal ∉ ['×', '÷', '\u2212']) :
    let expression := ((new config rates base).runFrom 0 actions).expression
    (∃ line : Line,
        line.Valid (fun c => Text.isDigit c = true) config.locale.decimal ∧
          line.write = expression) ∧
      (∀ c, expression.head? = some c → Operator.isSpelling c = true →
        c = '-') ∧
      expression.IsChain Line.Apart ∧
      ((∀ action ∈ actions, ∀ key : Digit,
          action.event? = some (.digit key) →
            Text.isAsciiDigit key.char = true) →
        Text.isBlank config.locale.decimal = false →
        (∀ c, config.locale.grouping = some c →
          Text.isAsciiDigit c = false ∧ c ∉ ['+', '-', '×', '÷']) →
        ((∃ error, read config.locale expression = .error error) ↔
          expression = [] ∨
            ∃ c, expression.getLast? = some c ∧
              Operator.isSpelling c = true)) := by
  intro expression
  have noOperator : Operator.isSpelling config.locale.decimal = false :=
    isSpelling_decimal noGlyph
  have alphabet :
      Alphabet (fun c => Text.isDigit c = true) config.locale.decimal :=
    ⟨fun _ isDigit => isDigit, config.locale.decimalIsNoDigit, noOperator⟩
  obtain ⟨line, valid, written⟩ :=
    isTyped_runFrom alphabet (fun _ => Text.isDigit_of_isAsciiDigit) rates
      base actions fun _ _ key _ => key.isDigit
  have shape : line.write = expression := written
  obtain ⟨apart, first⟩ := line.isChain_write alphabet valid
  rw [shape] at apart first
  refine ⟨⟨line, valid, shape⟩, first, apart, ?_⟩
  intro ascii visible grouping
  have asciiAlphabet : Alphabet IsAscii config.locale.decimal :=
    ⟨fun _ => Text.isDigit_of_isAsciiDigit,
      config.locale.decimalIsNoDigit, noOperator⟩
  have distinct : config.locale.IsDistinct := by
    refine ⟨visible, fun c separates => (grouping c separates).1, ?_, ?_⟩
    · intro operator separates
      have glyphs : operator.glyph ∈ ['+', '-', '×', '÷'] := by
        cases operator <;> decide
      exact (grouping operator.glyph separates).2 glyphs
    · intro operator same
      rw [← same, operator.isSpelling_glyph] at noOperator
      cases noOperator
  exact (isTyped_runFrom asciiAlphabet (fun _ ascii => ascii) rates base
    actions ascii).read_eq_error_iff distinct asciiAlphabet

/-- After a division sign there is nothing to read yet. -/
theorem expression_before_divisor :
    let actions : List Action :=
      [.handle (.digit five), .handle .separator,
        .handle (.operator .divide)]
    let expression :=
      ((new Config.default none none).runFrom 0 actions).expression
    expression = "5.÷".toList ∧ expression.IsChain Line.Apart ∧
      ∃ error, read Config.default.locale expression = .error error := by
  intro actions expression
  have typed : expression = "5.÷".toList := rfl
  have ascii : ∀ action ∈ actions, ∀ key : Digit,
      action.event? = some (.digit key) →
        Text.isAsciiDigit key.char = true := by
    intro action member key announced
    have isFive : key = five := by
      simp only [actions, List.mem_cons, List.not_mem_nil, or_false]
        at member
      rcases member with rfl | rfl | rfl
      · cases announced
        rfl
      · cases announced
      · cases announced
    rw [isFive]
    decide
  have grouping : ∀ c, Config.default.locale.grouping = some c →
      Text.isAsciiDigit c = false ∧ c ∉ ['+', '-', '×', '÷'] := by
    intro c separates
    cases separates
    decide
  obtain ⟨_, _, apart, reads⟩ :=
    expression_is_line Config.default none none actions (by decide)
  refine ⟨typed, apart, (reads ascii (by decide) grouping).mpr (.inr ?_)⟩
  exact ⟨'÷', by decide, by decide⟩

end Engine

end CurrencyPad
