import CurrencyPad.Pad.Engine.Settle
import CurrencyPad.Proofs.Pad.Entry

/-!
# What events change in the engine

An event changes the entry of the engine as the table of entries says.  The
rest of the engine is its frame, which no event touches, and what the display
has heard and shown.
-/

namespace CurrencyPad.Engine

def entry (engine : Engine) : Entry :=
  ⟨engine.expression, engine.currency, engine.showError,
    engine.overrideInitial⟩

/-- The parts of an engine that have to do neither with its entry nor with
its display and log. -/
structure Frame where
  config : Config
  rates : RatesCell
  base : BaseCell
  started : Bool
  disposed : Bool
  attached : Bool
  refusing : Nat
  submissions : List Submission
  conversions : List PendingConversion
  finished : List (TaskId × TaskOutcome)

def frame (engine : Engine) : Frame :=
  ⟨engine.config, engine.rates, engine.base, engine.started,
    engine.disposed, engine.attached, engine.refusing,
    engine.submissions, engine.conversions, engine.finished⟩

@[simp]
theorem entry_notice (engine : Engine) (notice : Notice) :
    (engine.notice notice).entry = engine.entry := rfl

@[simp]
theorem frame_notice (engine : Engine) (notice : Notice) :
    (engine.notice notice).frame = engine.frame := rfl

@[simp]
theorem entry_finishWith (task : TaskId) (step : Step) :
    (finishWith task step).entry = step.1.entry := rfl

@[simp]
theorem entry_hear
    (engine : Engine) (change : DisplaySources → DisplaySources) :
    (engine.hear change).entry = engine.entry := by
  unfold hear
  split <;> rfl

@[simp]
theorem frame_hear
    (engine : Engine) (change : DisplaySources → DisplaySources) :
    (engine.hear change).frame = engine.frame := by
  unfold hear
  split <;> rfl

@[simp]
theorem entry_publish (engine : Engine) :
    engine.publish.1.entry = engine.entry := by
  unfold publish
  dsimp only
  split
  · rfl
  · split <;> rfl

@[simp]
theorem frame_publish (engine : Engine) :
    engine.publish.1.frame = engine.frame := by
  unfold publish
  dsimp only
  split
  · rfl
  · split <;> rfl

@[simp]
theorem entry_release (engine : Engine) :
    engine.release.1.entry = engine.entry := by
  unfold release
  split
  · exact entry_publish engine
  · rfl

@[simp]
theorem frame_release (engine : Engine) :
    engine.release.1.frame = engine.frame := by
  unfold release
  split
  · exact frame_publish engine
  · rfl

@[simp]
theorem entry_writeExpression (engine : Engine) (text : Text) :
    (engine.writeExpression text).entry =
      { engine.entry with expression := text } := by
  unfold writeExpression
  split
  case isTrue same =>
    subst same
    rfl
  case isFalse =>
    rw [entry_hear]
    rfl

@[simp]
theorem frame_writeExpression (engine : Engine) (text : Text) :
    (engine.writeExpression text).frame = engine.frame := by
  unfold writeExpression
  split
  · rfl
  · rw [frame_hear]
    rfl

@[simp]
theorem entry_writeCurrency (engine : Engine) (code : Text) :
    (engine.writeCurrency code).entry =
      { engine.entry with currency := code } := by
  unfold writeCurrency
  split
  case isTrue same =>
    subst same
    rfl
  case isFalse =>
    rw [entry_hear]
    rfl

@[simp]
theorem frame_writeCurrency (engine : Engine) (code : Text) :
    (engine.writeCurrency code).frame = engine.frame := by
  unfold writeCurrency
  split
  · rfl
  · rw [frame_hear]
    rfl

@[simp]
theorem entry_writeShowError (engine : Engine) (shown : Bool) :
    (engine.writeShowError shown).entry =
      { engine.entry with showError := shown } := by
  unfold writeShowError
  split
  case isTrue same =>
    subst same
    rfl
  case isFalse =>
    rw [entry_hear]
    rfl

@[simp]
theorem frame_writeShowError (engine : Engine) (shown : Bool) :
    (engine.writeShowError shown).frame = engine.frame := by
  unfold writeShowError
  split
  · rfl
  · rw [frame_hear]
    rfl

@[simp]
theorem entry_setOverride (engine : Engine) (override : Bool) :
    (engine.setOverride override).entry =
      { engine.entry with overrideInitial := override } := rfl

@[simp]
theorem frame_setOverride (engine : Engine) (override : Bool) :
    (engine.setOverride override).frame = engine.frame := rfl

@[simp]
theorem entry_edit (engine : Engine) (text : Text) :
    (engine.edit text).entry = engine.entry.typed text := by
  simp [edit, Entry.typed]

@[simp]
theorem frame_edit (engine : Engine) (text : Text) :
    (engine.edit text).frame = engine.frame := by
  simp [edit]

@[simp]
theorem entry_calculate (engine : Engine) :
    engine.calculate.entry = engine.entry.calculated engine.config := by
  have valueOfEntry :
      Expression.value? engine.config.locale engine.entry.expression =
        (Expression.evaluate engine.config.locale
          engine.expression).toOption := rfl
  unfold calculate Entry.calculated
  rw [valueOfEntry]
  cases Expression.evaluate engine.config.locale engine.expression with
  | ok value =>
      exact entry_edit engine _
  | error error =>
      by_cases blank : Text.isBlankText engine.expression = true
      · simp [Except.toOption, entry, blank, setOverride]
      · have sameText : engine.entry.expression = engine.expression := rfl
        simp [Except.toOption, sameText, blank]

@[simp]
theorem frame_calculate (engine : Engine) :
    engine.calculate.frame = engine.frame := by
  unfold calculate
  split
  · exact frame_edit engine _
  · dsimp only
    split
    · rfl
    · simp

@[simp]
theorem entry_fillIn (engine : Engine) (money : Money) :
    (engine.fillIn money).entry =
      engine.entry.filledIn engine.config money := by
  have sameConfig :
      (engine.writeCurrency money.currency).config = engine.config :=
    congrArg Frame.config (frame_writeCurrency engine money.currency)
  unfold fillIn Entry.filledIn
  by_cases zero : (money.amount.value == 0) = true
  · simp [zero]
  · simp [zero, amountText, sameConfig]

@[simp]
theorem frame_fillIn (engine : Engine) (money : Money) :
    (engine.fillIn money).frame = engine.frame := by
  unfold fillIn
  dsimp only
  split <;> simp

/-- An event changes the entry as the table says. -/
@[simp]
theorem entry_change (engine : Engine) (event : Event) :
    (engine.change event).entry =
      engine.entry.apply engine.config event := by
  cases event with
  | backspace =>
      by_cases empty : engine.expression = []
      · simp [change, Entry.apply, entry, empty]
      · have nonempty : engine.entry.expression ≠ [] := empty
        simp only [change, Entry.apply, List.isEmpty_iff, empty, nonempty,
          if_false]
        exact entry_edit engine _
  | separator =>
      exact entry_edit engine _
  | operator key =>
      exact entry_edit engine _
  | digit key =>
      simp only [change, Entry.apply, entry_writeShowError, entry_edit]
      rfl
  | clear =>
      exact entry_edit engine _
  | equals =>
      exact entry_calculate engine
  | currency code =>
      rfl
  | initial value =>
      cases value with
      | none =>
          rfl
      | some money =>
          exact entry_fillIn engine money

@[simp]
theorem frame_change (engine : Engine) (event : Event) :
    (engine.change event).frame = engine.frame := by
  cases event with
  | backspace =>
      simp only [change]
      split
      · rfl
      · exact frame_edit engine _
  | initial value =>
      cases value with
      | none =>
          rfl
      | some money =>
          exact frame_fillIn engine money
  | _ =>
      simp [change]

@[simp]
theorem entry_dispatch (engine : Engine) (event : Event) :
    (engine.dispatch event).1.entry =
      engine.entry.apply engine.config event := by
  simp [dispatch]

@[simp]
theorem frame_dispatch (engine : Engine) (event : Event) :
    (engine.dispatch event).1.frame = engine.frame := by
  simp [dispatch]

@[simp]
theorem entry_applyCurrency
    (engine : Engine) (code : Text) (expression : Option Text) :
    (engine.applyCurrency code expression).1.entry =
      engine.entry.select code expression := by
  cases expression <;> simp [applyCurrency, Entry.select]

@[simp]
theorem frame_applyCurrency
    (engine : Engine) (code : Text) (expression : Option Text) :
    (engine.applyCurrency code expression).1.frame = engine.frame := by
  cases expression <;> simp [applyCurrency]

/-- A conversion writes the converted amount, if there is one, and selects the
currency. -/
@[simp]
theorem entry_convert
    (engine : Engine) (conversion : PendingConversion) (rates : Snapshot) :
    (engine.convert conversion rates).1.entry =
      engine.entry.select conversion.target
        (Entry.convertedText? engine.config rates conversion.source
          conversion.target conversion.amount) := by
  unfold convert Entry.convertedText?
  dsimp only
  cases rates.convert? conversion.source conversion.target
      conversion.amount.value with
  | none =>
      simp
  | some converted =>
      simp [amountText]

@[simp]
theorem frame_convert
    (engine : Engine) (conversion : PendingConversion) (rates : Snapshot) :
    (engine.convert conversion rates).1.frame = engine.frame := by
  unfold convert
  dsimp only
  split <;> simp

end CurrencyPad.Engine
