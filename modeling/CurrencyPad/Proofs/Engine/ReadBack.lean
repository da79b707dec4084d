import CurrencyPad.Proofs.Decimal.HalfUp
import CurrencyPad.Proofs.Engine.Codes
import CurrencyPad.Proofs.Engine.Presence
import CurrencyPad.Proofs.Pad.ResultLine

/-!
# Amounts that are read back

Three deeds write an amount into the expression: a calculation that succeeds, an
amount other than zero that the pad starts with, and a conversion at a known rate.
With readable separators the pad reads back what it wrote: the amount rounded to
the places of its currency, with nothing to add in the result line.
-/

namespace CurrencyPad

open Expression

variable {config : Config}

theorem Number.isSingle_normalize_plain {locale : Locale}
    (readable : locale.IsReadable) (grouped : Bool) (d : Decimal) :
    IsSingle (Expression.normalize locale (plain locale grouped d)) := by
  refine ⟨d.negative, d.numeral, d.isNumeral_numeral, ?_⟩
  rw [normalize_plain readable, plain_eq]
  rfl

theorem Money.isSingle_normalize_fullText
    (readable : config.locale.IsReadable) (money : Money) :
    IsSingle
      (Expression.normalize config.locale (fullText config money)) := by
  obtain ⟨d, isDecimal, _⟩ := Binary64.toDecimal_spec money.amount.isFinite
  rw [fullText, Number.roundExtended, isDecimal]
  exact Number.isSingle_normalize_plain readable false _

theorem Expression.exists_read_of_isSingle {locale : Locale} {text : Text}
    (single : IsSingle (Expression.normalize locale text)) :
    ∃ tree, read locale text = .ok tree ∧ tree.isBareNumber = true := by
  obtain ⟨signed, numeral, isNumeral, normal⟩ := single
  let row : Row := ⟨signed, numeral, []⟩
  have valid : row.Valid := (Row.valid_iff row).mpr ⟨isNumeral, nofun⟩
  have written : row.write = Expression.normalize locale text := by
    rw [Row.write_of_rest_eq_nil rfl, normal]
  exact ⟨row.tree, readNormal_eq_ok_iff_row.mpr ⟨row, valid, written, rfl⟩,
    row.isBareNumber_tree_iff.mpr rfl⟩

def Happening.written? (config : Config) (entry : Entry) :
    Happening → Option Binary64.Finite
  | .applied _ .equals => value? config.locale entry.expression
  | .applied _ (.initial (some money)) =>
      if money.amount.value == 0 then none else some money.amount
  | .converted capture rates =>
      rates.convert? capture.source capture.target capture.amount.value
  | _ => none

/-- A written amount stands in the expression, in the currency selected after
the deed. -/
theorem Happening.expression_effect_of_written? {entry : Entry}
    {happening : Happening} {amount : Binary64.Finite}
    (writes : happening.written? config entry = some amount) :
    (happening.effect config entry).expression =
      Money.fullText config
        (Money.of amount (happening.effect config entry).currency) := by
  cases happening with
  | applied task event =>
      cases event with
      | equals =>
          have value : value? config.locale entry.expression = some amount :=
            writes
          simp only [effect, Entry.apply, Entry.calculated, value]
          rfl
      | initial value =>
          cases value with
          | none =>
              cases writes
          | some money =>
              by_cases zero : (money.amount.value == 0) = true
              · simp [written?, zero] at writes
              · simp only [written?, zero] at writes
                cases writes
                simp [effect, Entry.apply, Entry.filledIn, zero]
      | _ =>
          cases writes
  | converted capture rates =>
      have converted : rates.convert? capture.source capture.target
          capture.amount.value = some amount :=
        writes
      simp only [effect, Entry.select, Entry.convertedText?, converted]
      rfl
  | _ =>
      cases writes

namespace Engine

variable {engine : Engine} {number : TaskId} {amount : Binary64.Finite}

/-- After an amount was written the engine presents its sources. -/
theorem presents_of_written? (faithful : engine.Faithful) {action : Action}
    (writes : (engine.deed number action).written? config engine.entry =
      some amount) :
    engine.disposed = false ∧ (engine.perform number action).Presents := by
  refine faithful.presents_of_deed fun nothing => ?_
  rw [nothing] at writes
  cases writes

/-- The engine shows an amount that it wrote: the expression is a single number,
shown as the nearest double of the amount that was rounded half up to the places
of the selected currency, there is no result line, and the result key finds that
double again. -/
structure ReadsBack (config : Config) (engine : Engine)
    (amount : Binary64.Finite) : Prop where
  single : ∃ tree, read config.locale engine.expression = .ok tree ∧
    tree.isBareNumber = true
  shown : ∃ (d : Decimal) (y : Binary64.Finite) (display : Display),
    Binary64.toDecimal amount.value = .finite d ∧
      y.IsNearest
        (halfUp (Money.decimals config engine.currency) d.toRat) ∧
      engine.published = some display ∧
      display.currency = engine.currency ∧
      display.amount = some ⟨y, engine.currency⟩ ∧
      display.result = none ∧
      ∀ number, (engine.deed number (.handle .equals)).written? config
        engine.entry = some y

/-- A running engine calculates as soon as it is asked to. -/
theorem deed_equals_of_presents (presents : engine.Presents)
    (undisposed : engine.disposed = false) (number : TaskId) :
    engine.deed number (.handle .equals) = .applied number .equals := by
  simp [deed, turnOf, start_of_started undisposed presents.started, ok, turn]

theorem Presents.readsBack (presents : engine.Presents)
    (undisposed : engine.disposed = false)
    (configured : engine.config = config)
    (readable : config.locale.IsReadable)
    (code : Currency.IsNormal engine.currency)
    (written : engine.expression =
      Money.fullText config (Money.of amount engine.currency)) :
    engine.ReadsBack config amount := by
  subst configured
  have sameCode : ∀ x : Binary64.Finite,
      Money.of x engine.currency = ⟨x, engine.currency⟩ := by
    intro x
    exact congrArg (Money.mk x) code
  -- The text is a single numeral by its form, and its value is known from what
  -- was rounded; together they hide the result line.
  have single : IsSingle
      (Expression.normalize engine.config.locale engine.expression) := by
    rw [written]
    exact Money.isSingle_normalize_fullText readable _
  obtain ⟨d, y, isDecimal, evaluated, nearest, _⟩ :=
    Number.evaluatesRounded_plain readable false amount
      (Money.decimals engine.config engine.currency)
  rw [Decimal.toRat_rounded] at nearest
  have valued : value? engine.config.locale engine.expression = some y := by
    rw [written, sameCode, value?, Money.fullText, evaluated]
    rfl
  refine ⟨exists_read_of_isSingle single, d, y, engine.dueDisplay, isDecimal,
    nearest, presents.current.shown, rfl, ?_, ?_, fun number => ?_⟩
  · change (value? engine.config.locale engine.expression).map
      (fun x => Money.of x engine.currency) = _
    rw [valued, Option.map_some, sameCode]
  · refine (Display.result_eq_none_iff _ _).mpr ⟨.inl ?_, .inr ⟨?_, single⟩⟩
    · exact congrArg Option.isSome valued
    · exact congrArg Option.isSome valued
  · rw [deed_equals_of_presents presents undisposed]
    exact valued

/-- With readable separators whatever amount the engine writes is read back, at
every point of every run: after a calculation, an amount to start with, or a
conversion. The codes that events name are to be in normal form, as they are in
all events that are read. -/
theorem readsBack_of_written (config : Config)
    (readable : config.locale.IsReadable)
    (rates : Option (Option Snapshot)) (base : Option (Option Text))
    (actions : List Action) (action : Action)
    (codes : ∀ other ∈ actions ++ [action], ∀ event ∈ other.event?,
      event.HasNormalCode) :
    let engine := (new config rates base).runFrom 0 actions
    (∀ amount,
      (engine.deed actions.length action).written? config engine.entry =
          some amount →
        (engine.perform actions.length action).ReadsBack config amount) ∧
      ∀ json event, Event.ofJson json = .ok event → event.HasNormalCode := by
  intro engine
  refine ⟨fun amount writes => ?_, fun _ _ => Event.hasNormalCode_of_ofJson⟩
  rw [List.forall_mem_append, List.forall_mem_singleton] at codes
  have faithful : engine.Faithful :=
    faithful_runFrom config rates base actions
  have sameConfig : engine.config = config :=
    config_runFrom actions (new config rates base) 0
  have earlier : engine.CodesNormal :=
    codesNormal_runFrom actions (new_codesNormal config rates base) 0 codes.1
  obtain ⟨undisposed, presents⟩ := presents_of_written? faithful writes
  have keeps : action ≠ .dispose := by
    rintro rfl
    cases writes
  have sameDisposed := disposed_perform engine actions.length keeps
  have changes := entry_perform engine actions.length action
  have written := Happening.expression_effect_of_written? writes
  rw [sameConfig] at changes
  rw [← changes] at written
  exact presents.readsBack (sameDisposed.trans undisposed)
    ((config_perform engine actions.length action).trans sameConfig) readable
    (earlier.perform actions.length codes.2).currency written

/-- An eighth of a dollar is written with a comma and two places. -/
theorem readsBack_of_written_eighth :
    let config : Config :=
      { Config.default with
        locale := ⟨',', some '.', by decide, by decide, by decide⟩ }
    let dollar : Money := ⟨⟨1, by decide +kernel⟩, "USD".toList⟩
    let eighth : Binary64.Finite := ⟨0.125, by decide +kernel⟩
    let actions : List Action :=
      [.handle (.initial (some dollar)), .handle (.operator .divide),
        .handle (.digit ⟨'8', by decide⟩)]
    let engine := (new config none none).runFrom 0 actions
    let next := engine.perform 3 (.handle .equals)
    config.locale.IsReadable ∧
      (engine.deed 3 (.handle .equals)).written? config engine.entry =
        some eighth ∧
      next.expression = "0,13".toList ∧ next.ReadsBack config eighth := by
  intro config dollar eighth actions engine next
  have readable : config.locale.IsReadable := by
    refine ⟨by decide, by decide, fun c grouping => ?_⟩
    cases grouping
    decide
  have codes : ∀ other ∈ actions ++ [.handle .equals],
      ∀ event ∈ other.event?, event.HasNormalCode := by
    have normal : Currency.IsNormal dollar.currency :=
      rfl
    simpa [actions, Action.event?, Event.HasNormalCode] using normal
  have writes : (engine.deed 3 (.handle .equals)).written? config
      engine.entry = some eighth := by
    have value : ((engine.deed 3 (.handle .equals)).written? config
        engine.entry).map (·.value) = some 0.125 := by
      decide +kernel
    obtain ⟨⟨_, _⟩, writes, rfl⟩ := Option.map_eq_some_iff.mp value
    exact writes
  exact ⟨readable, writes, by decide +kernel,
    (readsBack_of_written config readable none none actions (.handle .equals)
      codes).1 eighth writes⟩

end Engine

end CurrencyPad
