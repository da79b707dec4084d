import CurrencyPad.Pad.Display
import CurrencyPad.Proofs.Engine.Desk
import CurrencyPad.Proofs.Money.Guarded

/-!
# The guarded pad

The display and the changes of an entry with every double looked at just before it
is used.  Doubles come from expressions, from rates and from amounts that fill in
the expression.  All of them are finite where they are shown, so the guarded pad
shows and enters what the pad does.
-/

namespace CurrencyPad

open Number

namespace Expression

def isObviousGuarded (locale : Locale) (text : Text) (value : Option Float) :
    Except Break Bool :=
  match value, read locale text with
  | some value, .ok tree =>
      if tree.isBareNumber then
        match tree.value? with
        | some x => .ok (x == value)
        | none => .error .noValue
      else .ok false
  | _, _ => .ok false

/-- A number with at most a sign divides by nothing. -/
theorem exists_value_of_isBareNumber {tree : Tree}
    (bare : tree.isBareNumber = true) : ∃ x, tree.value? = some x := by
  cases tree with
  | operand numeral =>
      exact ⟨_, rfl⟩
  | negate inner =>
      cases inner with
      | operand numeral =>
          exact ⟨_, rfl⟩
      | _ =>
          cases bare
  | binary operator left right =>
      cases bare

theorem isObviousGuarded_eq (locale : Locale) (text : Text)
    (value : Option Float) :
    isObviousGuarded locale text value =
      .ok (isObvious locale text value) := by
  unfold isObviousGuarded isObvious
  cases value with
  | none =>
      rfl
  | some value =>
      cases read locale text with
      | error error =>
          rfl
      | ok tree =>
          dsimp only
          split
          case isTrue bare =>
            obtain ⟨x, isValue⟩ := exists_value_of_isBareNumber bare
            rw [bare, isValue]
            rfl
          case isFalse composed =>
            rw [Bool.eq_false_iff.mpr composed, Bool.false_and]

end Expression

namespace Display

variable (config : Config)

def resultTextGuarded : Option Float → Except Break Text
  | some x =>
      (roundGuarded x config.resultDecimals).map
        (plainExtended config.locale true)
  | none => .ok "Error".toList

theorem resultTextGuarded_eq (value : Option Binary64.Finite) :
    resultTextGuarded config (value.map (·.value)) =
      .ok (resultText config value) := by
  cases value with
  | none =>
      rfl
  | some x =>
      have inReach : config.resultDecimals ≤ placesReach :=
        config.resultDecimalsBound.trans (by decide)
      rw [Option.map_some, resultTextGuarded,
        roundGuarded_eq x.isFinite inReach]
      rfl

/-- The result line.  The text of the result is made even where no line is
shown. -/
def resultLineGuarded (expression : Text) (value : Option Float)
    (showError : Bool) : Except Break (Option ResultLine) := do
  let text ← resultTextGuarded config value
  if value.isNone && showError then return some ⟨text, true⟩
  if Text.isBlankText expression then return none
  let obvious ← Expression.isObviousGuarded config.locale expression value
  return if obvious then none else some ⟨text, false⟩

theorem resultLineGuarded_eq (expression : Text)
    (value : Option Binary64.Finite) (showError : Bool) :
    resultLineGuarded config expression (value.map (·.value)) showError =
      .ok (resultLine config expression value showError) := by
  unfold resultLineGuarded resultLine
  rw [resultTextGuarded_eq, Expression.isObviousGuarded_eq, Option.isNone_map]
  generalize Expression.isObvious config.locale expression
    (value.map (·.value)) = obvious
  cases value.isNone && showError with
  | true =>
      rfl
  | false =>
      cases Text.isBlankText expression with
      | true =>
          rfl
      | false =>
          cases obvious <;> rfl

def inBaseCurrencyGuarded (amount : Money) :
    Option Snapshot → Option Text → Except Break (Option ShownMoney)
  | some rates, some base => do
      if base.isEmpty then return none
      let code := Currency.normalize base
      if amount.currency = code then return none
      let converted? ←
        rates.exchangeGuarded amount.currency code amount.amount.value
      match converted? with
      | some converted =>
          let money ← Money.guarded converted code
          let shown ← Money.formatGuarded config true money
          return some shown
      | none => return none
  | _, _ => .ok none

theorem inBaseCurrencyGuarded_eq (amount : Money) (rates : Option Snapshot)
    (base : Option Text) :
    inBaseCurrencyGuarded config amount rates base =
      .ok (inBaseCurrency config amount rates base) := by
  cases rates with
  | none =>
      cases base <;> rfl
  | some rates =>
      cases base with
      | none =>
          rfl
      | some base =>
          simp only [inBaseCurrencyGuarded, inBaseCurrency,
            Option.bind_eq_bind, Option.bind_some]
          split
          · rfl
          · split
            · rfl
            · rw [Snapshot.exchangeGuarded_eq, Break.ok_bind]
              cases rates.convert? amount.currency (Currency.normalize base)
                  amount.amount.value with
              | none =>
                  rfl
              | some converted =>
                  dsimp only [Option.map_some]
                  rw [Money.guarded_eq, Break.ok_bind,
                    Money.formatGuarded_eq]
                  rfl

def deriveGuarded (sources : DisplaySources) : Except Break Display := do
  let value :=
    (Expression.value? config.locale sources.expression).map (·.value)
  let result ←
    resultLineGuarded config sources.expression value sources.showError
  let amount ←
    match value with
    | some x => (Money.guarded x sources.currency).map some
    | none => pure none
  let baseAmount ←
    match amount with
    | some money =>
        inBaseCurrencyGuarded config money sources.rates sources.base
    | none => pure none
  return {
    expression :=
      if sources.expression.isEmpty then none else some sources.expression
    currency := sources.currency
    amount, baseAmount, result }

/-- Every display can be made, whatever the expression, the rates and the base
currency are. -/
theorem deriveGuarded_eq (sources : DisplaySources) :
    deriveGuarded config sources = .ok (derive config sources) := by
  unfold deriveGuarded derive
  dsimp only
  rw [resultLineGuarded_eq, Break.ok_bind]
  cases Expression.value? config.locale sources.expression with
  | none =>
      rfl
  | some x =>
      dsimp only [Option.map_some]
      rw [Money.guarded_eq, Except.map, Break.ok_bind]
      dsimp only
      rw [inBaseCurrencyGuarded_eq]
      rfl

end Display

namespace Entry

variable (config : Config) (entry : Entry)

def calculatedGuarded : Except Break Entry := do
  match Expression.value? config.locale entry.expression with
  | some value =>
      let text ←
        Money.amountTextGuarded config value.value entry.currency
      return entry.typed text
  | none => return entry.calculated config

def filledInGuarded (money : Money) : Except Break Entry := do
  if money.amount.value == 0 then return entry.filledIn config money
  let text ←
    Money.amountTextGuarded config money.amount.value money.currency
  return {
    entry with
    expression := text
    currency := money.currency
    overrideInitial := true }

def applyGuarded : Event → Except Break Entry
  | .equals => entry.calculatedGuarded config
  | .initial (some money) => entry.filledInGuarded config money
  | event => .ok (entry.apply config event)

theorem applyGuarded_eq (event : Event) :
    entry.applyGuarded config event = .ok (entry.apply config event) := by
  cases event with
  | equals =>
      change entry.calculatedGuarded config = .ok (entry.calculated config)
      unfold calculatedGuarded
      split
      case h_1 value isValue =>
        rw [Money.amountTextGuarded_eq, calculated, isValue]
        rfl
      · rfl
  | initial value =>
      cases value with
      | none =>
          rfl
      | some money =>
          change entry.filledInGuarded config money =
            .ok (entry.filledIn config money)
          unfold filledInGuarded
          split
          · rfl
          case isFalse nonzero =>
            rw [Money.amountTextGuarded_eq, filledIn, if_neg nonzero]
            rfl
  | _ =>
      rfl

def convertedTextGuarded (rates : Snapshot) (source target : Text)
    (amount : Float) : Except Break (Option Text) := do
  match ← rates.exchangeGuarded source target amount with
  | some converted =>
      (Money.amountTextGuarded config converted target).map some
  | none => return none

theorem convertedTextGuarded_eq (rates : Snapshot) (source target : Text)
    (amount : Binary64.Finite) :
    convertedTextGuarded config rates source target amount.value =
      .ok (convertedText? config rates source target amount) := by
  unfold convertedTextGuarded convertedText?
  rw [Snapshot.exchangeGuarded_eq, Break.ok_bind]
  cases rates.convert? source target amount.value with
  | none =>
      rfl
  | some converted =>
      dsimp only [Option.map_some]
      rw [Money.amountTextGuarded_eq]
      rfl

end Entry

def Happening.effectGuarded (config : Config) (entry : Entry) :
    Happening → Except Break Entry
  | .applied _ event => entry.applyGuarded config event
  | .converted capture rates => do
      let text ← Entry.convertedTextGuarded config rates capture.source
        capture.target capture.amount.value
      return entry.select capture.target text
  | happening => .ok (happening.effect config entry)

/-- Whatever happens to an entry comes to its end. -/
theorem Happening.effectGuarded_eq (config : Config) (entry : Entry)
    (happening : Happening) :
    happening.effectGuarded config entry =
      .ok (happening.effect config entry) := by
  cases happening with
  | applied task event =>
      exact entry.applyGuarded_eq config event
  | converted capture rates =>
      rw [effectGuarded, Entry.convertedTextGuarded_eq]
      rfl
  | _ =>
      rfl

end CurrencyPad
