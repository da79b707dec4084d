import CurrencyPad.Money.Format
import CurrencyPad.Proofs.Number.Evaluation

/-!
# Evaluation of shown amounts

An amount in full and the text of a result are expressions.  With readable
separators they evaluate to the amount, rounded to the places that are shown.
-/

namespace CurrencyPad

open Number

/-- The text of a result is that of the rounded double, if the places are in
reach. -/
theorem Number.resultText_eq_ok {locale : Locale} {places : Nat}
    (inReach : places ≤ placesReach) (x : Binary64.Finite) :
    resultText locale places x.value =
      .ok (plainExtended locale true (roundExtended x.value places)) := by
  obtain ⟨d, shortest, _, _⟩ := Binary64.toDecimal_spec x.isFinite
  have near : ¬ placesReach < (places : ℤ).natAbs := by
    rw [Int.natAbs_natCast]
    omega
  unfold resultText round
  rw [if_neg near, roundExtended, shortest]
  rfl

namespace Money

/-- An amount in full, and the amount as the text of a result, evaluate to the
nearest double of the rounded amount. -/
theorem evaluatesRounded_format (config : Config)
    (readable : config.locale.IsReadable) (money : Money) :
    EvaluatesRounded config.locale (format config false money).amount
        money.amount (decimals config money.currency) ∧
      ∃ text,
        resultText config.locale config.resultDecimals money.amount.value =
            .ok text ∧
          EvaluatesRounded config.locale text money.amount
            config.resultDecimals := by
  refine ⟨evaluatesRounded_plain readable false money.amount _,
    _, ?_, evaluatesRounded_plain readable true money.amount _⟩
  have bound := config.resultDecimalsBound
  exact resultText_eq_ok (bound.trans (by decide)) money.amount

/-- A comma before the cents and points between the thousands of an amount with
three places. -/
theorem evaluatesRounded_format_comma :
    let config : Config :=
      { Config.default with
        locale := ⟨',', some '.', by decide, by decide, by decide⟩ }
    let money : Money := ⟨⟨-1234.565, by decide +kernel⟩, "USD".toList⟩
    config.locale.IsReadable ∧
      (format config false money).amount = "-1234,57".toList ∧
      EvaluatesRounded config.locale "-1234,57".toList money.amount 2 ∧
      EvaluatesRounded config.locale "-1.234,565".toList money.amount 12 := by
  intro config money
  have readable : config.locale.IsReadable := by
    refine ⟨by decide, by decide, fun c grouping => ?_⟩
    cases grouping
    decide
  have full : (format config false money).amount = "-1234,57".toList := by
    decide +kernel
  have result : resultText config.locale config.resultDecimals
      money.amount.value = .ok "-1.234,565".toList := by
    have grouped : plainExtended config.locale true
        (roundExtended money.amount.value config.resultDecimals) =
          "-1.234,565".toList := by
      decide +kernel
    rw [resultText_eq_ok (by decide), grouped]
  obtain ⟨edited, text, isResult, evaluated⟩ :=
    evaluatesRounded_format config readable money
  rw [full] at edited
  rw [result] at isResult
  cases isResult
  exact ⟨readable, full, edited, evaluated⟩

end Money

end CurrencyPad
