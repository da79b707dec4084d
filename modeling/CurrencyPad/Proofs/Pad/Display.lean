import CurrencyPad.Pad.Display
import CurrencyPad.Proofs.Binary64.Equality

/-!
# Equality of displays

A new display is told only if it differs from the last one as numbers differ.
The amounts that are calculated have plain zeros, so on displays this is the
same as being another display.
-/

namespace CurrencyPad

open Binary64 (Finite)

/-- A calculated value has its zero without a sign. -/
theorem Expression.hasPlainZero_of_value?
    {locale : Locale} {text : Text} {x : Finite}
    (valued : Expression.value? locale text = some x) :
    x.HasPlainZero := by
  unfold Expression.value? Expression.evaluate at valued
  split at valued
  · cases valued
  · split at valued
    · cases valued
    · split at valued
      · cases valued
      · cases valued
        exact Finite.withoutNegativeZero_hasPlainZero _

theorem Money.beq_iff {left right : Money} :
    (left == right) = true ↔
      (left.amount == right.amount) = true ∧
        left.currency = right.currency := by
  cases left
  cases right
  change ((_ == _) && (_ == _)) = true ↔ _
  simp

namespace Display

/-- The amount, if there is one, has its zero without a sign. -/
def HasPlainZero (display : Display) : Prop :=
  ∀ money ∈ display.amount, money.amount.HasPlainZero

theorem derive_hasPlainZero
    (config : Config) (sources : DisplaySources) :
    (derive config sources).HasPlainZero := by
  intro money member
  simp only [derive, Option.mem_def, Option.map_eq_some_iff] at member
  obtain ⟨x, valued, rfl⟩ := member
  exact Expression.hasPlainZero_of_value? valued

private theorem beq_iff {left right : Display} :
    (left == right) = true ↔
      left.expression = right.expression ∧
        left.currency = right.currency ∧
        (left.amount == right.amount) = true ∧
        left.baseAmount = right.baseAmount ∧
        left.result = right.result := by
  cases left
  cases right
  change (_ && (_ && (_ && (_ && _)))) = true ↔ _
  simp

private theorem amount_beq_iff {left right : Display}
    (leftPlain : left.HasPlainZero)
    (rightPlain : right.HasPlainZero) :
    (left.amount == right.amount) = true ↔
      left.amount = right.amount := by
  unfold HasPlainZero at leftPlain rightPlain
  cases leftAmount : left.amount with
  | none =>
      cases right.amount <;> simp
  | some leftMoney =>
      cases rightAmount : right.amount with
      | none =>
          simp
      | some rightMoney =>
          have sameAmount :=
            Finite.beq_iff_eq_of_hasPlainZero
              (leftPlain leftMoney leftAmount)
              (rightPlain rightMoney rightAmount)
          rw [Option.some_beq_some, Money.beq_iff, sameAmount]
          cases leftMoney
          cases rightMoney
          simp

/-- Displays that are made of sources are equal as numbers only if they are
the same display. -/
theorem derive_beq_iff
    (config : Config) (left right : DisplaySources) :
    (derive config left == derive config right) = true ↔
      derive config left = derive config right := by
  rw [beq_iff,
    amount_beq_iff (derive_hasPlainZero config left)
      (derive_hasPlainZero config right),
    ← Display.mk.injEq]

end Display

end CurrencyPad
