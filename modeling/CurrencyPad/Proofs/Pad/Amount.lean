import CurrencyPad.Money.Format
import CurrencyPad.Proofs.Binary64.Shortest
import CurrencyPad.Proofs.Decimal.Digits
import CurrencyPad.Proofs.Expression.Typing

/-!
# Amounts in expressions

An amount that is written into the expression is a line with a single operand:
perhaps a sign, the ten digits, and the separator only where places follow it.
-/

namespace CurrencyPad

open Expression

variable {digit : Char → Prop} {locale : Locale}

namespace Number

/-- A number in plain notation without groups is a line with one operand. -/
theorem isTyped_plain (alphabet : Alphabet digit locale.decimal)
    (ascii : ∀ c, Text.isAsciiDigit c = true → digit c) (d : Decimal) :
    IsTyped digit locale.decimal (plain locale false d) := by
  obtain ⟨nonempty, all⟩ := d.wholeText_digits
  have wholeDigits : ∀ c ∈ d.wholeText, digit c :=
    fun c member => ascii c (all c member)
  have operand : IsOperand digit locale.decimal
      (d.wholeText ++ fractionPart locale d.fractionText) := by
    unfold fractionPart
    dsimp only
    split
    · rw [List.append_nil]
      exact .of_digits alphabet nonempty wholeDigits
    · refine .of_point alphabet nonempty wholeDigits fun c member => ?_
      exact ascii c
        (d.fractionText_digits c (Text.mem_of_mem_dropTrailing member))
  refine ⟨⟨d.negative, [], d.wholeText ++ fractionPart locale d.fractionText⟩,
    ⟨nofun, .inr operand⟩, ?_⟩
  exact (Text.withSign_append d.negative [] _).symm

end Number

/-- An amount in full is a line with one operand. -/
theorem Money.isTyped_fullText {config : Config}
    (alphabet : Alphabet digit config.locale.decimal)
    (ascii : ∀ c, Text.isAsciiDigit c = true → digit c) (money : Money) :
    IsTyped digit config.locale.decimal (fullText config money) := by
  obtain ⟨d, isDecimal, _⟩ := Binary64.toDecimal_spec money.amount.isFinite
  rw [fullText, Number.roundExtended, isDecimal]
  exact Number.isTyped_plain alphabet ascii _

end CurrencyPad
