import CurrencyPad.Proofs.Money.Reading
import CurrencyPad.Proofs.Text.Plain

/-!
# Shown amounts

Every text under which an amount is shown is read as the number that it shows:
the rounded amount, or the rounded multiple of the unit whose letter stands at
the end.
-/

namespace CurrencyPad.Money

open Number

variable {locale : Locale} {config : Config}

/-- A finite double that is rounded to places has few digits and a plain zero. -/
theorem roundExtended_spec {x : Float} (finite : x.isFinite = true)
    (places : Nat) :
    ∃ d, roundExtended x places = .finite d ∧ Decimal.IsShort 17 d.size ∧
      (d.size = 0 → d.negative = false) := by
  obtain ⟨d, shortest, small, _⟩ := Binary64.toDecimal_spec finite
  refine ⟨d.rounded places, ?_, Decimal.isShort_rounded small places,
    Decimal.negative_rounded_of_size_eq_zero⟩
  rw [roundExtended, shortest]

theorem inUnit_spec (x : Binary64.Finite) {unit : AmountUnit}
    (member : unit ∈ AmountUnit.all) :
    ∃ d, inUnit x.value unit = .finite d ∧ Decimal.IsShort 17 d.size ∧
      (d.size = 0 → d.negative = false) := by
  obtain ⟨_, _, _, _, _, divisor, least⟩ := unit_spec member
  exact roundExtended_spec (Binary64.isFinite_div x.isFinite divisor least) _

theorem plainOfShown_plain (readable : locale.IsReadable) (grouped : Bool)
    {d : Decimal} (short : Decimal.IsShort 17 d.size)
    (plainZero : d.size = 0 → d.negative = false) :
    plainOfShown locale (plain locale grouped d) =
      .ok (plain locale false d) := by
  obtain ⟨first, isFirst, visible⟩ := isBlank_head?_plain locale grouped d
  obtain ⟨last, isLast, digit⟩ := isAsciiDigit_getLast?_plain locale grouped d
  have kept : Text.strip (plain locale grouped d) = plain locale grouped d := by
    refine Text.strip_eq_self ?_ ?_
    · rw [isFirst]
      rintro c ⟨⟩
      exact visible
    · rw [isLast]
      rintro c ⟨⟩
      exact Text.isBlank_of_isAsciiDigit digit
  have parts : splitUnit (Text.strip (plain locale grouped d)) =
      (10 ^ 0, plain locale grouped d) := by
    rw [kept, splitUnit, isLast, Option.bind_some, ofLetter?_digit digit]
    rfl
  have single : d.times (10 ^ 0) = d := by
    simp [Decimal.times]
  rw [plainOfShown_eq readable parts short plainZero, single]

theorem plainOfShown_unit (readable : locale.IsReadable) {unit : AmountUnit}
    (member : unit ∈ AmountUnit.all) {d : Decimal}
    (short : Decimal.IsShort 17 d.size)
    (plainZero : d.size = 0 → d.negative = false) :
    plainOfShown locale (plain locale false d ++ [unit.letter]) =
      .ok (plain locale false (d.times unit.scale)) := by
  obtain ⟨⟨zeros, power⟩, letterVisible, _⟩ := unit_spec member
  obtain ⟨first, isFirst, visible⟩ := isBlank_head?_plain locale false d
  have kept : Text.strip (plain locale false d ++ [unit.letter]) =
      plain locale false d ++ [unit.letter] := by
    refine Text.strip_eq_self ?_ ?_
    · rw [List.head?_append, isFirst]
      rintro c ⟨⟩
      exact visible
    · rw [List.getLast?_concat]
      rintro c ⟨⟩
      exact letterVisible
  have parts : splitUnit (Text.strip (plain locale false d ++ [unit.letter])) =
      (10 ^ zeros, plain locale false d) := by
    rw [kept, splitUnit, List.getLast?_concat, Option.bind_some,
      ofLetter?_letter member]
    dsimp only
    rw [power, List.dropLast_concat]
  rw [plainOfShown_eq readable parts short plainZero, power]

theorem mem_of_chooseUnit?_eq_some {x : Float} {larger : Option AmountUnit}
    {units : List AmountUnit} {unit : AmountUnit}
    (chosen : chooseUnit? x larger units = some unit) :
    unit ∈ larger ∨ unit ∈ units := by
  induction units generalizing larger with
  | nil =>
      cases chosen
  | cons candidate smaller inductionHypothesis =>
      rw [chooseUnit?] at chosen
      split at chosen
      · split at chosen
        · cases larger with
          | none =>
              cases chosen
              exact .inr List.mem_cons_self
          | some next =>
              cases chosen
              exact .inl rfl
        · cases chosen
          exact .inr List.mem_cons_self
      · rcases inductionHypothesis chosen with same | later
        · cases same
          exact .inr List.mem_cons_self
        · exact .inr (List.mem_cons_of_mem _ later)

/-- Units are told apart by their letters. -/
theorem eq_of_letter_eq {unit other : AmountUnit}
    (member : unit ∈ AmountUnit.all) (otherMember : other ∈ AmountUnit.all)
    (same : unit.letter = other.letter) : unit = other := by
  have letters := ofLetter?_letter member
  rw [same, ofLetter?_letter otherMember] at letters
  exact (Option.some.inj letters).symm

/-- An abbreviated amount has the letter of a unit at its end and a multiple of
the unit before it, or it is short of every unit. -/
theorem shortText_cases (locale : Locale) (x : Binary64.Finite) :
    (∃ unit ∈ AmountUnit.all, ∃ d, inUnit x.value unit = .finite d ∧
        shortText locale x.value =
          plain locale false d ++ [unit.letter]) ∨
      ∃ d, roundExtended x.value shortPlaces = .finite d ∧
        shortText locale x.value = plain locale false d := by
  unfold shortText
  cases chosen : chooseUnit? x.value none AmountUnit.all with
  | none =>
      obtain ⟨d, rounded, _⟩ := roundExtended_spec x.isFinite shortPlaces
      refine .inr ⟨d, rounded, ?_⟩
      dsimp only
      rw [rounded]
      rfl
  | some unit =>
      have member := (mem_of_chooseUnit?_eq_some chosen).resolve_left nofun
      obtain ⟨d, rounded, _⟩ := inUnit_spec x member
      refine .inl ⟨unit, member, d, rounded, ?_⟩
      dsimp only
      rw [rounded]
      rfl

theorem plainOfShown_format_of_full (config : Config)
    (readable : config.locale.IsReadable) {short : Bool} {money : Money}
    (inFull : (short && isAbbreviated config money) = false) :
    plainOfShown config.locale (format config short money).amount =
      .ok (format config false money).amount := by
  obtain ⟨d, rounded, fewDigits, plainZero⟩ := roundExtended_spec
    money.amount.isFinite (decimals config money.currency)
  have full : (format config false money).amount =
      plain config.locale false d := by
    show fullText config money = _
    rw [fullText, rounded]
    rfl
  have shown : ∃ grouped, (format config short money).amount =
      plain config.locale grouped d := by
    cases short with
    | false =>
        exact ⟨false, full⟩
    | true =>
        have notAbbreviated : isAbbreviated config money = false := inFull
        refine ⟨true, ?_⟩
        show compactText config money = _
        rw [compactText, notAbbreviated, if_neg Bool.false_ne_true,
          groupedText, rounded]
        rfl
  obtain ⟨grouped, same⟩ := shown
  rw [same, full]
  exact plainOfShown_plain readable grouped fewDigits plainZero

theorem plainOfShown_shortText (readable : locale.IsReadable)
    (x : Binary64.Finite) :
    (∀ unit ∈ AmountUnit.all,
        (shortText locale x.value).getLast? = some unit.letter →
          ∃ d, inUnit x.value unit = .finite d ∧
            plainOfShown locale (shortText locale x.value) =
              .ok (plain locale false (d.times unit.scale))) ∧
      ((∀ unit ∈ AmountUnit.all,
          (shortText locale x.value).getLast? ≠ some unit.letter) →
        ∃ d, roundExtended x.value shortPlaces = .finite d ∧
          plainOfShown locale (shortText locale x.value) =
            .ok (plain locale false d)) := by
  rcases shortText_cases locale x with
    ⟨unit, member, d, inUnits, isText⟩ | ⟨d, rounded, isText⟩
  · have letter : (shortText locale x.value).getLast? = some unit.letter := by
      rw [isText, List.getLast?_concat]
    refine ⟨fun other otherMember otherLetter => ?_, fun noLetter =>
      absurd letter (noLetter unit member)⟩
    have same : other = unit := by
      rw [letter] at otherLetter
      exact eq_of_letter_eq otherMember member
        (Option.some.inj otherLetter).symm
    obtain ⟨e, isDecimal, fewDigits, plainZero⟩ := inUnit_spec x member
    rw [inUnits] at isDecimal
    cases isDecimal
    rw [same, isText]
    exact ⟨d, inUnits, plainOfShown_unit readable member fewDigits plainZero⟩
  · obtain ⟨last, isLast, digit⟩ :=
      isAsciiDigit_getLast?_plain locale false d
    refine ⟨fun unit member letter => ?_, fun _ => ?_⟩
    · -- The last character of a number is a digit.
      rw [isText, isLast] at letter
      have none := ofLetter?_digit digit
      rw [Option.some.inj letter, ofLetter?_letter member] at none
      cases none
    · obtain ⟨e, isDecimal, fewDigits, plainZero⟩ :=
        roundExtended_spec x.isFinite shortPlaces
      rw [rounded] at isDecimal
      cases isDecimal
      rw [isText]
      exact ⟨d, rounded, plainOfShown_plain readable false fewDigits plainZero⟩

/-- Every shown amount is read as the number that it shows.  An amount that is not
abbreviated is read as the amount in full; one with the letter of a unit as the
exact product of its rounded multiple; an abbreviated one without a letter as the
amount rounded to the places of abbreviations. -/
theorem plainOfShown_format (config : Config)
    (readable : config.locale.IsReadable) (short : Bool) (money : Money) :
    let text := (format config short money).amount
    let x := money.amount.value
    ((short && isAbbreviated config money) = false →
        plainOfShown config.locale text =
          .ok (format config false money).amount) ∧
      ((short && isAbbreviated config money) = true →
        (∀ unit ∈ AmountUnit.all, text.getLast? = some unit.letter →
          ∃ d, inUnit x unit = .finite d ∧
            plainOfShown config.locale text =
              .ok (plain config.locale false (d.times unit.scale))) ∧
        ((∀ unit ∈ AmountUnit.all, text.getLast? ≠ some unit.letter) →
          ∃ d, roundExtended x shortPlaces = .finite d ∧
            plainOfShown config.locale text =
              .ok (plain config.locale false d))) := by
  intro text x
  refine ⟨plainOfShown_format_of_full config readable, fun abbreviated => ?_⟩
  obtain ⟨isShort, isAbbreviation⟩ := Bool.and_eq_true_iff.mp abbreviated
  have shown : text = shortText config.locale x := by
    show (if short then compactText config money else _) = _
    rw [isShort, if_pos rfl, compactText, isAbbreviation, if_pos rfl]
  rw [shown]
  exact plainOfShown_shortText readable money.amount

/-- The separators of this locale are letters of units themselves. -/
theorem plainOfShown_format_letters :
    let config : Config :=
      { Config.default with
        locale := ⟨'k', some 'm', by decide, by decide, by decide⟩ }
    let money : Money := ⟨⟨-12345.678, by decide +kernel⟩, "USD".toList⟩
    config.locale.IsReadable ∧ isAbbreviated config money = true ∧
      (format config true money).amount = "-12k35k".toList ∧
      plainOfShown config.locale "-12k35k".toList = .ok "-12350".toList := by
  intro config money
  have readable : config.locale.IsReadable := by
    refine ⟨by decide, by decide, fun c grouping => ?_⟩
    cases grouping
    decide
  have abbreviated : isAbbreviated config money = true := by decide +kernel
  have shown : (format config true money).amount = "-12k35k".toList := by
    decide +kernel
  let unit : AmountUnit := ⟨1000, 'k'⟩
  have rounded : inUnit money.amount.value unit = .finite ⟨true, 1235, -2⟩ := by
    decide +kernel
  have letter : (format config true money).amount.getLast? =
      some unit.letter := by
    rw [shown]
    rfl
  have isShort : (true && isAbbreviated config money) = true :=
    Bool.and_eq_true_iff.mpr ⟨rfl, abbreviated⟩
  obtain ⟨d, isDecimal, isRead⟩ :=
    ((plainOfShown_format config readable true money).2 isShort).1 unit
      (by decide) letter
  rw [rounded] at isDecimal
  cases isDecimal
  have product : plain config.locale false
      (Decimal.times ⟨true, 1235, -2⟩ unit.scale) = "-12350".toList := by
    decide +kernel
  rw [shown, product] at isRead
  exact ⟨readable, abbreviated, shown, isRead⟩

end CurrencyPad.Money
