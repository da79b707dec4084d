import CurrencyPad.Proofs.Expression.Language
import CurrencyPad.Proofs.Number.Plain

/-!
# Plain notation is canonical

A number in plain notation has no zero that could be left out, and no separator
without places after it.  So a number has one text, and a text belongs to one
number.  Where digits are grouped, only the first group may be shorter than three.
-/

namespace CurrencyPad

namespace Decimal

/-- A decimal that has no minus sign where it is zero. -/
def HasProperSign (d : Decimal) : Prop :=
  d.negative = true → d.isZero = false

theorem size_eq_abs (d : Decimal) : d.size = |d.toRat| := by
  unfold toRat
  cases d.negative with
  | false =>
      exact (abs_of_nonneg d.size_nonneg).symm
  | true =>
      exact ((abs_neg d.size).trans (abs_of_nonneg d.size_nonneg)).symm

/-- The sign tells whether the number is below zero. -/
theorem HasProperSign.negative_eq {d : Decimal} (proper : d.HasProperSign) :
    d.negative = decide (d.toRat < 0) := by
  have nonneg := d.size_nonneg
  cases negative : d.negative with
  | false =>
      have same : d.toRat = d.size := by simp [toRat, negative]
      rw [same, decide_eq_false (not_lt.mpr nonneg)]
  | true =>
      have same : d.toRat = -d.size := by simp [toRat, negative]
      have nonzero : d.size ≠ 0 := by
        intro zero
        have isZero := (isZero_iff d).mpr zero
        rw [proper negative] at isZero
        cases isZero
      have positive : 0 < d.size := lt_of_le_of_ne nonneg nonzero.symm
      rw [same, decide_eq_true (neg_lt_zero.mpr positive)]

end Decimal

namespace Text

/-- A sign is told from what follows it. -/
theorem withSign_injective {left right : Bool} {text other : Text}
    (unsigned : text.head? ≠ some '-') (otherUnsigned : other.head? ≠ some '-')
    (same : withSign left text = withSign right other) :
    left = right ∧ text = other := by
  unfold withSign at same
  cases left with
  | false =>
      cases right with
      | false =>
          exact ⟨rfl, same⟩
      | true =>
          exact absurd (congrArg List.head? same) unsigned
  | true =>
      cases right with
      | false =>
          exact absurd (congrArg List.head? same).symm otherUnsigned
      | true =>
          exact ⟨rfl, List.tail_eq_of_cons_eq same⟩

theorem getLast?_dropTrailing (dropped : Char) (text : Text) :
    (dropTrailing (· == dropped) text).getLast? ≠ some dropped := by
  unfold dropTrailing
  rw [List.getLast?_reverse]
  intro isLast
  have kept := List.head?_dropWhile_not (· == dropped) text.reverse
  rw [isLast] at kept
  simp at kept

end Text

namespace Number

/-- A number by its sign, the digits before its separator and its places. -/
structure Numeral where
  negative : Bool
  whole : Text
  places : Text

namespace Numeral

variable {locale : Locale} {numeral : Numeral}

def fraction (locale : Locale) (numeral : Numeral) : Text :=
  if numeral.places.isEmpty then [] else locale.decimal :: numeral.places

def text (locale : Locale) (numeral : Numeral) : Text :=
  Text.withSign numeral.negative (numeral.whole ++ numeral.fraction locale)

/-- Parts that are digits, none of which could be left out, and no sign before
zero. -/
structure IsCanonical (numeral : Numeral) : Prop where
  nonempty : numeral.whole ≠ []
  digits : ∀ c ∈ numeral.whole, Text.isAsciiDigit c = true
  leading : numeral.whole.head? = some '0' → numeral.whole = ['0']
  places : ∀ c ∈ numeral.places, Text.isAsciiDigit c = true
  trailing : numeral.places.getLast? ≠ some '0'
  sign : numeral.negative = true → numeral.whole = ['0'] → numeral.places ≠ []

theorem head?_fraction (locale : Locale) (numeral : Numeral) :
    ∀ c ∈ (numeral.fraction locale).head?, Text.isAsciiDigit c = false := by
  unfold fraction
  split
  · exact nofun
  · rintro c ⟨rfl⟩
    exact locale.isAsciiDigit_decimal

theorem IsCanonical.head?_ne (canonical : numeral.IsCanonical) (rest : Text) :
    (numeral.whole ++ rest).head? ≠ some '-' := by
  rw [List.head?_append_of_ne_nil _ canonical.nonempty]
  intro isSign
  have digit := canonical.digits '-' (List.mem_of_head? isSign)
  exact absurd digit (by decide)

/-- The parts can be read off the text. -/
theorem IsCanonical.eq_of_text_eq {other : Numeral}
    (canonical : numeral.IsCanonical) (otherCanonical : other.IsCanonical)
    (same : numeral.text locale = other.text locale) : numeral = other := by
  obtain ⟨signs, bodies⟩ := Text.withSign_injective
    (canonical.head?_ne _) (otherCanonical.head?_ne _) same
  have span := Text.span_digits canonical.digits (head?_fraction locale numeral)
  rw [bodies, Text.span_digits otherCanonical.digits
    (head?_fraction locale other)] at span
  obtain ⟨wholes, fractions⟩ := Prod.mk.inj span
  obtain ⟨negative, whole, places⟩ := numeral
  obtain ⟨otherNegative, otherWhole, otherPlaces⟩ := other
  have samePlaces : places = otherPlaces := by
    unfold fraction at fractions
    cases places with
    | nil =>
        cases otherPlaces with
        | nil =>
            rfl
        | cons =>
            cases fractions
    | cons =>
        cases otherPlaces with
        | nil =>
            cases fractions
        | cons =>
            exact (List.cons.inj fractions).2.symm
  dsimp only at signs wholes
  rw [signs, wholes, samePlaces]

end Numeral

open Decimal

def numeralOf (d : Decimal) : Numeral :=
  ⟨d.negative, d.wholeText, d.shownPlaces⟩

theorem plain_eq_text (locale : Locale) (d : Decimal) :
    plain locale false d = (numeralOf d).text locale := rfl

/-- A zero before the point stands alone. -/
theorem wholeText_of_head? {d : Decimal}
    (starts : d.wholeText.head? = some '0') : d.wholeText = ['0'] := by
  unfold wholeText at starts ⊢
  split
  · rfl
  case isFalse nonzero =>
    rw [if_neg nonzero] at starts
    split
    case isTrue whole =>
      rw [if_pos whole, List.head?_append_of_ne_nil (digits d.coefficient)
        Nat.toDigits_ne_nil] at starts
      exact absurd (eq_zero_of_head?_digits starts) nonzero
    case isFalse places =>
      rw [if_neg places] at starts
      rw [eq_zero_of_head?_digits starts]
      rfl

theorem isCanonical_numeralOf {d : Decimal} (proper : d.HasProperSign) :
    (numeralOf d).IsCanonical where
  nonempty := d.wholeText_digits.1
  digits := d.wholeText_digits.2
  leading := wholeText_of_head?
  places := d.shownPlaces_digits
  trailing := Text.getLast?_dropTrailing '0' d.fractionText
  sign := by
    intro negative whole places
    have zero : d.size = 0 := by
      rw [size_eq_digitsValue d]
      dsimp only [numeralOf] at whole places
      rw [whole, places]
      norm_num [digitsValue, Nat.ofDigitChars]
    have isZero := (isZero_iff d).mpr zero
    rw [proper negative] at isZero
    cases isZero

/-- Decimals with the same parts are the same number. -/
theorem toRat_eq_of_numeralOf_eq {d e : Decimal}
    (same : numeralOf d = numeralOf e) : d.toRat = e.toRat := by
  obtain ⟨signs, wholes, places⟩ := Numeral.mk.inj same
  unfold toRat
  rw [signs, size_eq_digitsValue d, size_eq_digitsValue e, wholes, places]

/-- Grouped digits are a short group and groups of three. -/
theorem groupThousands_eq_join (separator : Char) {digits : Text}
    (nonempty : digits ≠ []) :
    ∃ first groups,
      groupThousands separator digits =
        Text.join [separator] (first :: groups) ∧
      (first :: groups).flatten = digits ∧
      (1 ≤ first.length ∧ first.length ≤ 3) ∧
      ∀ group ∈ groups, group.length = 3 := by
  induction digits with
  | nil =>
      exact absurd rfl nonempty
  | cons c rest inductionHypothesis =>
      rw [groupThousands]
      by_cases last : rest = []
      · subst last
        exact ⟨[c], [], rfl, rfl, by simp, nofun⟩
      · obtain ⟨first, groups, joined, parts, bounds, threes⟩ :=
          inductionHypothesis last
        have count : groups.flatten.length = 3 * groups.length := by
          rw [List.length_flatten, List.map_eq_replicate_iff.mpr threes,
            List.sum_replicate_nat, mul_comm]
        have total : rest.length = first.length + 3 * groups.length := by
          rw [← parts, List.flatten_cons, List.length_append, count]
        rw [joined]
        split
        case isTrue full =>
          have three : first.length = 3 := by omega
          refine ⟨[c], first :: groups, rfl, ?_, by simp, ?_⟩
          · rw [List.flatten_cons, parts]
            rfl
          · exact List.forall_mem_cons.mpr ⟨three, threes⟩
        case isFalse short =>
          have nonzero : rest.length ≠ 0 := mt List.length_eq_zero_iff.mp last
          refine ⟨c :: first, groups, ?_, ?_, ?_, threes⟩
          · cases groups <;> rfl
          · rw [List.flatten_cons, List.cons_append]
            exact congrArg (c :: ·) parts
          · rw [List.length_cons]
            omega

/-- The text of a number without groups is canonical, and two numbers have one
text if and only if they are equal.  Grouping cuts the digits before the separator
into groups of three, of which only the first may be shorter. -/
theorem plain_canonical (locale : Locale) {d : Decimal}
    (proper : d.HasProperSign) :
    (∀ e : Decimal, e.HasProperSign →
      (plain locale false d = plain locale false e ↔ d.toRat = e.toRat)) ∧
    ∃ numeral : Numeral,
      numeral.IsCanonical ∧ plain locale false d = numeral.text locale ∧
      ∀ separator, locale.grouping = some separator →
        ∃ first groups,
          plain locale true d =
            { numeral with
              whole := Text.join [separator] (first :: groups) }.text locale ∧
          (first :: groups).flatten = numeral.whole ∧
          (1 ≤ first.length ∧ first.length ≤ 3) ∧
          ∀ group ∈ groups, group.length = 3 := by
  have canonical := isCanonical_numeralOf proper
  refine ⟨fun e otherProper => ⟨fun sameText => ?_, fun sameNumber => ?_⟩,
    numeralOf d, canonical, plain_eq_text locale d, fun separator grouping => ?_⟩
  · exact toRat_eq_of_numeralOf_eq
      (canonical.eq_of_text_eq (isCanonical_numeralOf otherProper) sameText)
  · refine plain_congr ?_ ?_ locale false
    · rw [proper.negative_eq, otherProper.negative_eq, sameNumber]
    · rw [size_eq_abs, size_eq_abs, sameNumber]
  · obtain ⟨first, groups, joined, parts, bounds, threes⟩ :=
      groupThousands_eq_join separator d.wholeText_digits.1
    refine ⟨first, groups, ?_, parts, bounds, threes⟩
    have grouped : wholePart locale true d.wholeText =
        Text.join [separator] (first :: groups) := by
      unfold wholePart
      rw [grouping]
      exact joined
    rw [plain_eq, grouped]
    rfl

/-- One number with two coefficients, and with two full groups of digits. -/
theorem plain_canonical_full_groups :
    let d : Decimal := ⟨true, 12345650, -2⟩
    let e : Decimal := ⟨true, 1234565, -1⟩
    d.HasProperSign ∧ e.HasProperSign ∧
    (plain .default false d = plain .default false e ↔ d.toRat = e.toRat) ∧
    ∃ numeral : Numeral,
      numeral.IsCanonical ∧ plain .default false d = numeral.text .default ∧
      ∃ first groups,
        plain .default true d =
          { numeral with
            whole := Text.join [','] (first :: groups) }.text .default ∧
        (first :: groups).flatten = numeral.whole ∧
        (1 ≤ first.length ∧ first.length ≤ 3) ∧
        ∀ group ∈ groups, group.length = 3 := by
  intro d e
  have proper : d.HasProperSign := fun _ => rfl
  have otherProper : e.HasProperSign := fun _ => rfl
  obtain ⟨texts, numeral, canonical, text, groups⟩ :=
    plain_canonical .default proper
  exact ⟨proper, otherProper, texts e otherProper, numeral, canonical, text,
    groups ',' rfl⟩

end Number

end CurrencyPad
