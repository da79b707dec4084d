import CurrencyPad.Money.Reading
import CurrencyPad.Proofs.Binary64.Division
import CurrencyPad.Proofs.Number.Evaluation

/-!
# Reading shown amounts back

The text of a shown amount, with or without the letter of a unit, is read as the
number that it shows.  The product with the unit keeps all digits, since an amount
has at most seventeen of them.
-/

namespace CurrencyPad

namespace Text

theorem isBlank_of_isAsciiDigit {c : Char} (digit : isAsciiDigit c = true) :
    isBlank c = false := by
  have visible := of_isAsciiDigit (fun d => !isBlank d) (by decide) digit
  simpa using visible

end Text

namespace Number

variable {locale : Locale}

theorem head?_groupThousands (separator : Char) (digits : Text) :
    (groupThousands separator digits).head? = digits.head? := by
  cases digits with
  | nil =>
      rfl
  | cons c rest =>
      rw [groupThousands]
      split <;> rfl

theorem getLast?_groupThousands (separator : Char) (digits : Text) :
    (groupThousands separator digits).getLast? = digits.getLast? := by
  induction digits with
  | nil =>
      rfl
  | cons c rest inductionHypothesis =>
      rw [groupThousands]
      split
      case isTrue more =>
        have isLast := List.getLast?_eq_some_getLast
          (List.ne_nil_of_length_pos (Nat.pos_of_ne_zero more.1))
        rw [List.getLast?_cons, List.getLast?_cons, List.getLast?_cons,
          inductionHypothesis, isLast]
        rfl
      case isFalse =>
        rw [List.getLast?_cons, List.getLast?_cons, inductionHypothesis]

theorem wholePart_ends (locale : Locale) (grouped : Bool) (whole : Text) :
    (wholePart locale grouped whole).head? = whole.head? ∧
      (wholePart locale grouped whole).getLast? = whole.getLast? := by
  unfold wholePart
  split
  · exact ⟨head?_groupThousands _ _, getLast?_groupThousands _ _⟩
  · exact ⟨rfl, rfl⟩

/-- A number in plain notation starts with a sign or a digit. -/
theorem isBlank_head?_plain (locale : Locale) (grouped : Bool) (d : Decimal) :
    ∃ c, (plain locale grouped d).head? = some c ∧ Text.isBlank c = false := by
  obtain ⟨nonempty, all⟩ := d.wholeText_digits
  obtain ⟨head, _⟩ := wholePart_ends locale grouped d.wholeText
  unfold plain Text.withSign
  cases d.negative with
  | true =>
      exact ⟨'-', rfl, by decide⟩
  | false =>
      obtain ⟨c, rest, isWhole⟩ := List.exists_cons_of_ne_nil nonempty
      rw [isWhole] at head all
      have isHead : (wholePart locale grouped d.wholeText ++
          fractionPart locale d.fractionText).head? = some c := by
        rw [isWhole, List.head?_append, head]
        rfl
      exact ⟨c, isHead,
        Text.isBlank_of_isAsciiDigit (all c List.mem_cons_self)⟩

/-- A number in plain notation ends with a digit. -/
theorem isAsciiDigit_getLast?_plain (locale : Locale) (grouped : Bool)
    (d : Decimal) :
    ∃ c, (plain locale grouped d).getLast? = some c ∧
      Text.isAsciiDigit c = true := by
  obtain ⟨nonempty, all⟩ := d.wholeText_digits
  obtain ⟨_, last⟩ := wholePart_ends locale grouped d.wholeText
  have wholeLast : ∃ c,
      (wholePart locale grouped d.wholeText).getLast? = some c ∧
        Text.isAsciiDigit c = true := by
    rw [last]
    exact ⟨d.wholeText.getLast nonempty, List.getLast?_eq_some_getLast nonempty,
      all _ (List.getLast_mem nonempty)⟩
  have unsigned : ∃ c,
      (wholePart locale grouped d.wholeText ++
        if d.shownPlaces.isEmpty then []
        else locale.decimal :: d.shownPlaces).getLast? = some c ∧
          Text.isAsciiDigit c = true := by
    split
    · rw [List.append_nil]
      exact wholeLast
    case isFalse some =>
      have places : d.shownPlaces ≠ [] := fun none => some (by rw [none]; rfl)
      refine ⟨d.shownPlaces.getLast places, ?_,
        d.shownPlaces_digits _ (List.getLast_mem places)⟩
      rw [List.getLast?_append, List.getLast?_cons,
        List.getLast?_eq_some_getLast places]
      rfl
  rw [plain_eq]
  unfold Text.withSign
  cases d.negative with
  | false =>
      exact unsigned
  | true =>
      obtain ⟨c, isLast, digit⟩ := unsigned
      refine ⟨c, ?_, digit⟩
      rw [if_pos rfl, List.getLast?_cons, isLast]
      rfl

end Number

namespace Money

open Number

/-- The ten digits are read with their usual values. -/
theorem digitsValue?_eq {text : Text}
    (all : ∀ c ∈ text, Text.isAsciiDigit c = true) :
    digitsValue? text = some (Decimal.digitsValue text) := by
  unfold digitsValue? Decimal.digitsValue
  generalize 0 = value
  induction text generalizing value with
  | nil =>
      rfl
  | cons c rest inductionHypothesis =>
      rw [List.forall_mem_cons] at all
      have digit : (Text.decimalDigit? c ==
          some (c.toNat - '0'.toNat)) = true :=
        Text.of_isAsciiDigit (fun d => Text.decimalDigit? d ==
          some (d.toNat - '0'.toNat)) (by decide) all.1
      rw [List.foldl_cons, beq_iff_eq.mp digit]
      exact inductionHypothesis all.2 _

theorem unsigned?_numeral (negative : Bool) (d : Decimal) :
    unsigned? negative d.numeral =
      some ⟨negative, Decimal.digitsValue (d.wholeText ++ d.shownPlaces),
        -(d.shownPlaces.length : ℤ)⟩ := by
  obtain ⟨nonempty, all⟩ := d.wholeText_digits
  have noPoint : ∀ c ∈ d.wholeText, (c != '.') = true := fun c member =>
    Text.of_isAsciiDigit (· != '.') (by decide) (all c member)
  have digits : ∀ c ∈ d.wholeText ++ d.shownPlaces,
      Text.isAsciiDigit c = true := by
    intro c member
    exact (List.mem_append.mp member).elim (all c) (d.shownPlaces_digits c)
  have parts : d.numeral.takeWhile (· != '.') = d.wholeText ∧
      (d.numeral.dropWhile (· != '.')).drop 1 = d.shownPlaces := by
    unfold Decimal.numeral
    rw [List.takeWhile_append_of_pos noPoint,
      List.dropWhile_append_of_pos noPoint]
    split
    case isTrue isEmpty =>
      rw [List.isEmpty_iff.mp isEmpty]
      exact ⟨List.append_nil _, rfl⟩
    case isFalse =>
      exact ⟨List.append_nil _, rfl⟩
  unfold unsigned?
  dsimp only
  rw [parts.1, parts.2, digitsValue?_eq digits]
  simp [nonempty]

/-- The plain notation with a point is read as its own number. -/
theorem signed?_plain (d : Decimal) :
    ∃ e, signed? (plain Locale.default false d) = some e ∧
      e.negative = d.negative ∧ e.size = d.size := by
  have written : plain Locale.default false d =
      Text.withSign d.negative d.numeral := rfl
  have size := Decimal.size_eq_digitsValue d
  refine ⟨⟨d.negative, Decimal.digitsValue (d.wholeText ++ d.shownPlaces),
    -(d.shownPlaces.length : ℤ)⟩, ?_, rfl, size.symm⟩
  rw [written, ← unsigned?_numeral]
  unfold Text.withSign
  cases d.negative with
  | true =>
      rfl
  | false =>
      obtain ⟨nonempty, all⟩ := d.wholeText_digits
      obtain ⟨c, rest, isWhole⟩ := List.exists_cons_of_ne_nil nonempty
      have noSign : (c != '-') = true :=
        Text.of_isAsciiDigit (· != '-') (by decide)
          (all c (by rw [isWhole]; exact List.mem_cons_self))
      have starts : ∃ later, d.numeral = c :: later := by
        unfold Decimal.numeral
        rw [isWhole]
        exact ⟨_, rfl⟩
      obtain ⟨later, isNumeral⟩ := starts
      rw [if_neg Bool.false_ne_true, isNumeral]
      unfold signed?
      split
      case h_1 same =>
        rw [(List.cons.inj same).1] at noSign
        exact absurd noSign (by decide)
      case h_2 =>
        rfl

end Money

namespace Decimal

def times (d : Decimal) (factor : Nat) : Decimal :=
  ⟨d.negative, d.coefficient * factor, d.exponent⟩

theorem size_times (d : Decimal) (factor : Nat) :
    (d.times factor).size = d.size * factor := by
  unfold size times
  push_cast
  ring

theorem toRat_times (d : Decimal) (factor : Nat) :
    (d.times factor).toRat = d.toRat * factor := by
  unfold toRat
  rw [size_times, ite_mul, neg_mul]
  rfl

/-- The product with a whole number is the exact one, rounded to significant
digits. -/
theorem multiply_whole (d : Decimal) (factor : Nat) :
    d.multiply ⟨false, factor, 0⟩ =
      (d.times factor).toSignificant productDigits := by
  rw [multiply, Bool.bne_false, add_zero]
  rfl

/-- A product with few significant digits is exact. -/
theorem multiply_spec {d : Decimal} {factor : Nat}
    (short : IsShort productDigits (d.size * factor)) :
    (d.multiply ⟨false, factor, 0⟩).negative = d.negative ∧
      (d.multiply ⟨false, factor, 0⟩).size = d.size * factor := by
  rw [multiply_whole, negative_toSignificant]
  rw [← size_times] at short ⊢
  exact ⟨rfl, size_toSignificant (by decide) short⟩

end Decimal

namespace Money

open Number

variable {locale : Locale}

/-- A number in plain notation before a unit is read as the exact product. -/
theorem plainOfShown_eq (readable : locale.IsReadable) {grouped : Bool}
    {text : Text} {zeros : Nat} {d : Decimal}
    (parts : splitUnit (Text.strip text) =
      (10 ^ zeros, plain locale grouped d))
    (short : Decimal.IsShort 17 d.size)
    (plainZero : d.size = 0 → d.negative = false) :
    plainOfShown locale text =
      .ok (plain locale false (d.times (10 ^ zeros))) := by
  obtain ⟨e, isRead, sign, size⟩ := signed?_plain d
  have fewDigits : Decimal.IsShort Decimal.productDigits
      (e.size * (10 ^ zeros : ℕ)) := by
    rw [size]
    push_cast
    exact (short.mul_ten_pow zeros).mono (by decide)
  obtain ⟨productSign, productSize⟩ := Decimal.multiply_spec fewDigits
  unfold plainOfShown readAmount
  rw [parts]
  dsimp only
  rw [normalize_plain readable, isRead]
  dsimp only
  refine congrArg Except.ok ?_
  have target : (d.times (10 ^ zeros)).size =
      d.size * (10 ^ zeros : ℕ) := d.size_times _
  generalize e.multiply ⟨false, 10 ^ zeros, 0⟩ = product
    at productSign productSize
  rw [size, ← target] at productSize
  split
  case isTrue zero =>
    have none : product.size = 0 := by
      have noUnits : product.coefficient = 0 := by
        simpa [Decimal.isZero] using zero
      simp [Decimal.size, noUnits]
    have zeroSize : d.size = 0 := by
      rw [none, target] at productSize
      have positive : ((10 ^ zeros : ℕ) : ℚ) ≠ 0 := by positivity
      exact (mul_eq_zero.mp productSize.symm).resolve_right positive
    refine plain_congr (plainZero zeroSize).symm ?_ locale false
    rw [← productSize, none]
    simp [Decimal.size, Decimal.zero]
  case isFalse =>
    exact plain_congr (e := d.times (10 ^ zeros)) (productSign.trans sign)
      productSize locale false

theorem ofLetter?_letter {unit : AmountUnit} (member : unit ∈ AmountUnit.all) :
    AmountUnit.ofLetter? unit.letter = some unit := by
  have each : ∀ unit ∈ AmountUnit.all,
      AmountUnit.ofLetter? unit.letter = some unit := by
    decide
  exact each unit member

theorem ofLetter?_digit {c : Char} (digit : Text.isAsciiDigit c = true) :
    AmountUnit.ofLetter? c = none := by
  have none := Text.of_isAsciiDigit
    (fun d => (AmountUnit.ofLetter? d).isNone) (by decide) digit
  exact Option.isNone_iff_eq_none.mp none

/-- What is needed of the units: they are powers of ten, their letters are
visible, and dividing by them leaves finite doubles finite. -/
theorem unit_spec {unit : AmountUnit} (member : unit ∈ AmountUnit.all) :
    (∃ zeros, unit.scale = 10 ^ zeros) ∧
      Text.isBlank unit.letter = false ∧
      ∃ count exponent positive,
        (Float.ofNat unit.scale).toModel.unpack =
            .finite .positive count exponent positive ∧
          1 ≤ count.log2 + exponent := by
  simp only [AmountUnit.all, List.mem_cons, List.not_mem_nil, or_false]
    at member
  rcases member with rfl | rfl | rfl | rfl
  · exact ⟨⟨12, rfl⟩, by decide, _, _, _, rfl, by decide⟩
  · exact ⟨⟨9, rfl⟩, by decide, _, _, _, rfl, by decide⟩
  · exact ⟨⟨6, rfl⟩, by decide, _, _, _, rfl, by decide⟩
  · exact ⟨⟨3, rfl⟩, by decide, _, _, _, rfl, by decide⟩

end Money

end CurrencyPad
