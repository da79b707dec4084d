import CurrencyPad.Json.Printer
import CurrencyPad.Json.Reader
import CurrencyPad.Proofs.Binary64.Equality
import CurrencyPad.Proofs.Binary64.Shortest
import CurrencyPad.Proofs.Expression.Language
import CurrencyPad.Proofs.Json.Strings

/-!
# Numbers as they are printed

A number is printed with digits, perhaps a point with digits after it, and
perhaps a power of ten.  Whatever is printed of a whole number is read as this
number, and whatever is printed of a finite double as this double.
-/

namespace CurrencyPad

namespace Json

/-- The parts of a number.  Without digits after the point there is no point. -/
structure Numeral where
  whole : Text
  fraction : Text
  power : Option Int

namespace Numeral

def point (numeral : Numeral) : Text :=
  if numeral.fraction = [] then [] else '.' :: numeral.fraction

def mark (numeral : Numeral) : Text :=
  numeral.power.elim [] Binary64.powerText

def text (numeral : Numeral) : Text :=
  numeral.whole ++ numeral.point ++ numeral.mark

def decimal (numeral : Numeral) (negative : Bool) : Decimal :=
  ⟨negative, Decimal.digitsValue (numeral.whole ++ numeral.fraction),
    numeral.power.getD 0 - numeral.fraction.length⟩

/-- Digits before the point, of which a zero stands alone, and digits after
it. -/
structure Valid (numeral : Numeral) : Prop where
  nonempty : numeral.whole ≠ []
  digits : ∀ c ∈ numeral.whole, Text.isAsciiDigit c = true
  leading : numeral.whole.head? = some '0' → numeral.whole = ['0']
  places : ∀ c ∈ numeral.fraction, Text.isAsciiDigit c = true

/-- A number that is no whole number as it is printed. -/
def IsReal (numeral : Numeral) : Prop :=
  numeral.fraction ≠ [] ∨ numeral.power ≠ none

end Numeral

/-- What comes next does not go on with a number. -/
def EndsNumber (rest : Text) : Prop :=
  ∀ c ∈ rest.head?,
    Text.isAsciiDigit c = false ∧ c ≠ '.' ∧ c ≠ 'e' ∧ c ≠ 'E'

/-! ## Powers of ten -/

private theorem powerDigits (power : Int) :
    let digits := Decimal.digits power.natAbs
    let shown := if digits.length < 2 then '0' :: digits else digits
    shown ≠ [] ∧ (∀ c ∈ shown, Text.isAsciiDigit c = true) ∧
      Decimal.digitsValue shown = power.natAbs := by
  intro digits shown
  have all : ∀ c ∈ digits, Text.isAsciiDigit c = true :=
    Decimal.isAsciiDigit_of_mem_digits
  have value : Decimal.digitsValue digits = power.natAbs :=
    Decimal.digitsValue_digits power.natAbs
  by_cases short : digits.length < 2
  · have isShown : shown = '0' :: digits := if_pos short
    rw [isShown]
    exact ⟨List.cons_ne_nil _ _,
      List.forall_mem_cons.mpr ⟨by decide, all⟩, value⟩
  · have isShown : shown = digits := if_neg short
    rw [isShown]
    refine ⟨?_, all, value⟩
    rintro empty
    rw [empty] at short
    exact short (by decide)

theorem power?_powerText (power : Int) :
    Decimal.power? (Binary64.powerText power) = some power := by
  obtain ⟨nonempty, all, value⟩ := powerDigits power
  unfold Binary64.powerText
  dsimp only
  generalize (if (Decimal.digits power.natAbs).length < 2 then
    '0' :: Decimal.digits power.natAbs else Decimal.digits power.natAbs) =
      shown at nonempty all value
  have digits : shown.all Text.isAsciiDigit = true :=
    List.all_eq_true.mpr all
  have some : shown.isEmpty = false := by
    simpa using nonempty
  by_cases negative : power < 0
  · simp [Decimal.power?, Decimal.integer?, Decimal.splitSign, negative,
      digits, some, value, abs_of_neg]
  · simp [Decimal.power?, Decimal.integer?, Decimal.splitSign, negative,
      digits, some, value, abs_of_nonneg (Int.not_lt.mp negative)]

private theorem powerPart_signed {sign : Char}
    (isSign : sign = '-' ∨ sign = '+') {digits rest : Text}
    (nonempty : digits ≠ [])
    (all : ∀ c ∈ digits, Text.isAsciiDigit c = true)
    (ends : EndsNumber rest) :
    powerPart ('e' :: sign :: (digits ++ rest)) =
      ('e' :: sign :: digits, rest) := by
  have span := Text.span_digits all fun c member => (ends c member).1
  have some : digits.isEmpty = false := by
    simpa using nonempty
  rcases isSign with rfl | rfl
  all_goals
    rw [powerPart, if_pos (.inl rfl)]
    simp only [span, some]
    rfl

theorem powerPart_powerText (power : Int) {rest : Text}
    (ends : EndsNumber rest) :
    powerPart (Binary64.powerText power ++ rest) =
      (Binary64.powerText power, rest) := by
  obtain ⟨nonempty, all, _⟩ := powerDigits power
  refine powerPart_signed ?_ nonempty all ends
  split
  · exact .inl rfl
  · exact .inr rfl

theorem powerPart_of_ends {rest : Text} (ends : EndsNumber rest) :
    powerPart rest = ([], rest) := by
  cases rest with
  | nil =>
      rfl
  | cons c others =>
      obtain ⟨_, _, noSmall, noCapital⟩ := ends c rfl
      simp [powerPart, noSmall, noCapital]

/-! ## Characters of numbers -/

theorem isPlain_of_isAsciiDigit {c : Char}
    (digit : Text.isAsciiDigit c = true) : Text.isPlain c = true :=
  Text.of_isAsciiDigit Text.isPlain (by decide) digit

private theorem isPlain_powerText (power : Int) :
    ∀ c ∈ Binary64.powerText power, Text.isPlain c = true := by
  obtain ⟨_, all, _⟩ := powerDigits power
  unfold Binary64.powerText
  dsimp only
  refine List.forall_mem_cons.mpr ⟨by decide, List.forall_mem_cons.mpr
    ⟨?_, fun c member => isPlain_of_isAsciiDigit (all c member)⟩⟩
  split <;> decide

namespace Numeral

variable {numeral : Numeral}

theorem isPlain_withSign (valid : numeral.Valid) (negative : Bool) :
    ∀ c ∈ Text.withSign negative numeral.text, Text.isPlain c = true := by
  have point : ∀ c ∈ numeral.point, Text.isPlain c = true := by
    unfold point
    split
    · exact nofun
    · exact List.forall_mem_cons.mpr ⟨by decide, fun c member =>
        isPlain_of_isAsciiDigit (valid.places c member)⟩
  have mark : ∀ c ∈ numeral.mark, Text.isPlain c = true := by
    unfold mark
    cases numeral.power with
    | none =>
        exact nofun
    | some power =>
        exact isPlain_powerText power
  have unsigned : ∀ c ∈ numeral.text, Text.isPlain c = true := by
    intro c member
    simp only [text, List.mem_append] at member
    rcases member with (inWhole | inPoint) | inMark
    · exact isPlain_of_isAsciiDigit (valid.digits c inWhole)
    · exact point c inPoint
    · exact mark c inMark
  cases negative with
  | false =>
      exact unsigned
  | true =>
      exact List.forall_mem_cons.mpr ⟨by decide, unsigned⟩

theorem exists_text (valid : numeral.Valid) :
    ∃ c rest, numeral.text = c :: rest ∧ Text.isAsciiDigit c = true := by
  obtain ⟨c, others, isWhole⟩ :=
    List.exists_cons_of_ne_nil valid.nonempty
  refine ⟨c, others ++ numeral.point ++ numeral.mark, ?_,
    valid.digits c (isWhole ▸ List.mem_cons_self)⟩
  simp [text, isWhole]

end Numeral

/-! ## Reading the parts -/

namespace Numeral

variable {numeral : Numeral}

private theorem ends_whole (numeral : Numeral) {rest : Text}
    (ends : EndsNumber rest) :
    ∀ c ∈ (numeral.point ++ (numeral.mark ++ rest)).head?,
      Text.isAsciiDigit c = false := by
  obtain ⟨whole, fraction, power⟩ := numeral
  unfold point mark
  dsimp only
  split
  · cases power with
    | none =>
        exact fun c member => (ends c member).1
    | some power =>
        rintro c ⟨rfl⟩
        decide
  · rintro c ⟨rfl⟩
    decide

private theorem ends_fraction (numeral : Numeral) {rest : Text}
    (ends : EndsNumber rest) :
    ∀ c ∈ (numeral.mark ++ rest).head?,
      Text.isAsciiDigit c = false ∧ c ≠ '.' := by
  obtain ⟨whole, fraction, power⟩ := numeral
  unfold mark
  cases power with
  | none =>
      exact fun c member => ⟨(ends c member).1, (ends c member).2.1⟩
  | some power =>
      rintro c ⟨rfl⟩
      decide

theorem wholePart_append (valid : numeral.Valid) {rest : Text}
    (ends : ∀ c ∈ rest.head?, Text.isAsciiDigit c = false) :
    wholePart (numeral.whole ++ rest) = (numeral.whole, rest) := by
  by_cases zero : numeral.whole.head? = some '0'
  · rw [valid.leading zero]
    rfl
  · unfold wholePart
    split
    case h_1 after starts =>
      have first := congrArg List.head? starts
      rw [List.head?_append_of_ne_nil _ valid.nonempty] at first
      exact absurd first zero
    · exact Text.span_digits valid.digits ends

theorem fractionPart_append (valid : numeral.Valid) {rest : Text}
    (ends : ∀ c ∈ rest.head?, Text.isAsciiDigit c = false ∧ c ≠ '.') :
    fractionPart (numeral.point ++ rest) = (numeral.point, rest) := by
  by_cases empty : numeral.fraction = []
  · have noPoint : numeral.point = [] := if_pos empty
    rw [noPoint, List.nil_append]
    cases rest with
    | nil =>
        rfl
    | cons c others =>
        have different := (ends c rfl).2
        unfold fractionPart
        split
        case h_1 starts =>
          exact absurd (List.cons.inj starts).1 different
        · rfl
  · have isPoint : numeral.point = '.' :: numeral.fraction := if_neg empty
    have some : numeral.fraction.isEmpty = false := by
      simpa using empty
    rw [isPoint, List.cons_append, fractionPart,
      Text.span_digits valid.places fun c member => (ends c member).1]
    dsimp only
    rw [some]
    rfl

theorem powerPart_append {rest : Text} (ends : EndsNumber rest) :
    powerPart (numeral.mark ++ rest) = (numeral.mark, rest) := by
  unfold mark
  cases numeral.power with
  | none =>
      exact powerPart_of_ends ends
  | some power =>
      exact powerPart_powerText power ends

/-- The decimal of a number that is printed with a sign. -/
theorem ofText?_withSign (valid : numeral.Valid) (negative : Bool) :
    Decimal.ofText? (Text.withSign negative numeral.text) =
      some (numeral.decimal negative) := by
  have ends : EndsNumber [] := nofun
  have unsigned : Decimal.splitSign numeral.text =
      (false, numeral.text) := by
    obtain ⟨c, others, isText, digit⟩ := numeral.exists_text valid
    rw [isText]
    unfold Decimal.splitSign
    split
    case h_1 starts =>
      rw [(List.cons.inj starts).1] at digit
      exact absurd digit (by decide)
    case h_2 starts =>
      rw [(List.cons.inj starts).1] at digit
      exact absurd digit (by decide)
    · rfl
  have signed : Decimal.splitSign (Text.withSign negative numeral.text) =
      (negative, numeral.text) := by
    cases negative with
    | false =>
        exact unsigned
    | true =>
        rfl
  have wholeSpan : numeral.text.span Text.isAsciiDigit =
      (numeral.whole, numeral.point ++ numeral.mark) := by
    have stops := ends_whole numeral ends
    rw [List.append_nil] at stops
    rw [text, List.append_assoc]
    exact Text.span_digits valid.digits stops
  have fractionSpan : Decimal.splitFraction (numeral.point ++ numeral.mark) =
      (numeral.fraction, numeral.mark) := by
    have stops := ends_fraction numeral ends
    rw [List.append_nil] at stops
    by_cases empty : numeral.fraction = []
    · have noPoint : numeral.point = [] := if_pos empty
      rw [noPoint, empty, List.nil_append]
      unfold Decimal.splitFraction
      split
      case h_1 starts =>
        exact absurd rfl (stops '.' (by rw [starts]; rfl)).2
      · rfl
    · have isPoint : numeral.point = '.' :: numeral.fraction :=
        if_neg empty
      rw [isPoint]
      exact Text.span_digits valid.places fun c member =>
        (stops c member).1
  have power : Decimal.power? numeral.mark = some (numeral.power.getD 0) := by
    unfold mark
    cases numeral.power with
    | none =>
        rfl
    | some power =>
        exact power?_powerText power
  have someWhole : numeral.whole.isEmpty = false := by
    simpa using valid.nonempty
  simp only [Decimal.ofText?, signed, wholeSpan, fractionSpan, power,
    someWhole, Bool.false_and]
  rfl

private theorem number_parts (valid : numeral.Valid) (negative : Bool)
    {rest : Text} (ends : EndsNumber rest) :
    number negative (numeral.text ++ rest) =
      if numeral.point.isEmpty && numeral.mark.isEmpty then
        if Integer.digitLimit < numeral.whole.length then
          .error (.tooManyDigits numeral.whole.length)
        else
          let value : Int := Decimal.digitsValue numeral.whole
          .ok (.integer (if negative then -value else value), rest)
      else
        .ok (.real (Binary64.ofDecimal (numeral.decimal negative)),
          rest) := by
  have someWhole : numeral.whole.isEmpty = false := by
    simpa using valid.nonempty
  have isText : numeral.text ++ rest =
      numeral.whole ++ (numeral.point ++ (numeral.mark ++ rest)) := by
    simp [text]
  have read := ofText?_withSign valid negative
  rw [text] at read
  rw [isText, number, wholePart_append valid (ends_whole numeral ends)]
  simp only [someWhole, fractionPart_append valid
    (ends_fraction numeral ends), powerPart_append ends, read]
  rfl

/-- A whole number of no more than 4300 digits is read as it is printed. -/
theorem number_integer (valid : numeral.Valid) (noPoint : ¬ numeral.IsReal)
    (few : numeral.whole.length ≤ Integer.digitLimit) (negative : Bool)
    {rest : Text} (ends : EndsNumber rest) :
    let value : Int := Decimal.digitsValue numeral.whole
    number negative (numeral.text ++ rest) =
      .ok (.integer (if negative then -value else value), rest) := by
  intro value
  rw [IsReal, not_or, not_not, not_not] at noPoint
  have plain : (numeral.point.isEmpty && numeral.mark.isEmpty) = true := by
    simp [point, mark, noPoint]
  rw [number_parts valid negative ends, if_pos plain,
    if_neg (Nat.not_lt.mpr few)]

/-- A number with a point or a power of ten is read as the nearest double. -/
theorem number_real (valid : numeral.Valid) (isReal : numeral.IsReal)
    (negative : Bool) {rest : Text} (ends : EndsNumber rest) :
    number negative (numeral.text ++ rest) =
      .ok (.real (Binary64.ofDecimal (numeral.decimal negative)), rest) := by
  have notPlain :
      ¬ (numeral.point.isEmpty && numeral.mark.isEmpty) = true := by
    obtain ⟨whole, fraction, power⟩ := numeral
    rcases isReal with someFraction | somePower
    · simp [point, someFraction]
    · cases power with
      | none =>
          exact absurd rfl somePower
      | some power =>
          simp [mark, Binary64.powerText]
  rw [number_parts valid negative ends, if_neg notPlain]

end Numeral

/-! ## Printed numbers -/

/-- A number whose parts have the given digits at the given power of ten. -/
private structure Holds (digits : Text) (power : Int)
    (numeral : Numeral) : Prop where
  valid : numeral.Valid
  isReal : numeral.IsReal
  size : ∀ negative, (numeral.decimal negative).size =
    Decimal.digitsValue digits * (10 : ℚ) ^ (power + 1 - digits.length)

/-- The first digit, the others after a point, and the power of ten. -/
private theorem holds_scientific {first : Char} {rest : Text}
    (all : ∀ c ∈ first :: rest, Text.isAsciiDigit c = true) (power : Int) :
    Holds (first :: rest) power ⟨[first], rest, some power⟩ where
  valid :=
    { nonempty := List.cons_ne_nil first []
      digits := List.forall_mem_singleton.mpr (all first List.mem_cons_self)
      leading := by
        intro zero
        rw [Option.some.inj zero]
      places := fun c member => all c (List.mem_cons_of_mem first member) }
  isReal := .inr (Option.some_ne_none power)
  size := by
    intro negative
    have same : power + 1 - ((first :: rest).length : Int) =
        power - rest.length := by
      rw [List.length_cons]
      push_cast
      ring
    rw [same]
    rfl

/-- Zeros after the point, and the digits after them. -/
private theorem holds_small {digits : Text} (nonempty : digits ≠ [])
    (all : ∀ c ∈ digits, Text.isAsciiDigit c = true) {power : Int}
    (negative : power < 0) :
    Holds digits power
      ⟨['0'], List.replicate (-power - 1).toNat '0' ++ digits, none⟩ where
  valid :=
    { nonempty := List.cons_ne_nil '0' []
      digits := List.forall_mem_singleton.mpr (by decide)
      leading := fun _ => rfl
      places := by
        intro c member
        rcases List.mem_append.mp member with isZero | isDigit
        · rw [List.eq_of_mem_replicate isZero]
          decide
        · exact all c isDigit }
  isReal := .inl (List.append_ne_nil_of_right_ne_nil _ nonempty)
  size := by
    intro sign
    have value : Decimal.digitsValue
        (['0'] ++ (List.replicate (-power - 1).toNat '0' ++ digits)) =
          Decimal.digitsValue digits := by
      have zero : Decimal.digitsValue ['0'] = 0 := rfl
      rw [Decimal.digitsValue_append, Decimal.digitsValue_append,
        Decimal.digitsValue_replicate_zero, zero, Nat.zero_mul,
        Nat.zero_mul, Nat.zero_add, Nat.zero_add]
    have places : (0 : Int) -
        (List.replicate (-power - 1).toNat '0' ++ digits).length =
          power + 1 - digits.length := by
      rw [List.length_append, List.length_replicate]
      omega
    rw [Decimal.size, Numeral.decimal, value, Option.getD_none, places]

/-- The digits up to the power of ten, filled up with zeros, and at least one
more after the point. -/
private theorem holds_places {digits : Text} (nonempty : digits ≠ [])
    (all : ∀ c ∈ digits, Text.isAsciiDigit c = true) {power : Int}
    (zero : digits.head? = some '0' → digits = ['0'] ∧ power = 0)
    (nonneg : 0 ≤ power) :
    let whole := power.toNat + 1
    let padded :=
      digits ++ List.replicate (whole + 1 - digits.length) '0'
    Holds digits power ⟨padded.take whole, padded.drop whole, none⟩ := by
  intro whole padded
  -- The zeros leave a digit after the point, so this is no whole number.
  have length : padded.length =
      digits.length + (whole + 1 - digits.length) := by
    simp [padded]
  have allPadded : ∀ c ∈ padded, Text.isAsciiDigit c = true := by
    intro c member
    rcases List.mem_append.mp member with isDigit | isZero
    · exact all c isDigit
    · rw [List.eq_of_mem_replicate isZero]
      decide
  have head : (padded.take whole).head? = digits.head? := by
    rw [List.head?_take, if_neg (Nat.succ_ne_zero _),
      List.head?_append_of_ne_nil _ nonempty]
  refine ⟨⟨?_, ?_, ?_, ?_⟩, .inl ?_, ?_⟩
  · intro empty
    have none := congrArg List.head? empty
    rw [head, List.head?_eq_none_iff.mpr rfl,
      List.head?_eq_none_iff] at none
    exact nonempty none
  · exact fun c member => allPadded c (List.mem_of_mem_take member)
  · intro starts
    obtain ⟨alone, isZero⟩ := zero (head.symm.trans starts)
    simp only [padded, whole, alone, isZero]
    rfl
  · exact fun c member => allPadded c (List.mem_of_mem_drop member)
  · intro empty
    have nothing := congrArg List.length empty
    rw [List.length_drop, length, List.length_nil] at nothing
    omega
  · intro sign
    have value : Decimal.digitsValue padded =
        Decimal.digitsValue digits *
          10 ^ (whole + 1 - digits.length) := by
      rw [Decimal.digitsValue_append, Decimal.digitsValue_replicate_zero,
        List.length_replicate, Nat.add_zero]
    have places : (power + 1 - digits.length : Int) =
        (0 - ((padded.drop whole).length : Int)) +
          ((whole + 1 - digits.length : Nat) : Int) := by
      rw [List.length_drop, length]
      omega
    rw [Decimal.size, Numeral.decimal, List.take_append_drop, value,
      Option.getD_none, places, zpow_add₀ (by norm_num), zpow_natCast]
    push_cast
    ring

/-- Digits with a power of ten are printed as a number that holds them. -/
private theorem exists_placeDigits {digits : Text} (nonempty : digits ≠ [])
    (all : ∀ c ∈ digits, Text.isAsciiDigit c = true) {power : Int}
    (zero : digits.head? = some '0' → digits = ['0'] ∧ power = 0) :
    ∃ numeral, Holds digits power numeral ∧
      Binary64.placeDigits digits power = numeral.text := by
  unfold Binary64.placeDigits
  split_ifs with scientific negative
  · cases digits with
    | nil =>
        exact absurd rfl nonempty
    | cons first rest =>
        refine ⟨_, holds_scientific all power, ?_⟩
        cases rest with
        | nil =>
            rfl
        | cons second others =>
            rfl
  · refine ⟨_, holds_small nonempty all negative, ?_⟩
    have someDigits :
        List.replicate (-power - 1).toNat '0' ++ digits ≠ [] :=
      List.append_ne_nil_of_right_ne_nil _ nonempty
    simp only [Numeral.text, Numeral.point, if_neg someDigits,
      Numeral.mark, Option.elim_none, List.append_nil]
    rfl
  · have holds := holds_places nonempty all zero (Int.not_lt.mp negative)
    refine ⟨_, holds, ?_⟩
    have someDigits := holds.isReal.resolve_right (absurd rfl)
    simp only [Numeral.text, Numeral.point, if_neg someDigits,
      Numeral.mark, Option.elim_none, List.append_nil]

/-! ## Numbers as values -/

/-- A whole number is printed as a numeral without a point. -/
theorem exists_integerText (value : Int) :
    ∃ numeral : Numeral, numeral.Valid ∧ ¬ numeral.IsReal ∧
      integerText value = Text.withSign (value < 0) numeral.text ∧
      numeral.whole.length = Decimal.digitCount value.natAbs ∧
      (if value < 0 then -(Decimal.digitsValue numeral.whole : Int)
        else Decimal.digitsValue numeral.whole) = value := by
  refine ⟨⟨Decimal.digits value.natAbs, [], none⟩,
    ⟨Nat.toDigits_ne_nil, fun c => Decimal.isAsciiDigit_of_mem_digits c,
      ?_, nofun⟩, ?_, ?_, rfl, ?_⟩
  · intro starts
    rw [Decimal.eq_zero_of_head?_digits starts]
    rfl
  · simp [Numeral.IsReal]
  · simp [integerText, Numeral.text, Numeral.point, Numeral.mark]
  · rw [Decimal.digitsValue_digits]
    split <;> omega

end Json

/-- Zero is reduced to zero without a power of ten. -/
theorem Decimal.exponent_reduced_of_coefficient_eq_zero (d : Decimal) :
    d.reduced.coefficient = 0 → d.reduced.exponent = 0 := by
  unfold reduced
  split
  · exact fun _ => rfl
  case isFalse nonzero =>
    intro zero
    have parts := (trimZeros_spec (digitCount d.coefficient)
      d.coefficient).1
    dsimp only at zero
    rw [zero, Nat.zero_mul] at parts
    exact absurd parts nonzero

namespace Binary64

/-- The shortest decimal of zero has no power of ten. -/
theorem exponent_eq_zero_of_toDecimal {x : Float} {d : Decimal}
    (isDecimal : toDecimal x = .finite d) (zero : d.coefficient = 0) :
    d.exponent = 0 := by
  unfold toDecimal at isDecimal
  split at isDecimal
  · split at isDecimal <;> cases isDecimal
  · cases isDecimal
    revert zero
    split
    · exact fun _ => rfl
    · exact Decimal.exponent_reduced_of_coefficient_eq_zero _

end Binary64

namespace Json

/-- The text of a double shows the number of its shortest decimal as a numeral
with a point or a power of ten. -/
theorem exists_text_eq {x : Float} {d : Decimal}
    (isDecimal : Binary64.toDecimal x = .finite d) :
    ∃ numeral : Numeral, numeral.Valid ∧ numeral.IsReal ∧
      Binary64.text x = Text.withSign d.negative numeral.text ∧
      (numeral.decimal d.negative).size = d.size := by
  have zero : (Decimal.digits d.coefficient).head? = some '0' →
      Decimal.digits d.coefficient = ['0'] ∧ d.magnitude = 0 := by
    intro starts
    have none := Decimal.eq_zero_of_head?_digits starts
    have exponent := Binary64.exponent_eq_zero_of_toDecimal isDecimal none
    rw [Decimal.magnitude, none, exponent]
    exact ⟨rfl, rfl⟩
  have nonempty : Decimal.digits d.coefficient ≠ [] := Nat.toDigits_ne_nil
  have all : ∀ c ∈ Decimal.digits d.coefficient,
      Text.isAsciiDigit c = true :=
    Decimal.isAsciiDigit_of_mem_digits
  obtain ⟨numeral, holds, printed⟩ := exists_placeDigits nonempty all zero
  refine ⟨numeral, holds.valid, holds.isReal, ?_, ?_⟩
  · rw [Binary64.text, isDecimal, ← printed]
  · have shift : d.magnitude + 1 -
        ((Decimal.digits d.coefficient).length : Int) = d.exponent := by
      rw [Decimal.magnitude, Decimal.digitCount]
      omega
    rw [holds.size, Decimal.digitsValue_digits, shift]
    rfl

/-- A finite double is printed as a numeral with a point or a power of ten. -/
theorem exists_realText {x : Float} (finite : x.isFinite = true) :
    ∃ (negative : Bool) (numeral : Numeral), numeral.Valid ∧
      numeral.IsReal ∧
      realText x = Text.withSign negative numeral.text ∧
      Binary64.ofDecimal (numeral.decimal negative) = x := by
  obtain ⟨d, isDecimal, _, same⟩ := Binary64.toDecimal_spec finite
  obtain ⟨numeral, valid, isReal, printed, size⟩ := exists_text_eq isDecimal
  refine ⟨d.negative, numeral, valid, isReal, ?_, ?_⟩
  · have special := Binary64.isFinite_eq x
    rw [finite, eq_comm, Bool.not_eq_true', Bool.or_eq_false_iff] at special
    rw [realText, special.1, special.2, if_neg Bool.false_ne_true,
      if_neg Bool.false_ne_true, printed]
  · have sign : (numeral.decimal d.negative).negative = d.negative := rfl
    rw [Binary64.ofDecimal_congr sign size, same]

end Json

namespace Binary64

/-- The text of a double is read as the number of its shortest decimal. -/
theorem ofText?_text {x : Float} {d : Decimal}
    (isDecimal : toDecimal x = .finite d) :
    ∃ e, Decimal.ofText? (text x) = some e ∧ e.toRat = d.toRat := by
  obtain ⟨numeral, valid, _, printed, size⟩ := Json.exists_text_eq isDecimal
  refine ⟨numeral.decimal d.negative, ?_, ?_⟩
  · rw [printed, Json.Numeral.ofText?_withSign valid]
  · rw [Decimal.toRat, Decimal.toRat, size]
    rfl

end Binary64

end CurrencyPad
