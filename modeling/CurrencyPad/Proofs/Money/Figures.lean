import CurrencyPad.Proofs.Decimal.HalfEven
import CurrencyPad.Proofs.Money.Reading

/-!
# Texts that are read as amounts

A text is read as an amount where its normal form, without the letter of a unit
at the end, is a row of digits with at most one point and at most one sign.  The
digits may be of any script, but only digits with which decimal numbers are
written.
-/

namespace CurrencyPad

namespace Text

theorem lt_ten_of_decimalDigit? {c : Char} {value : Nat}
    (isDigit : decimalDigit? c = some value) : value < 10 := by
  unfold decimalDigit? at isDigit
  obtain ⟨range, _, rfl⟩ := Option.map_eq_some_iff.mp isDigit
  exact Nat.mod_lt _ (by decide)

end Text

namespace Money

open Number

private theorem foldl_none (text : Text) :
    text.foldl
      (fun (value : Option Nat) c => do
        let value ← value
        let digit ← Text.decimalDigit? c
        return 10 * value + digit)
      none = none := by
  induction text with
  | nil =>
      rfl
  | cons c rest inductionHypothesis =>
      exact inductionHypothesis

/-- A row is read with the values of its digits where all of them have one. -/
theorem digitsValue?_eq_some_iff {text : Text} {value : Nat} :
    digitsValue? text = some value ↔
      (∀ c ∈ text, (Text.decimalDigit? c).isSome = true) ∧
        Decimal.digitsValue (Decimal.asciiDigits text) = value := by
  unfold digitsValue? Decimal.digitsValue
  generalize 0 = start
  induction text generalizing start with
  | nil =>
      simp [Decimal.asciiDigits]
  | cons c rest inductionHypothesis =>
      rw [List.foldl_cons, List.forall_mem_cons]
      cases isDigit : Text.decimalDigit? c with
      | none =>
          refine iff_of_false ?_ ?_
          · intro isValue
            cases (foldl_none rest).symm.trans isValue
          · rintro ⟨⟨isSome, _⟩, _⟩
            cases isSome
      | some digit =>
          have ascii : Decimal.asciiDigits (c :: rest) =
              Char.ofNat (0x30 + digit) :: Decimal.asciiDigits rest := by
            simp [Decimal.asciiDigits, isDigit]
          have code : (Char.ofNat (0x30 + digit)).toNat - '0'.toNat =
              digit := by
            have small := Text.lt_ten_of_decimalDigit? isDigit
            interval_cases digit <;> rfl
          rw [ascii, Nat.ofDigitChars_cons, code]
          apply (inductionHypothesis (10 * start + digit)).trans
          simp

/-- Digits, perhaps with a point before, between or after them. -/
structure Figure where
  whole : Text
  fraction : Option Text

namespace Figure

variable {figure : Figure}

def places (figure : Figure) : Text :=
  figure.fraction.getD []

def digits (figure : Figure) : Text :=
  figure.whole ++ figure.places

def text (figure : Figure) : Text :=
  figure.whole ++ figure.fraction.elim [] ('.' :: ·)

/-- The decimal that digits with a point stand for. -/
def decimal (figure : Figure) (negative : Bool) : Decimal :=
  ⟨negative, Decimal.digitsValue (Decimal.asciiDigits figure.digits),
    -(figure.places.length : ℤ)⟩

/-- There is a digit, and all digits are such as decimal numbers are written
with. -/
structure Valid (figure : Figure) : Prop where
  nonempty : figure.digits ≠ []
  decimals : ∀ c ∈ figure.digits, (Text.decimalDigit? c).isSome = true

theorem Valid.ne_of_mem_digits (valid : figure.Valid) {c d : Char}
    (other : Text.decimalDigit? d = none) (member : c ∈ figure.digits) :
    c ≠ d := by
  rintro rfl
  have digit := valid.decimals c member
  rw [other] at digit
  cases digit

theorem Valid.not_mem_text (valid : figure.Valid) : '-' ∉ figure.text := by
  intro member
  rcases List.mem_append.mp member with isWhole | isRest
  · exact valid.ne_of_mem_digits (by decide)
      (List.mem_append_left _ isWhole) rfl
  · cases isFraction : figure.fraction with
    | none =>
        rw [isFraction] at isRest
        cases isRest
    | some fraction =>
        rw [isFraction] at isRest
        have isPlace : '-' ∈ figure.places := by
          rw [places, isFraction]
          simpa using isRest
        exact valid.ne_of_mem_digits (by decide)
          (List.mem_append_right _ isPlace) rfl

/-- Every text has a part before the first point and, if there is a point, one
after it. -/
theorem exists_text_eq (text : Text) :
    ∃ figure : Figure, figure.text = text ∧
      text.takeWhile (· != '.') = figure.whole ∧
      (text.dropWhile (· != '.')).drop 1 = figure.places := by
  have parts : text.takeWhile (· != '.') ++ text.dropWhile (· != '.') = text :=
    List.takeWhile_append_dropWhile
  cases rest : text.dropWhile (· != '.') with
  | nil =>
      rw [rest] at parts
      exact ⟨⟨text.takeWhile (· != '.'), none⟩, parts, rfl, rfl⟩
  | cons c fraction =>
      have point : c = '.' := by
        have stops := List.head?_dropWhile_not (· != '.') text
        rw [rest] at stops
        simpa using stops
      rw [rest, point] at parts
      exact ⟨⟨text.takeWhile (· != '.'), some fraction⟩, parts, rfl, rfl⟩

theorem Valid.parts (valid : figure.Valid) :
    figure.text.takeWhile (· != '.') = figure.whole ∧
      (figure.text.dropWhile (· != '.')).drop 1 = figure.places := by
  have noPoint : ∀ c ∈ figure.whole, (c != '.') = true := by
    intro c member
    exact bne_iff_ne.mpr (valid.ne_of_mem_digits (by decide)
      (List.mem_append_left _ member))
  rw [text, places, List.takeWhile_append_of_pos noPoint,
    List.dropWhile_append_of_pos noPoint]
  cases figure.fraction with
  | none =>
      simp
  | some fraction =>
      simp

end Figure

theorem unsigned?_of_parts {figure : Figure} {negative : Bool} {text : Text}
    {d : Decimal} (whole : text.takeWhile (· != '.') = figure.whole)
    (places : (text.dropWhile (· != '.')).drop 1 = figure.places) :
    unsigned? negative text = some d ↔
      figure.Valid ∧ figure.decimal negative = d := by
  have empty : (figure.whole.isEmpty && figure.places.isEmpty) = true ↔
      figure.digits = [] := by
    simp [Figure.digits]
  unfold unsigned?
  dsimp only
  rw [whole, places]
  by_cases none : figure.digits = []
  · rw [if_pos (empty.mpr none)]
    refine ⟨nofun, ?_⟩
    rintro ⟨valid, _⟩
    exact absurd none valid.nonempty
  · rw [if_neg (mt empty.mp none), Option.map_eq_some_iff]
    constructor
    · rintro ⟨value, isValue, rfl⟩
      obtain ⟨all, rfl⟩ := digitsValue?_eq_some_iff.mp isValue
      exact ⟨⟨none, all⟩, rfl⟩
    · rintro ⟨valid, rfl⟩
      exact ⟨_, digitsValue?_eq_some_iff.mpr ⟨valid.decimals, rfl⟩, rfl⟩

theorem unsigned?_eq_some_iff {negative : Bool} {text : Text} {d : Decimal} :
    unsigned? negative text = some d ↔
      ∃ figure : Figure, figure.Valid ∧ figure.text = text ∧
        figure.decimal negative = d := by
  constructor
  · intro isRead
    obtain ⟨figure, same, whole, places⟩ := Figure.exists_text_eq text
    obtain ⟨valid, value⟩ := (unsigned?_of_parts whole places).mp isRead
    exact ⟨figure, valid, same, value⟩
  · rintro ⟨figure, valid, rfl, value⟩
    obtain ⟨whole, places⟩ := valid.parts
    exact (unsigned?_of_parts whole places).mpr ⟨valid, value⟩

theorem signed?_eq_some_iff {text : Text} {d : Decimal} :
    signed? text = some d ↔
      ∃ (negative : Bool) (figure : Figure), figure.Valid ∧
        Text.withSign negative figure.text = text ∧
          figure.decimal negative = d := by
  unfold signed?
  split
  case h_1 body =>
    rw [unsigned?_eq_some_iff]
    constructor
    · rintro ⟨figure, valid, rfl, value⟩
      exact ⟨true, figure, valid, rfl, value⟩
    · rintro ⟨negative, figure, valid, same, value⟩
      cases negative with
      | false =>
          rw [Text.withSign, if_neg Bool.false_ne_true] at same
          exact absurd (by simp [same]) valid.not_mem_text
      | true =>
          exact ⟨figure, valid, (List.cons.inj same).2, value⟩
  case h_2 noSign =>
    rw [unsigned?_eq_some_iff]
    constructor
    · rintro ⟨figure, valid, rfl, value⟩
      exact ⟨false, figure, valid, rfl, value⟩
    · rintro ⟨negative, figure, valid, same, value⟩
      cases negative with
      | false =>
          exact ⟨figure, valid, same, value⟩
      | true =>
          exact absurd same.symm (noSign figure.text)

/-- The small letter of a character is the letter of a unit.  The Kelvin sign is
the one character beside the capital letters that has such a small letter. -/
def HasLetter (unit : AmountUnit) (c : Char) : Prop :=
  c.toLower = unit.letter ∨ c = '\u212A' ∧ unit.letter = 'k'

theorem ofLetter?_eq_some_iff {c : Char} {unit : AmountUnit} :
    AmountUnit.ofLetter? c = some unit ↔
      unit ∈ AmountUnit.all ∧ HasLetter unit c := by
  have lookup : ∀ letter : Char,
      AmountUnit.all.find? (·.letter == letter) = some unit ↔
        unit ∈ AmountUnit.all ∧ unit.letter = letter := by
    have each : ∀ unit ∈ AmountUnit.all,
        AmountUnit.all.find? (·.letter == unit.letter) = some unit := by
      decide
    intro letter
    constructor
    · intro found
      have same := List.find?_some found
      exact ⟨List.mem_of_find?_eq_some found, by simpa using same⟩
    · rintro ⟨member, rfl⟩
      exact each unit member
  have noKelvin : ∀ unit ∈ AmountUnit.all, unit.letter ≠ '\u212A' := by
    decide
  unfold AmountUnit.ofLetter? HasLetter
  dsimp only
  rw [lookup]
  apply and_congr_right
  intro member
  by_cases kelvin : c = '\u212A'
  · simp [kelvin, (noKelvin unit member).symm]
  · simp [kelvin, eq_comm]

/-- A text that ends in the letter of a unit has the scale of the unit and what is
before the letter; any other text is left whole. -/
inductive Suffixed : Text → Nat → Text → Prop where
  | unit {unit : AmountUnit} {c : Char} (body : Text)
      (member : unit ∈ AmountUnit.all) (letter : HasLetter unit c) :
      Suffixed (body ++ [c]) unit.scale body
  | bare {text : Text} (noLetter : ∀ c ∈ text.getLast?,
      ∀ unit ∈ AmountUnit.all, ¬ HasLetter unit c) : Suffixed text 1 text

theorem suffixed_splitUnit (text : Text) :
    Suffixed text (splitUnit text).1 (splitUnit text).2 := by
  unfold splitUnit
  cases isUnit : text.getLast?.bind AmountUnit.ofLetter? with
  | none =>
      refine .bare fun c isLast unit member letter => ?_
      rw [isLast, Option.bind_some,
        ofLetter?_eq_some_iff.mpr ⟨member, letter⟩] at isUnit
      cases isUnit
  | some unit =>
      obtain ⟨c, isLast, isLetter⟩ := Option.bind_eq_some_iff.mp isUnit
      obtain ⟨member, letter⟩ := ofLetter?_eq_some_iff.mp isLetter
      obtain ⟨body, rfl⟩ := List.getLast?_eq_some_iff.mp isLast
      dsimp only
      rw [List.dropLast_concat]
      exact .unit body member letter

/-- The product that is shown is rounded half even, and a zero has no sign. -/
theorem isHalfEven_shownProduct (d : Decimal) (scale : Nat) :
    let product := d.multiply ⟨false, scale, 0⟩
    let shown := if product.isZero then Decimal.zero else product
    IsHalfEven Decimal.productDigits (d.toRat * scale) shown.toRat ∧
      (shown.toRat = 0 → shown = .zero) := by
  intro product shown
  have rounds : IsHalfEven Decimal.productDigits (d.toRat * scale)
      product.toRat := by
    rw [← Decimal.toRat_times]
    simp only [product, Decimal.multiply_whole]
    exact Decimal.isHalfEven_toSignificant _ (by decide)
  have isZero : product.isZero = true ↔ product.toRat = 0 :=
    (Decimal.isZero_iff product).trans product.toRat_eq_zero_iff.symm
  by_cases zero : product.isZero = true
  · have plain : shown = .zero := if_pos zero
    have plainZero : Decimal.zero.toRat = 0 := by
      simp [Decimal.toRat, Decimal.size, Decimal.zero]
    rw [plain, plainZero, ← isZero.mp zero]
    exact ⟨rounds, fun _ => rfl⟩
  · have same : shown = product := if_neg zero
    rw [same]
    exact ⟨rounds, fun none => absurd (isZero.mpr none) zero⟩

/-- Exactly the texts are read whose normal form is a row of digits with at most
one point and at most one sign, once the letter of a unit is taken off.  What is
given is the product with the unit, rounded half even, and a zero without a
sign. -/
theorem plainOfShown_spec (locale : Locale) (text : Text) :
    ∃ scale body, Suffixed (Text.strip text) scale body ∧
      ((∃ shown, plainOfShown locale text = .ok shown) ↔
        ∃ (negative : Bool) (figure : Figure), figure.Valid ∧
          Text.withSign negative figure.text =
            Expression.normalize locale body) ∧
      (∀ error, plainOfShown locale text = .error error → error = ⟨text⟩) ∧
      ∀ (negative : Bool) (figure : Figure), figure.Valid →
        Text.withSign negative figure.text =
            Expression.normalize locale body →
          ∃ d, plainOfShown locale text = .ok (plain locale false d) ∧
            IsHalfEven Decimal.productDigits
              ((figure.decimal negative).toRat * scale) d.toRat ∧
            (d.toRat = 0 → plainOfShown locale text = .ok ['0']) := by
  refine ⟨_, _, suffixed_splitUnit (Text.strip text), ?_⟩
  generalize splitEq : splitUnit (Text.strip text) = split
  obtain ⟨scale, body⟩ := split
  dsimp only
  cases isSigned : signed? (Expression.normalize locale body) with
  | none =>
      have failed : plainOfShown locale text = .error ⟨text⟩ := by
        rw [plainOfShown, readAmount, splitEq]
        dsimp only
        rw [isSigned]
        rfl
      have noFigure : ∀ (negative : Bool) (figure : Figure), figure.Valid →
          Text.withSign negative figure.text ≠
            Expression.normalize locale body := by
        intro negative figure valid same
        rw [signed?_eq_some_iff.mpr ⟨negative, figure, valid, same, rfl⟩]
          at isSigned
        cases isSigned
      rw [failed]
      refine ⟨⟨nofun, ?_⟩, ?_, ?_⟩
      · rintro ⟨negative, figure, valid, same⟩
        exact absurd same (noFigure negative figure valid)
      · rintro error ⟨⟩
        rfl
      · intro negative figure valid same
        exact absurd same (noFigure negative figure valid)
  | some d =>
      have read : plainOfShown locale text =
          .ok (plain locale false
            (if (d.multiply ⟨false, scale, 0⟩).isZero then .zero
              else d.multiply ⟨false, scale, 0⟩)) := by
        rw [plainOfShown, readAmount, splitEq]
        dsimp only
        rw [isSigned]
        rfl
      refine ⟨⟨fun _ => ?_, fun _ => ⟨_, read⟩⟩, ?_, ?_⟩
      · obtain ⟨negative, figure, valid, same, _⟩ :=
          signed?_eq_some_iff.mp isSigned
        exact ⟨negative, figure, valid, same⟩
      · intro error failed
        rw [read] at failed
        cases failed
      · intro negative figure valid same
        have value := signed?_eq_some_iff.mpr
          ⟨negative, figure, valid, same, rfl⟩
        rw [isSigned] at value
        cases value
        obtain ⟨rounds, plainZero⟩ :=
          isHalfEven_shownProduct (figure.decimal negative) scale
        refine ⟨_, read, rounds, fun zero => ?_⟩
        rw [read, plainZero zero]
        rfl

/-- Digits of another script count, and the letter of a unit may be the Kelvin
sign. -/
example : plainOfShown .default "٣,٥٠٠.٢٥\u212A".toList =
    .ok "3500250".toList := by
  cbv

end Money

end CurrencyPad
