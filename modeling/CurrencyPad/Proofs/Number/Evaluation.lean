import CurrencyPad.Number.Rounded
import CurrencyPad.Proofs.Binary64.Shortest
import CurrencyPad.Proofs.Expression.Evaluation
import CurrencyPad.Proofs.Number.Plain
import CurrencyPad.Proofs.Number.Separators

/-!
# Evaluation of numbers in plain notation

A number that is written in plain notation is an expression with one numeral.
Its value is the nearest double, and a double that was rounded to at least as
many places as its shortest decimal has is its own value.
-/

namespace CurrencyPad

open Expression

namespace Decimal

def numeral (d : Decimal) : Text :=
  d.wholeText ++
    if d.shownPlaces.isEmpty then [] else '.' :: d.shownPlaces

theorem isNumeral_numeral (d : Decimal) : IsNumeral d.numeral := by
  obtain ⟨nonempty, all⟩ := d.wholeText_digits
  unfold numeral
  split
  · rw [List.append_nil]
    exact .whole nonempty all
  · exact .point nonempty all d.shownPlaces_digits

theorem numeralDecimal_numeral (d : Decimal) :
    numeralDecimal d.numeral =
      ⟨false, digitsValue (d.wholeText ++ d.shownPlaces),
        -(d.shownPlaces.length : ℤ)⟩ := by
  obtain ⟨_, all⟩ := d.wholeText_digits
  unfold numeralDecimal numeral
  dsimp only
  split
  case isTrue none =>
    have stops : ([] : Text).takeWhile Text.isAsciiDigit = [] ∧
        ([] : Text).dropWhile Text.isAsciiDigit = [] :=
      ⟨rfl, rfl⟩
    obtain ⟨taken, left⟩ := span_append all stops
    rw [taken, left, List.isEmpty_iff.mp none]
    rfl
  case isFalse =>
    obtain ⟨taken, left⟩ := span_append all (span_point d.shownPlaces)
    rw [taken, left, List.drop_one, List.tail_cons]

/-- A numeral has the double to which the value of its decimal is rounded. -/
theorem numeralValue_numeral {d : Decimal} {bits : Nat}
    (rounded : Binary64.IsRounded bits d.size) :
    numeralValue d.numeral = Binary64.ofMagnitudeBits false bits := by
  have size : (numeralDecimal d.numeral).size = d.size := by
    rw [numeralDecimal_numeral, size_eq_digitsValue d]
    rfl
  have sign : (numeralDecimal d.numeral).negative = false := by
    rw [numeralDecimal_numeral]
  rw [numeralValue, Binary64.ofDecimal_eq (size ▸ rounded), sign]

end Decimal

namespace Number

variable {locale : Locale}

/-- A number in plain notation evaluates to the double of the pattern to which
it is rounded. -/
theorem evaluate_plain (readable : locale.IsReadable) (grouped : Bool)
    {d : Decimal} {bits : Nat} (rounded : Binary64.IsRounded bits d.size)
    (few : bits < Binary64.infinityBits) :
    ∃ x : Binary64.Finite,
      x.value = Binary64.ofMagnitudeBits d.negative bits ∧
        evaluate locale (plain locale grouped d) =
          .ok x.withoutNegativeZero := by
  let row : Row := ⟨d.negative, d.numeral, []⟩
  have valid : row.Valid :=
    (Row.valid_iff row).mpr ⟨d.isNumeral_numeral, nofun⟩
  have written : row.write =
      Expression.normalize locale (plain locale grouped d) := by
    rw [normalize_plain readable, plain_eq, Row.write]
    exact congrArg (Text.withSign d.negative) (List.append_nil _)
  have isRead : read locale (plain locale grouped d) = .ok row.tree :=
    readNormal_eq_ok_iff_row.mpr ⟨row, valid, written, rfl⟩
  have numeral := Decimal.numeralValue_numeral rounded
  have value : row.value = Binary64.ofMagnitudeBits d.negative bits := by
    have terms : row.value =
        if d.negative then -numeralValue d.numeral
        else numeralValue d.numeral := rfl
    rw [terms, numeral]
    cases sign : d.negative with
    | false =>
        rfl
    | true =>
        exact Binary64.neg_ofMagnitudeBits few
  have finite : row.value.isFinite = true := by
    rw [value]
    exact Binary64.isFinite_ofMagnitudeBits few
  have defined : row.tree.value? = some row.value := by
    rw [row.value?_tree, if_neg (by simp [row])]
  refine ⟨⟨row.value, finite⟩, value, ?_⟩
  simp only [evaluate, isRead, defined, Binary64.Finite.ofFloat?, dif_pos finite]

/-- The text evaluates to the double that is nearest to the double `x` rounded to
places, and to `x` itself if its shortest decimal has no more places. -/
def EvaluatesRounded (locale : Locale) (text : Text) (x : Binary64.Finite)
    (places : Nat) : Prop :=
  ∃ (d : Decimal) (y : Binary64.Finite),
    Binary64.toDecimal x.value = .finite d ∧
      evaluate locale text = .ok y ∧
      y.IsNearest (d.rounded places).toRat ∧ y.HasPlainZero ∧
      (-d.exponent ≤ places → (y == x) = true)

/-- Rounding to places never makes the shortest decimal of a finite double
infinite. -/
theorem lt_infinityBits_of_isRounded {d : Decimal} {places bits : Nat}
    (small : d.coefficient < 10 ^ 17)
    (finite : (Binary64.ofDecimal d).isFinite = true)
    (rounded : Binary64.IsRounded bits (d.rounded places).size) :
    bits < Binary64.infinityBits := by
  by_cases enough : 0 ≤ d.exponent + places
  · rw [Decimal.size_rounded, Decimal.size_toPlaces_of_nonneg enough] at rounded
    rw [Binary64.ofDecimal_eq rounded] at finite
    exact Binary64.lt_infinityBits_of_isFinite finite
  · exact Binary64.lt_infinityBits_of_le rounded
      (Decimal.size_rounded_le small (by omega))

/-- A double that is rounded to at least as many places as its shortest decimal
has keeps its value. -/
theorem beq_of_enough_places {d : Decimal} {places bits : Nat}
    {x y : Binary64.Finite} (back : Binary64.ofDecimal d = x.value)
    (rounded : Binary64.IsRounded bits (d.rounded places).size)
    (value : y.value =
      Binary64.ofMagnitudeBits (d.rounded places).negative bits)
    (enough : -d.exponent ≤ places) : (y.value == x.value) = true := by
  have same : (d.rounded places).size = d.size := by
    rw [Decimal.size_rounded, Decimal.size_toPlaces_of_nonneg (by omega)]
  have own : x.value = Binary64.ofMagnitudeBits d.negative bits := by
    rw [← back, Binary64.ofDecimal_eq (same ▸ rounded)]
  by_cases zero : (d.rounded places).size = 0
  · have self := Binary64.IsRounded.grid_self 0
    rw [Binary64.grid_zero, ← zero] at self
    rw [value, own, rounded.unique self]
    cases d.negative <;> cases (d.rounded places).negative <;> decide
  · rw [value, own, Decimal.negative_rounded_of_size_ne_zero zero, ← own]
    exact x.beq_self

/-- Every finite double, rounded to places and written in plain notation, is
read back as the nearest double. -/
theorem evaluatesRounded_plain (readable : locale.IsReadable) (grouped : Bool)
    (x : Binary64.Finite) (places : Nat) :
    EvaluatesRounded locale
      (plainExtended locale grouped (roundExtended x.value places))
      x places := by
  obtain ⟨d, shortest, small, back⟩ := Binary64.toDecimal_spec x.isFinite
  obtain ⟨bits, rounded⟩ :=
    Binary64.exists_isRounded (d.rounded places).size_nonneg
  have few := lt_infinityBits_of_isRounded small (back ▸ x.isFinite) rounded
  obtain ⟨y, value, evaluated⟩ := evaluate_plain readable grouped rounded few
  rw [roundExtended, shortest]
  refine ⟨d, y.withoutNegativeZero, shortest, evaluated, ?_,
    y.withoutNegativeZero_hasPlainZero, fun enough => ?_⟩
  · exact (Binary64.Finite.isNearest_of_isRounded few value
      rounded).withoutNegativeZero
  · have plainZero : (y.withoutNegativeZero.value == y.value) = true :=
      y.withoutNegativeZero_beq
    have own := beq_of_enough_places back rounded value enough
    have joined : (y.withoutNegativeZero.value == x.value) = true :=
      BEq.trans plainZero own
    exact joined

end Number

end CurrencyPad
