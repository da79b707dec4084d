import CurrencyPad.Expression.Reading
import CurrencyPad.Proofs.Decimal.Digits
import CurrencyPad.Proofs.Expression.Language

/-!
# Separators that are read back

The normal form of a number in plain notation has a point, no groups and the
same digits, if the separators are not mistaken for anything else.  A blank
decimal separator is passed over, and so are a sign and digits that separate
groups; every locale with such separators changes some number.
-/

namespace CurrencyPad

/-- Separators with which numbers are read as they are written: the decimal
separator is not blank, and groups are separated neither by a minus sign nor by
one of the ten digits. -/
structure Locale.IsReadable (locale : Locale) : Prop where
  visible : Text.isBlank locale.decimal = false
  sign : locale.grouping ≠ some '-'
  digits : ∀ c ∈ locale.grouping, Text.isAsciiDigit c = false

namespace Number

open Expression

variable {locale : Locale}

private theorem normalChar_grouping {separator : Char}
    (grouping : locale.grouping = some separator) :
    normalChar locale separator = none := by
  simp [normalChar, grouping]

theorem normalize_digits_of_isReadable (readable : locale.IsReadable)
    {digits : Text} (all : ∀ c ∈ digits, Text.isAsciiDigit c = true) :
    Expression.normalize locale digits = digits := by
  refine normalize_of_forall fun c member => ?_
  refine normalChar_digit (all c member) fun grouping => ?_
  have noDigit := readable.digits c grouping
  rw [all c member] at noDigit
  cases noDigit

/-- The separators between groups disappear. -/
theorem normalize_groupThousands {separator : Char}
    (grouping : locale.grouping = some separator) (digits : Text) :
    Expression.normalize locale (groupThousands separator digits) =
      Expression.normalize locale digits := by
  induction digits with
  | nil =>
      rfl
  | cons c rest inductionHypothesis =>
      unfold Expression.normalize at inductionHypothesis ⊢
      rw [groupThousands]
      split
      · rw [List.filterMap_cons,
          List.filterMap_cons_none (normalChar_grouping grouping),
          List.filterMap_cons, inductionHypothesis]
      · rw [List.filterMap_cons, List.filterMap_cons, inductionHypothesis]

theorem normalize_wholePart (readable : locale.IsReadable) (grouped : Bool)
    {whole : Text} (all : ∀ c ∈ whole, Text.isAsciiDigit c = true) :
    Expression.normalize locale (wholePart locale grouped whole) = whole := by
  have kept := normalize_digits_of_isReadable readable all
  unfold wholePart
  split
  case h_1 separator grouping =>
    rw [normalize_groupThousands grouping, kept]
  · exact kept

theorem normalize_fractionPart (readable : locale.IsReadable)
    {fraction : Text} (all : ∀ c ∈ fraction, Text.isAsciiDigit c = true) :
    Expression.normalize locale (fractionPart locale fraction) =
      fractionPart Locale.default fraction := by
  have shown : ∀ c ∈ Text.dropTrailing (· == '0') fraction,
      Text.isAsciiDigit c = true :=
    fun c member => all c (Text.mem_of_mem_dropTrailing member)
  have kept := normalize_digits_of_isReadable readable shown
  unfold fractionPart
  dsimp only
  split
  · rfl
  · unfold Expression.normalize at kept ⊢
    rw [List.filterMap_cons_some (normalChar_decimal readable.visible), kept]
    rfl

theorem normalize_withSign (readable : locale.IsReadable) (negative : Bool)
    (text : Text) :
    Expression.normalize locale (Text.withSign negative text) =
      Text.withSign negative (Expression.normalize locale text) := by
  cases negative with
  | false =>
      rfl
  | true =>
      have noDecimal : '-' ≠ locale.decimal := by
        intro same
        have reserved := locale.decimalIsNotReserved
        rw [← same] at reserved
        exact reserved (by decide)
      have spells : Operator.ofChar? '-' = some .minus := rfl
      have sign : normalChar locale '-' = some '-' :=
        normalChar_operator spells readable.sign noDecimal
      exact List.filterMap_cons_some sign

/-- A number in plain notation has the same number with a point and without
groups as its normal form. -/
theorem normalize_plain (readable : locale.IsReadable) (grouped : Bool)
    (d : Decimal) :
    Expression.normalize locale (plain locale grouped d) =
      plain Locale.default false d := by
  have parts :
      Expression.normalize locale
          (wholePart locale grouped d.wholeText ++
            fractionPart locale d.fractionText) =
        d.wholeText ++ fractionPart Locale.default d.fractionText := by
    have whole :=
      normalize_wholePart readable grouped d.wholeText_digits.2
    have fraction := normalize_fractionPart readable d.fractionText_digits
    unfold Expression.normalize at whole fraction ⊢
    rw [List.filterMap_append, whole, fraction]
  unfold plain
  rw [normalize_withSign readable, parts]
  rfl

/-- A number with a character that is passed over is changed, if both of its
texts are of one length. -/
private theorem normalChar_ne_none_of_normalize_plain {d : Decimal} {c : Char}
    (kept : Expression.normalize locale (plain locale false d) =
      plain Locale.default false d)
    (member : c ∈ plain locale false d)
    (sameLength : (plain locale false d).length =
      (plain Locale.default false d).length) :
    normalChar locale c ≠ none := by
  intro passed
  have shorter : (Expression.normalize locale (plain locale false d)).length <
      (plain locale false d).length :=
    List.length_filterMap_lt_length_iff_exists.mpr ⟨c, member, passed⟩
  rw [kept, sameLength] at shorter
  exact lt_irrefl _ shorter

/-- The normal forms of all numbers in plain notation have the same numbers if
and only if the separators are readable. -/
theorem isReadable_iff_normalize_plain (locale : Locale) :
    locale.IsReadable ↔
      ∀ (d : Decimal) (grouped : Bool),
        Expression.normalize locale (plain locale grouped d) =
          plain Locale.default false d := by
  constructor
  · intro readable d grouped
    exact normalize_plain readable grouped d
  · intro kept
    refine ⟨?_, ?_, ?_⟩
    · -- One half has the separator between its digits.
      cases blank : Text.isBlank locale.decimal with
      | false =>
          rfl
      | true =>
          refine absurd ?_ (normalChar_ne_none_of_normalize_plain
            (c := locale.decimal) (kept ⟨false, 5, -1⟩ false) ?_ rfl)
          · simp [normalChar, blank]
          · have half : plain locale false ⟨false, 5, -1⟩ =
                ['0', locale.decimal, '5'] := rfl
            rw [half]
            simp
    · intro grouping
      exact absurd (normalChar_grouping grouping)
        (normalChar_ne_none_of_normalize_plain (kept ⟨true, 1, 0⟩ false)
          List.mem_cons_self rfl)
    · intro c grouping
      cases isDigit : Text.isAsciiDigit c with
      | false =>
          rfl
      | true =>
          -- The digit is the text of its own value.
          have written : (plain Locale.default false
              ⟨false, c.toNat - 0x30, 0⟩ == [c]) = true :=
            Text.of_isAsciiDigit (fun digit => plain Locale.default false
              ⟨false, digit.toNat - 0x30, 0⟩ == [digit]) (by decide) isDigit
          have member : c ∈ plain locale false ⟨false, c.toNat - 0x30, 0⟩ := by
            have same : plain locale false ⟨false, c.toNat - 0x30, 0⟩ =
                plain Locale.default false ⟨false, c.toNat - 0x30, 0⟩ := rfl
            rw [same, beq_iff_eq.mp written]
            exact List.mem_cons_self
          exact absurd (normalChar_grouping grouping)
            (normalChar_ne_none_of_normalize_plain (kept _ false) member rfl)

/-- With a blank before its places, one and a half is read as fifteen. -/
theorem normalize_plain_blank_decimal :
    ∃ locale : Locale,
      Locale.ofTexts [' '] [','] = .ok locale ∧
        plain locale false ⟨false, 15, -1⟩ = ['1', ' ', '5'] ∧
        Expression.normalize locale (plain locale false ⟨false, 15, -1⟩) =
          plain Locale.default false ⟨false, 15, 0⟩ ∧
        Expression.normalize locale (plain locale false ⟨false, 15, -1⟩) ≠
          plain Locale.default false ⟨false, 15, -1⟩ := by
  refine ⟨⟨' ', some ',', by decide, by decide, by decide⟩, ?_⟩
  exact ⟨rfl, by decide, by decide, by decide⟩

end Number

end CurrencyPad
