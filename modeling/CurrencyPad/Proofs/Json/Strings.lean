import CurrencyPad.Json.Printer
import CurrencyPad.Json.Reader
import CurrencyPad.Proofs.Text.Plain
import Mathlib.Data.List.Chain
import Mathlib.Tactic.SplitIfs

/-!
# Strings as they are printed

Every character of a string is printed in ASCII, as itself or by its UTF-16
units, and so is half of a character.  Reading takes the units apart again and
joins them to the code points that they came from.
-/

namespace CurrencyPad

namespace Json

theorem hexValue?_hexDigit : ∀ n < 16,
    hexValue? (Text.hexDigit n) = some n := by
  decide

theorem isPlain_hexDigit : ∀ n < 16, Text.isPlain (Text.hexDigit n) = true := by
  decide

theorem hexDigits_four (n : Nat) :
    Text.hexDigits 4 n =
      [Text.hexDigit (n / 16 / 16 / 16 % 16), Text.hexDigit (n / 16 / 16 % 16),
        Text.hexDigit (n / 16 % 16), Text.hexDigit (n % 16)] := rfl

/-- Four hexadecimal digits are read as the unit of which they are. -/
theorem unitValue?_hexDigits {unit : Nat} (small : unit < 0x10000) :
    unitValue? (Text.hexDigit (unit / 16 / 16 / 16 % 16))
        (Text.hexDigit (unit / 16 / 16 % 16)) (Text.hexDigit (unit / 16 % 16))
        (Text.hexDigit (unit % 16)) =
      some unit := by
  have digit : ∀ n, hexValue? (Text.hexDigit (n % 16)) = some (n % 16) :=
    fun n => hexValue?_hexDigit _ (Nat.mod_lt _ (by decide))
  simp only [unitValue?, digit, Option.bind_eq_bind, Option.bind_some,
    Option.pure_def, Option.some.injEq]
  omega

theorem stringUnits?_unitEscape {unit : Nat} (small : unit < 0x10000)
    (rest : Text) :
    stringUnits? (unitEscape unit ++ rest) =
      (stringUnits? rest).map fun (units, after) => (unit :: units, after) := by
  rw [unitEscape, hexDigits_four]
  simp only [List.cons_append, List.nil_append, stringUnits?]
  rw [unitValue?_hexDigits small]
  cases stringUnits? rest <;> rfl

def unitsOf (point : Nat) : List Nat :=
  if point < 0x10000 then [point]
  else [0xD800 + (point - 0x10000) / 0x400, 0xDC00 + (point - 0x10000) % 0x400]

theorem toNat_lt (c : Char) : c.toNat < 0x110000 := by
  have valid : c.toNat.isValidChar := c.valid
  unfold Nat.isValidChar at valid
  omega

theorem isHalf_toNat (c : Char) : Text.isHalf c.toNat = false := by
  have valid : c.toNat.isValidChar := c.valid
  unfold Nat.isValidChar at valid
  simp only [Text.isHalf, Bool.and_eq_false_iff, decide_eq_false_iff_not]
  omega

theorem map_toNat_injective : Function.Injective (List.map Char.toNat) :=
  List.map_injective_iff.mpr fun _ _ => Char.toNat_inj.mp

theorem ofPoints?_map_toNat (value : Text) :
    Text.ofPoints? (value.map Char.toNat) = some value := by
  have whole : (value.map Char.toNat).any Text.isHalf = false := by
    simp [isHalf_toNat]
  rw [Text.ofPoints?, if_neg (Bool.eq_false_iff.mp whole), List.map_map]
  simp [Function.comp_def, Char.ofNat_toNat]

theorem isHighUnit_toNat (c : Char) : isHighUnit c.toNat = false := by
  have whole := isHalf_toNat c
  simp only [Text.isHalf, isHighUnit, Bool.and_eq_false_iff,
    decide_eq_false_iff_not] at whole ⊢
  omega

theorem toNat_ofNat {point : Nat} (bound : point < 0x110000)
    (whole : Text.isHalf point = false) : (Char.ofNat point).toNat = point := by
  have valid : point.isValidChar := by
    simp only [Text.isHalf, Bool.and_eq_false_iff, decide_eq_false_iff_not]
      at whole
    unfold Nat.isValidChar
    omega
  rw [Char.ofNat, dif_pos valid]
  rfl

private theorem stringUnits?_charEscape (c : Char) (rest : Text) :
    stringUnits? (charEscape c ++ rest) =
      (stringUnits? rest).map fun (units, after) =>
        (unitsOf c.toNat ++ units, after) := by
  have bound := toNat_lt c
  unfold charEscape unitsOf
  dsimp only
  split
  case isTrue small =>
    exact stringUnits?_unitEscape small rest
  case isFalse large =>
    rw [List.append_assoc, stringUnits?_unitEscape (by omega),
      stringUnits?_unitEscape (by omega)]
    cases stringUnits? rest <;> rfl

private theorem stringUnits?_escape {letter : Char} {code : Nat}
    (noUnit : letter ≠ 'u') (escapes : escapedChar? letter = some code)
    (rest : Text) :
    stringUnits? ('\\' :: letter :: rest) =
      (stringUnits? rest).map fun (units, after) => (code :: units, after) := by
  rw [stringUnits?.eq_def]
  split
  · cases ‹_›
  · cases ‹_›
  case h_3 isUnit =>
    exact absurd (List.cons.inj (List.cons.inj isUnit).2).1 noUnit
  case h_4 isEscape =>
    cases isEscape
    rw [escapes]
    cases stringUnits? rest <;> rfl
  case h_5 noEscape isCons =>
    cases isCons
    exact absurd rfl (noEscape letter rest rfl)

private theorem stringUnits?_plain {c : Char} (noQuote : c ≠ '\x22')
    (noEscape : c ≠ '\\') (noControl : ¬ c < ' ') (rest : Text) :
    stringUnits? (c :: rest) =
      (stringUnits? rest).map fun (units, after) =>
        (c.toNat :: units, after) := by
  rw [stringUnits?.eq_def]
  split
  · cases ‹_›
  case h_2 isQuote =>
    exact absurd (List.cons.inj isQuote).1 noQuote
  case h_3 isEscape =>
    exact absurd (List.cons.inj isEscape).1 noEscape
  case h_4 isEscape =>
    exact absurd (List.cons.inj isEscape).1 noEscape
  case h_5 isCons =>
    cases isCons
    rw [if_neg (not_or.mpr ⟨noEscape, noControl⟩)]
    cases stringUnits? rest <;> rfl

/-- What is printed of a character is read as its units. -/
theorem stringUnits?_stringChar (c : Char) (rest : Text) :
    stringUnits? (stringChar c ++ rest) =
      (stringUnits? rest).map fun (units, after) =>
        (unitsOf c.toNat ++ units, after) := by
  unfold stringChar
  split_ifs with quote lineFeed carriageReturn tab formFeed backspace plain
  · rcases quote with rfl | rfl
    · exact stringUnits?_escape (by decide) rfl rest
    · exact stringUnits?_escape (by decide) rfl rest
  · rw [lineFeed]
    exact stringUnits?_escape (by decide) rfl rest
  · rw [carriageReturn]
    exact stringUnits?_escape (by decide) rfl rest
  · rw [tab]
    exact stringUnits?_escape (by decide) rfl rest
  · rw [formFeed]
    exact stringUnits?_escape (by decide) rfl rest
  · rw [backspace]
    exact stringUnits?_escape (by decide) rfl rest
  · rw [not_or] at quote
    have small : c.toNat < 0x10000 := by
      have upper : c.toNat ≤ '~'.toNat := plain.2
      exact Nat.lt_of_le_of_lt upper (by decide)
    have units : unitsOf c.toNat = [c.toNat] := if_pos small
    rw [units]
    exact stringUnits?_plain quote.1 quote.2 (Char.not_lt.mpr plain.1) rest
  · exact stringUnits?_charEscape c rest

/-- What is printed of a code point is read as its units. -/
theorem stringUnits?_stringPoint {point : Nat} (bound : point < 0x110000)
    (rest : Text) :
    stringUnits? (stringPoint point ++ rest) =
      (stringUnits? rest).map fun (units, after) =>
        (unitsOf point ++ units, after) := by
  unfold stringPoint
  split
  case isTrue half =>
    have small : point < 0x10000 := by
      simp only [Text.isHalf, Bool.and_eq_true, decide_eq_true_eq] at half
      omega
    have units : unitsOf point = [point] := if_pos small
    rw [units]
    exact stringUnits?_unitEscape small rest
  case isFalse whole =>
    have isRead := stringUnits?_stringChar (Char.ofNat point) rest
    rw [toNat_ofNat bound (Bool.eq_false_iff.mpr whole)] at isRead
    exact isRead

/-- The code points of a string as it is read: halves that make up a character
are put together. -/
structure IsJoined (points : List Nat) : Prop where
  bound : ∀ point ∈ points, point < 0x110000
  apart : points.IsChain fun high low =>
    (isHighUnit high && isLowUnit low) = false

theorem isJoined_map_toNat (value : Text) : IsJoined (value.map Char.toNat) where
  bound := List.forall_mem_map.mpr fun c _ => toNat_lt c
  apart := by
    rw [List.isChain_map]
    refine List.Pairwise.isChain (List.pairwise_of_forall fun high low => ?_)
    rw [isHighUnit_toNat, Bool.false_and]

/-- The first unit of a code point is the second half of a character only where
the code point is. -/
private theorem apart_of_head {point next : Nat}
    (apart : (isHighUnit point && isLowUnit next) = false)
    (bound : next < 0x110000) (rest : List Nat) :
    ∀ unit ∈ (unitsOf next ++ rest).head?,
      (isHighUnit point && isLowUnit unit) = false := by
  unfold unitsOf
  split
  · rintro unit ⟨rfl⟩
    exact apart
  · rintro unit ⟨rfl⟩
    have noLow : isLowUnit (0xD800 + (next - 0x10000) / 0x400) = false := by
      simp only [isLowUnit, Bool.and_eq_false_iff, decide_eq_false_iff_not]
      omega
    rw [noLow, Bool.and_false]

/-- The units of a code point are joined to the code point, unless it is the
first half of a character that the next unit completes. -/
theorem joinUnits_unitsOf {point : Nat} (bound : point < 0x110000)
    {rest : List Nat}
    (apart : ∀ unit ∈ rest.head?, (isHighUnit point && isLowUnit unit) = false) :
    joinUnits (unitsOf point ++ rest) = point :: joinUnits rest := by
  unfold unitsOf
  split
  case isTrue small =>
    cases rest with
    | nil =>
        rfl
    | cons next others =>
        rw [List.singleton_append, joinUnits, apart next rfl]
        rfl
  case isFalse large =>
    have pair :
        (isHighUnit (0xD800 + (point - 0x10000) / 0x400) &&
          isLowUnit (0xDC00 + (point - 0x10000) % 0x400)) = true := by
      simp only [isHighUnit, isLowUnit, Bool.and_eq_true, decide_eq_true_eq]
      omega
    have same :
        0x10000 + (0xD800 + (point - 0x10000) / 0x400 - 0xD800) * 0x400 +
            (0xDC00 + (point - 0x10000) % 0x400 - 0xDC00) =
          point := by
      omega
    rw [List.cons_append, List.cons_append, List.nil_append, joinUnits,
      if_pos pair, same]

private theorem stringUnits?_flatMap_stringPoint {points : List Nat}
    (bound : ∀ point ∈ points, point < 0x110000) (rest : Text) :
    stringUnits? (points.flatMap stringPoint ++ '\x22' :: rest) =
      some (points.flatMap unitsOf, rest) := by
  induction points with
  | nil =>
      rfl
  | cons point others inductionHypothesis =>
      rw [List.forall_mem_cons] at bound
      rw [List.flatMap_cons, List.append_assoc,
        stringUnits?_stringPoint bound.1, inductionHypothesis bound.2]
      rfl

private theorem joinUnits_flatMap_unitsOf {points : List Nat}
    (joined : IsJoined points) : joinUnits (points.flatMap unitsOf) = points := by
  induction points with
  | nil =>
      rfl
  | cons point others inductionHypothesis =>
      obtain ⟨bound, apart⟩ := joined
      rw [List.forall_mem_cons] at bound
      rw [List.isChain_cons] at apart
      have completed : ∀ unit ∈ (others.flatMap unitsOf).head?,
          (isHighUnit point && isLowUnit unit) = false := by
        cases others with
        | nil =>
            rintro _ ⟨⟩
        | cons next more =>
            rw [List.flatMap_cons]
            exact apart_of_head (apart.1 next rfl)
              (bound.2 next List.mem_cons_self) _
      rw [List.flatMap_cons, joinUnits_unitsOf bound.1 completed,
        inductionHypothesis ⟨bound.2, apart.2⟩]

/-- A printed string is read after its opening quote. -/
theorem string?_pointsText {points : List Nat} (joined : IsJoined points)
    (rest : Text) :
    ∃ body, pointsText points ++ rest = '\x22' :: body ∧
      string? body = some (points, rest) := by
  refine ⟨points.flatMap stringPoint ++ '\x22' :: rest, ?_, ?_⟩
  · simp [pointsText]
  · rw [string?, stringUnits?_flatMap_stringPoint joined.bound, Option.map_some]
    dsimp only
    rw [joinUnits_flatMap_unitsOf joined]

/-- Half of a character stays what it is. -/
example : string? "\\ud800!\x22".toList = some ([0xD800, 0x21], []) := by
  decide

theorem stringPoint_toNat (c : Char) : stringPoint c.toNat = stringChar c := by
  rw [stringPoint, isHalf_toNat, Char.ofNat_toNat]
  rfl

/-- A text is printed as the string of its code points. -/
theorem pointsText_map_toNat (value : Text) :
    pointsText (value.map Char.toNat) = stringText value := by
  have same : stringPoint ∘ Char.toNat = stringChar := funext stringPoint_toNat
  rw [pointsText, stringText, List.flatMap_map]
  exact congrArg (fun part => '\x22' :: value.flatMap part ++ ['\x22']) same

private theorem isPlain_unitEscape (unit : Nat) :
    ∀ c ∈ unitEscape unit, Text.isPlain c = true := by
  have digit : ∀ n, Text.isPlain (Text.hexDigit (n % 16)) = true :=
    fun n => isPlain_hexDigit _ (Nat.mod_lt _ (by decide))
  rw [unitEscape, hexDigits_four]
  simp only [List.forall_mem_cons, digit, true_and]
  exact ⟨by decide, by decide, nofun⟩

theorem isPlain_stringChar (c : Char) :
    ∀ d ∈ stringChar c, Text.isPlain d = true := by
  have escape : ∀ letter : Char, Text.isPlain letter = true →
      ∀ d ∈ ['\\', letter], Text.isPlain d = true := by
    intro letter plain
    rw [List.forall_mem_cons, List.forall_mem_singleton]
    exact ⟨by decide, plain⟩
  unfold stringChar
  split_ifs with quote lineFeed carriageReturn tab formFeed backspace plain
  · rcases quote with rfl | rfl
    · exact escape _ (by decide)
    · exact escape _ (by decide)
  · exact escape _ (by decide)
  · exact escape _ (by decide)
  · exact escape _ (by decide)
  · exact escape _ (by decide)
  · exact escape _ (by decide)
  · simpa [Text.isPlain] using plain
  · unfold charEscape
    dsimp only
    split
    · exact isPlain_unitEscape _
    · intro d member
      rcases List.mem_append.mp member with high | low
      · exact isPlain_unitEscape _ d high
      · exact isPlain_unitEscape _ d low

theorem isPlain_stringPoint (point : Nat) :
    ∀ c ∈ stringPoint point, Text.isPlain c = true := by
  unfold stringPoint
  split
  · exact isPlain_unitEscape point
  · exact isPlain_stringChar (Char.ofNat point)

theorem isPlain_pointsText (points : List Nat) :
    ∀ c ∈ pointsText points, Text.isPlain c = true := by
  intro c member
  simp only [pointsText, List.cons_append, List.mem_cons, List.mem_append,
    List.mem_flatMap, List.not_mem_nil, or_false] at member
  rcases member with rfl | ⟨point, _, inside⟩ | rfl
  · decide
  · exact isPlain_stringPoint point c inside
  · decide

end Json

end CurrencyPad
