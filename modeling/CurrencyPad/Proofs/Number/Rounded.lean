import CurrencyPad.Proofs.Decimal.HalfUp
import CurrencyPad.Proofs.Json.Numbers
import CurrencyPad.Proofs.Money.Guarded

/-!
# Rounded doubles

A finite double is rounded half up by the number that its text shows.  The
precision that is set for this is always enough, also for the greatest doubles,
which have hundreds of digits before the point.
-/

namespace CurrencyPad.Number

theorem roundExtended_eq_finite {x : Float} {places : ℤ} {shown : Decimal}
    (rounded : roundExtended x places = .finite shown) :
    ∃ exact, Binary64.toDecimal x = .finite exact ∧
      shown = exact.rounded places := by
  unfold roundExtended at rounded
  cases isDecimal : Binary64.toDecimal x with
  | finite exact =>
      rw [isDecimal] at rounded
      cases rounded
      exact ⟨exact, rfl, rfl⟩
  | infinite negative =>
      rw [isDecimal] at rounded
      cases rounded
  | undefined =>
      rw [isDecimal] at rounded
      cases rounded

theorem roundExtended_eq_of_round {x : Float} {places : ℤ} {shown : Decimal}
    (rounded : round x places = .ok (.finite shown)) :
    roundExtended x places = .finite shown := by
  unfold round at rounded
  split at rounded
  · cases rounded
  · split at rounded
    · cases rounded
    · exact Except.ok.inj rounded

/-- The text of a double shows a number, and the double is rounded to a decimal
without a loss of precision. -/
structure Rounds (places : Nat) (x : Float) (q : ℚ) (r : Decimal) : Prop where
  shown : ∃ d, Decimal.ofText? (Binary64.text x) = some d ∧ d.toRat = q
  guarded : roundGuarded x places = .ok (.finite r)
  rounded : round x places = .ok (.finite r)

theorem rounds_of_toDecimal {places : Nat} (inReach : places ≤ placesReach)
    {x : Float} {d : Decimal} (isDecimal : Binary64.toDecimal x = .finite d) :
    Rounds places x d.toRat (d.rounded places) := by
  have rounded : round x places = .ok (.finite (d.rounded places)) := by
    rw [round, Int.natAbs_natCast, if_neg (Nat.not_lt.mpr inReach),
      roundExtended, isDecimal]
  refine ⟨Binary64.ofText?_text isDecimal, ?_, rounded⟩
  rw [roundGuarded_eq_round, rounded]
  rfl

/-- The decimal that a double is rounded to is the number it shows, rounded half
up. -/
theorem Rounds.toRat_eq {places : Nat} {x : Float} {q : ℚ} {r : Decimal}
    (rounds : Rounds places x q r) : r.toRat = halfUp places q := by
  obtain ⟨⟨d, read, rfl⟩, _, rounded⟩ := rounds
  obtain ⟨exact, isDecimal, rfl⟩ :=
    roundExtended_eq_finite (roundExtended_eq_of_round rounded)
  obtain ⟨e, sameText, same⟩ := Binary64.ofText?_text isDecimal
  rw [read] at sameText
  cases sameText
  rw [same, Decimal.toRat_rounded]

/-- Every finite double can be rounded to the places that may be set.  It is
rounded to the multiple of the last place that is nearest to the number that it
shows, from the middle away from zero, and to the plain zero where this is zero.
A number with so few places stays as it is, and rounding keeps order and
reflection. -/
theorem rounds_halfUp {places : Nat} (admitted : places ≤ 18) :
    (∀ x : Binary64.Finite, ∃ q r, Rounds places x.value q r ∧
      IsHalfUp places q r.toRat ∧ (r.toRat = 0 → r = .zero) ∧
      ((∃ count : ℤ, q = count / 10 ^ places) → r.toRat = q)) ∧
    ∀ x y q p r s, Rounds places x q r → Rounds places y p s →
      (q ≤ p → r.toRat ≤ s.toRat) ∧ (p = -q → s.toRat = -r.toRat) := by
  have inReach : places ≤ placesReach :=
    admitted.trans (by decide)
  refine ⟨fun x => ?_, fun x y q p r s first second => ?_⟩
  · obtain ⟨d, isDecimal, _⟩ := Binary64.toDecimal_spec x.isFinite
    have rounds := rounds_of_toDecimal inReach isDecimal
    have halfUp := rounds.toRat_eq
    refine ⟨_, _, rounds, ?_, fun zero => ?_, fun few => ?_⟩
    · rw [halfUp]
      exact isHalfUp_halfUp places d.toRat
    · exact Decimal.rounded_of_size_eq_zero
        ((Decimal.toRat_eq_zero_iff _).mp zero)
    · rw [halfUp, halfUp_of_isMultiple few]
  · rw [first.toRat_eq, second.toRat_eq]
    refine ⟨fun le => halfUp_mono places le, ?_⟩
    rintro rfl
    exact halfUp_neg places q

/-- A carry reaches a digit before the point that the double does not have. -/
theorem rounds_halfUp_carry : (2 : Nat) ≤ 18 ∧
    ∃ q r s, Rounds 2 9.995 q r ∧ Rounds 2 (-9.995) (-q) s ∧
      q = 1999 / 200 ∧ r = ⟨false, 1000, -2⟩ ∧ s.toRat = -10 := by
  have above : Binary64.toDecimal 9.995 = .finite ⟨false, 9995, -3⟩ := by
    decide +kernel
  have below : Binary64.toDecimal (-9.995) = .finite ⟨true, 9995, -3⟩ := by
    decide +kernel
  have two : 2 ≤ placesReach := by decide
  have rounds := rounds_of_toDecimal two above
  have reflected := rounds_of_toDecimal two below
  have shown : Decimal.toRat ⟨false, 9995, -3⟩ = 1999 / 200 := by
    norm_num [Decimal.toRat, Decimal.size]
  have carried : Decimal.rounded ⟨false, 9995, -3⟩ (2 : Nat) =
      ⟨false, 1000, -2⟩ := by
    decide
  refine ⟨by decide, _, _, _, rounds, reflected, shown, carried, ?_⟩
  rw [((rounds_halfUp (by decide)).2 _ _ _ _ _ _ rounds reflected).2 rfl,
    carried]
  norm_num [Decimal.toRat, Decimal.size]

end CurrencyPad.Number
