import Mathlib
import CurrencyPad.Binary64.Finite

/-!
# Equality of doubles

A double is finite where it is neither infinite nor undefined. There is one
undefined double, and there are two infinite ones. The equality of numbers takes
the two zeros for equal and tells an undefined result from itself. Both
exceptions are gone among finite doubles whose zero is the plain one: there
equal numbers are the same double.
-/

namespace CurrencyPad.Binary64

open Float.Model

theorem isFinite_eq (x : Float) : x.isFinite = !(x.isInf || x.isNaN) := by
  unfold Float.isFinite Float.isInf Float.isNaN Float.Model.isFinite
    Float.Model.isInf Float.Model.isNaN
  cases x.toModel.unpack <;> rfl

/-- A double is packed from its parts again. -/
private theorem ofModel_pack_unpack (x : Float) :
    Float.ofModel (pack x.toModel.unpack) = x := by
  obtain ⟨⟨bits, valid⟩⟩ := x
  have packed : UnpackedFloat.pack .binary64
      (UnpackedFloat.unpack .binary64 bits.toBitVec) = bits.toBitVec := by
    rw [UnpackedFloat.pack_unpack]
    split
    case isTrue undefined =>
      -- Of all the patterns without a number a double has only one.
      rw [UnpackedFloat.isNaNBits, decide_eq_true_eq] at undefined
      exact (valid.eq_packedNaN undefined.1 undefined.2).symm
    case isFalse =>
      rfl
  unfold pack unpack
  simp only [packed]

/-- The double that is no number. -/
theorem eq_of_isNaN {x : Float} (undefined : x.isNaN = true) :
    x = 0.0 / 0.0 := by
  have kind : x.toModel.unpack = .notANumber :=
    UnpackedFloat.isNaN_iff.mp undefined
  rw [← ofModel_pack_unpack x, kind]
  decide +kernel

/-- The doubles that are infinite. -/
theorem eq_or_eq_of_isInf {x : Float} (infinite : x.isInf = true) :
    x = 1.0 / 0.0 ∨ x = -1.0 / 0.0 := by
  rw [← ofModel_pack_unpack x]
  rw [Float.isInf, Float.Model.isInf] at infinite
  cases kind : x.toModel.unpack with
  | infinity sign =>
      cases sign with
      | positive =>
          exact .inl (by decide +kernel)
      | negative =>
          exact .inr (by decide +kernel)
  | _ =>
      rw [kind] at infinite
      cases infinite

/-- A positive number is not zero. -/
theorem beq_zero_of_pos {x : Float} (positive : 0 < x) :
    (x == 0) = false := by
  have zero : (0 : Float).toModel.unpack = .zero .positive := rfl
  have above : (0 : Float).toModel.unpack.lt x.toModel.unpack = true :=
    of_decide_eq_true (p := (0 : Float).toModel < x.toModel) positive
  change x.toModel.unpack.beq (0 : Float).toModel.unpack = false
  rw [zero] at above ⊢
  generalize x.toModel.unpack = unpacked at above
  cases unpacked with
  | notANumber =>
      rfl
  | infinity sign =>
      cases sign <;> rfl
  | zero sign =>
      cases above
  | finite sign =>
      cases sign <;> rfl

namespace Finite

theorem value_ne_nan (x : Finite) : x.value ≠ Float.nan := by
  intro undefined
  have finite := x.isFinite
  rw [undefined] at finite
  revert finite
  decide

def HasPlainZero (x : Finite) : Prop :=
  (x.value == 0) = true → x = zero

theorem withoutNegativeZero_hasPlainZero (x : Finite) :
    x.withoutNegativeZero.HasPlainZero := by
  intro isZero
  unfold withoutNegativeZero at isZero ⊢
  split
  · rfl
  · simp_all

theorem beq_self (x : Finite) : (x == x) = true :=
  Float.beq_self_iff.mpr x.value_ne_nan

/-- With plain zeros, equal numbers are the same double. -/
theorem beq_iff_eq_of_hasPlainZero {left right : Finite}
    (leftPlain : left.HasPlainZero)
    (rightPlain : right.HasPlainZero) :
    (left == right) = true ↔ left = right := by
  constructor
  · intro equal
    have zeros :
        (left.value == 0) = true → (right.value == 0) = true →
          left = right :=
      fun leftZero rightZero =>
        (leftPlain leftZero).trans (rightPlain rightZero).symm
    obtain ⟨_, _, same | ⟨plain, signed⟩ | ⟨signed, plain⟩⟩ :=
      Float.beq_iff_ne_nan_and_eq.mp equal
    · cases left
      cases right
      cases same
      rfl
    · apply zeros
      · rw [plain]
        decide
      · rw [signed]
        decide
    · apply zeros
      · rw [signed]
        decide
      · rw [plain]
        decide
  · intro same
    subst same
    exact beq_self left

end Finite

end CurrencyPad.Binary64
