import CurrencyPad.Binary64.Nearest

/-!
# Finite doubles

Doubles that are numbers and not infinite. Amounts of money are such doubles.
-/

namespace CurrencyPad.Binary64

structure Finite where
  value : Float
  isFinite : value.isFinite = true

namespace Finite

instance : BEq Finite where
  beq left right := left.value == right.value

def zero : Finite :=
  ⟨0, by decide⟩

def ofFloat? (x : Float) : Option Finite :=
  if finite : x.isFinite = true then some ⟨x, finite⟩ else none

/-- The same number with a plain zero in place of a negative one. -/
def withoutNegativeZero (x : Finite) : Finite :=
  if x.value == 0 then zero else x

end Finite

end CurrencyPad.Binary64
