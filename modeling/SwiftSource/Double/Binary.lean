namespace SwiftSource

-- A double-precision number, kept as its bit pattern. Two doubles are equal exactly when
-- their bits are, so the sign of a zero and the bits of a NaN count.
structure Double where
  bits : UInt64
deriving DecidableEq

namespace Double

-- The magnitude `significand * 2 ^ exponent`, counted in units of `2 ^ -1074`, the least
-- positive double. Every finite double is a whole number of these units.
structure Magnitude where
  significand : Nat
  exponent : Nat
deriving DecidableEq

inductive Kind where
  | nan
  | infinite
  | finite (magnitude : Magnitude)
deriving DecidableEq

def isNegative (x : Double) : Bool :=
  decide (0x8000000000000000 ≤ x.bits.toNat)

-- The eleven bits below the sign.
def exponentField (x : Double) : Nat :=
  x.bits.toNat / 0x10000000000000 % 0x800

-- The lowest fifty-two bits.
def fractionField (x : Double) : Nat :=
  x.bits.toNat % 0x10000000000000

-- The largest exponent field marks what is not finite. The field zero stands for the same
-- exponent as the field one, without the leading bit of the significand.
def kind (x : Double) : Kind :=
  if x.exponentField = 2047 then
    if x.fractionField = 0 then .infinite else .nan
  else if x.exponentField = 0 then
    .finite ⟨x.fractionField, 0⟩
  else
    .finite ⟨0x10000000000000 + x.fractionField, x.exponentField - 1⟩

end Double

end SwiftSource
