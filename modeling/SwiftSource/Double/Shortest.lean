import SwiftSource.Double.Binary

namespace SwiftSource.Double

-- The number `digits * 10 ^ exponent`, counted in units of `10 ^ -324`. These units are
-- smaller than the least positive double, so every double has a decimal of this form that
-- rounds to it.
structure Decimal where
  digits : Nat
  exponent : Nat
deriving DecidableEq

-- Magnitudes and decimals are compared as natural numbers, as multiples of the common unit
-- `2 ^ -1074 * 10 ^ -324 / 4`. The quarter leaves room for the halfway points between
-- neighbouring magnitudes.
def Decimal.scaled (d : Decimal) : Nat :=
  4 * d.digits * Nat.pow 10 d.exponent * Nat.pow 2 1074

namespace Magnitude

def scaled (m : Magnitude) : Nat :=
  4 * m.significand * Nat.pow 2 m.exponent * Nat.pow 10 324

-- The distance to the halfway point below, in quarters of the magnitude's own unit. Below a
-- power of two the neighbour is twice as near, except where the exponent cannot be lowered.
def quartersBelow (m : Magnitude) : Nat :=
  if m.significand = 0x10000000000000 ∧ 0 < m.exponent then 1 else 2

def lower (m : Magnitude) : Nat :=
  (4 * m.significand - m.quartersBelow) * Nat.pow 2 m.exponent * Nat.pow 10 324

def upper (m : Magnitude) : Nat :=
  (4 * m.significand + 2) * Nat.pow 2 m.exponent * Nat.pow 10 324

-- A decimal rounds to `m` when it lies between the two halfway points. A halfway point
-- itself goes to the neighbour whose significand is even.
def IsRounded (m : Magnitude) (d : Decimal) : Prop :=
  if m.significand % 2 = 0 then
    m.lower ≤ d.scaled ∧ d.scaled ≤ m.upper
  else
    m.lower < d.scaled ∧ d.scaled < m.upper

instance (m : Magnitude) (d : Decimal) : Decidable (m.IsRounded d) := by
  unfold IsRounded
  infer_instance

-- The last multiple of `10 ^ exponent` that is not above `m`.
def floor (m : Magnitude) (exponent : Nat) : Decimal :=
  ⟨m.scaled / (⟨1, exponent⟩ : Decimal).scaled, exponent⟩

-- Of the two multiples of `10 ^ exponent` around `m`, the nearer one that rounds to `m`.
-- From the middle between them it is the upper one.
def nearest? (m : Magnitude) (exponent : Nat) : Option Decimal :=
  let step := (⟨1, exponent⟩ : Decimal).scaled
  let below := m.floor exponent
  let above : Decimal := ⟨below.digits + 1, exponent⟩
  if m.IsRounded below ∧ (2 * (m.scaled % step) < step ∨ ¬ m.IsRounded above) then
    some below
  else if m.IsRounded above then
    some above
  else
    none

-- The nearest decimal on the coarsest grid, from `10 ^ exponent` down, that has a decimal
-- rounding to `m`. A coarser grid leaves fewer digits, and a last digit zero would put the
-- decimal on a coarser grid, so no decimal with fewer digits rounds to `m`.
def shortestFrom (m : Magnitude) : Nat → Decimal
  | 0 => (m.nearest? 0).getD (m.floor 0)
  | exponent + 1 =>
    match m.nearest? (exponent + 1) with
    | some d => d
    | none => m.shortestFrom exponent

-- No double reaches `10 ^ 309`, so the search starts at the grid of `10 ^ 308`.
def shortest (m : Magnitude) : Decimal :=
  m.shortestFrom 632

end Magnitude

end SwiftSource.Double
