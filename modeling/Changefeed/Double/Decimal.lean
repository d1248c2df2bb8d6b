import Changefeed.Double.Basic
import Changefeed.Text.Digits

/-!
# Decimal numbers and the doubles nearest to them

A decimal is a signed coefficient times a power of ten. `Double.ofDecimal` rounds it correctly;
exponents far outside the range of a double are decided without computing the power.
-/

namespace Changefeed

structure Decimal where
  negative : Bool
  coefficient : Nat
  exponent : Int
deriving DecidableEq, Repr

namespace Decimal

def ofParts (negative : Bool) (whole fraction : List Char) (exponent : Int) : Decimal :=
  ⟨negative, Digits.toNat (whole ++ fraction), exponent - fraction.length⟩

/-- The number of digits before the point, which is negative if zeros follow the point. -/
def places (d : Decimal) : Int := (Digits.ofNat d.coefficient).length + d.exponent

def dropZeros : Nat → Decimal → Decimal
  | 0, d => d
  | n + 1, d =>
    if d.coefficient % 10 = 0 then dropZeros n ⟨d.negative, d.coefficient / 10, d.exponent + 1⟩
    else d

/-- The same number with a coefficient that does not end in zero; zero has the exponent zero. -/
def normal (d : Decimal) : Decimal :=
  if d.coefficient = 0 then ⟨d.negative, 0, 0⟩
  else dropZeros (Digits.ofNat d.coefficient).length d

def ratio (d : Decimal) : Nat × Nat :=
  (d.coefficient * Double.powPart 10 d.exponent, Double.powPart 10 (-d.exponent))

end Decimal

/-- The double nearest to a decimal. A decimal of `10 ^ 310` or more is beyond the largest double,
and one below `10 ^ -330` is nearer to zero than to the least positive one. -/
def Double.ofDecimal (d : Decimal) : Double :=
  if d.coefficient = 0 then zero d.negative
  else if 310 < d.places then infinite d.negative
  else if d.places < -330 then zero d.negative
  else ofRank d.negative (roundRatio d.ratio.1 d.ratio.2)

end Changefeed
