import Changefeed.Double.Decimal

/-!
# Doubles from number literals

The literals of a document are not rounded once. The digits that fit into 64 bits are rounded to a
double, and this is multiplied by a power of ten or divided by one, rounded each time. A literal
with many digits or a large exponent may so become a neighbour of the double that is nearest to it.
-/

namespace Changefeed.Double

def rankOf (n d : Nat) : Nat := if n = 0 then 0 else roundRatio n d

def mulRank (r q : Nat) : Nat := rankOf ((ratio r).1 * (ratio q).1) ((ratio r).2 * (ratio q).2)

def divRank (r q : Nat) : Nat := rankOf ((ratio r).1 * (ratio q).2) ((ratio r).2 * (ratio q).1)

def tenRank (n : Nat) : Nat := rankOf (Nat.pow 10 n) 1

/-- Divides by `10 ^ 308`, the largest power of ten that is at hand, up to `n` times. -/
def shrink : Nat → Nat → Nat
  | 0, r => r
  | n + 1, r => if r = 0 then 0 else shrink n (divRank r (tenRank 308))

/-- The rank of a number times `10 ^ e`, beyond the finite ones if the power itself is. -/
def scaleRank (r : Nat) (e : Int) : Nat :=
  if r = 0 then 0
  else if 308 < e then ranks
  else if 0 ≤ e then mulRank r (tenRank e.toNat)
  else
    let k := (-e).toNat - 1
    divRank (shrink (k / 308) r) (tenRank (k % 308 + 1))

/-- Appends digits to a number as long as it fits into 64 bits, and counts the others. -/
def takeDigits : Nat → List Char → Nat × Nat
  | n, [] => (n, 0)
  | n, c :: s =>
    let m := 10 * n + (c.toNat - '0'.toNat)
    if m < 18446744073709551616 then takeDigits m s else (n, s.length + 1)

/-- The double that a literal is read as, infinite if it is out of range. Digits before the point
that are left out count as zeros, and those after it not at all. -/
def ofLiteral (negative : Bool) (whole fraction : List Char) (exponent : Int) : Double :=
  let (n, zeros) := takeDigits 0 whole
  let (m, ignored) := takeDigits n fraction
  let places : Int := fraction.length - ignored
  ofRank negative (scaleRank (rankOf m 1) (zeros - places + exponent))

end Changefeed.Double
