import Changefeed.Double.Decimal

/-!
# The shortest decimal of a double

Among the decimals that `Double.ofDecimal` rounds back to a given double, the one with the fewest
digits is chosen, and among those the nearest. On the grid of a power of ten only the two
neighbours of the double have to be tried. When none of seventeen grids has a hit, the exact
decimal of the double is taken, which always reads back.
-/

namespace Changefeed.Double

inductive Tie
  | toEven
  | upward
deriving DecidableEq, Repr

def floorLog10 (n d : Nat) : Int :=
  let l : Int := ((Digits.ofNat n).length : Int) - (Digits.ofNat d).length
  if n * powPart 10 (-l) < d * powPart 10 l then l - 1 else l

def readsBack (negative : Bool) (rank : Nat) (d : Decimal) : Bool :=
  ofDecimal d == ofRank negative rank

/-- The multiple of `10 ^ grid` that is nearest to a double among those that read back. -/
def onGrid? (tie : Tie) (negative : Bool) (rank : Nat) (grid : Int) : Option Decimal :=
  let num := (ratio rank).1 * powPart 10 (-grid)
  let den := (ratio rank).2 * powPart 10 grid
  let below := Decimal.normal ⟨negative, num / den, grid⟩
  let above := Decimal.normal ⟨negative, num / den + 1, grid⟩
  match readsBack negative rank below, readsBack negative rank above with
  | false, false => none
  | true, false => some below
  | false, true => some above
  | true, true =>
    let twice := 2 * (num % den)
    if twice < den then some below
    else if den < twice then some above
    else match tie with
      | .upward => some above
      | .toEven => if num / den % 2 = 0 then some below else some above

def exactDecimal (negative : Bool) (rank : Nat) : Decimal :=
  let q := scale rank
  Decimal.normal
    (if 0 ≤ q then ⟨negative, significand rank * powPart 2 q, 0⟩
    else ⟨negative, significand rank * powPart 5 (-q), q⟩)

def firstOnGrid? (tie : Tie) (negative : Bool) (rank : Nat) : Nat → Int → Option Decimal
  | 0, _ => none
  | n + 1, top => (onGrid? tie negative rank top).or (firstOnGrid? tie negative rank n (top - 1))

def shortest (tie : Tie) (negative : Bool) (rank : Nat) : Decimal :=
  if rank = 0 then ⟨negative, 0, 0⟩
  else (firstOnGrid? tie negative rank 17 (floorLog10 (ratio rank).1 (ratio rank).2)).getD
    (exactDecimal negative rank)

end Changefeed.Double
