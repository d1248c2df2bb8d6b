/-!
# Double-precision numbers

A double is one of two infinities, not a number, or a finite number. The finite numbers of one sign
are numbered upwards from zero by their rank, so that neighbouring doubles have neighbouring ranks.
`roundRatio` gives the rank of the double nearest to a ratio, with ties to the even rank.
-/

namespace Changefeed

abbrev Double.fractions : Nat := 4503599627370496

/-- The number of finite doubles of one sign, which have 2047 exponents. -/
abbrev Double.ranks : Nat := 2047 * fractions

inductive Double
  | nan
  | infinite (negative : Bool)
  | finite (negative : Bool) (rank : Fin Double.ranks)
deriving DecidableEq, Repr

namespace Double

def isFinite : Double → Bool
  | .finite _ _ => true
  | _ => false

def zero (negative : Bool) : Double := .finite negative 0

/-- A finite number is its significand times two to the power of its scale. -/
def significand (rank : Nat) : Nat :=
  if rank < fractions then rank else fractions + rank % fractions

def scale (rank : Nat) : Int :=
  if rank < fractions then -1074 else (rank / fractions : Nat) - 1075

/-- `b ^ e` for a natural exponent, one for a negative one. -/
def powPart (b : Nat) (e : Int) : Nat := Nat.pow b e.toNat

def ratio (rank : Nat) : Nat × Nat :=
  (significand rank * powPart 2 (scale rank), powPart 2 (-scale rank))

def roundHalfEven (n d : Nat) : Nat :=
  let q := n / d
  let r := 2 * (n % d)
  if r < d then q else if d < r then q + 1 else q + q % 2

/-- The largest `l` with `2 ^ l ≤ n / d`. -/
def floorLog2 (n d : Nat) : Int :=
  let l : Int := n.log2 - d.log2
  if n * powPart 2 (-l) < d * powPart 2 l then l - 1 else l

def roundRatio (n d : Nat) : Nat :=
  let q := max (-1074) (floorLog2 n d - 52)
  let m := roundHalfEven (n * powPart 2 (-q)) (d * powPart 2 q)
  (q + 1074).toNat * fractions + m

def ofRank (negative : Bool) (rank : Nat) : Double :=
  if h : rank < ranks then .finite negative ⟨rank, h⟩ else .infinite negative

end Double
end Changefeed
