import Changefeed.Double.Shortest
import Changefeed.Text.Ascii

/-!
# The text of a double

A double is written with the digits of its shortest decimal, laid out by a `Style`. It is read from
an optional sign followed by digits with an optional point and exponent, or by a word for infinity
or for not a number.
-/

namespace Changefeed

namespace Double

structure Style where
  /-- The decimal exponents that are written positionally; without bounds, all of them. -/
  positional : Option (Int × Int)
  wholeFraction : Bool
  tie : Tie

def positionalText (style : Style) (digits : List Char) (exponent : Int) : List Char :=
  let point := digits.length + exponent
  if 0 ≤ exponent then
    digits ++ List.replicate exponent.toNat '0' ++ (if style.wholeFraction then ['.', '0'] else [])
  else if 0 < point then digits.take point.toNat ++ '.' :: digits.drop point.toNat
  else '0' :: '.' :: List.replicate (-point).toNat '0' ++ digits

def scientificText (digits : List Char) (exponent : Int) : List Char :=
  let e := digits.length + exponent - 1
  digits.take 1 ++ (if digits.length ≤ 1 then [] else '.' :: digits.drop 1)
    ++ 'e' :: (if e < 0 then '-' else '+') :: Digits.ofNat e.natAbs

def Style.isPositional (style : Style) (e : Int) : Bool :=
  match style.positional with
  | none => true
  | some (least, greatest) => least ≤ e && e ≤ greatest

def sign (negative : Bool) : List Char := if negative then ['-'] else []

def Style.layOut (style : Style) (d : Decimal) : List Char :=
  let digits := Digits.ofNat d.coefficient
  sign d.negative ++
    if style.isPositional (digits.length + d.exponent - 1) then
      positionalText style digits d.exponent
    else scientificText digits d.exponent

def write (style : Style) : Double → List Char
  | .nan => "NaN".toList
  | .infinite negative => sign negative ++ "inf".toList
  | .finite negative rank => style.layOut (shortest style.tie negative rank)

end Double

inductive DoubleFault
  | empty
  | invalid
deriving DecidableEq, Repr

def DoubleFault.message : DoubleFault → String
  | .empty => "cannot parse float from empty string"
  | .invalid => "invalid float literal"

namespace Double

def splitSign : List Char → Bool × List Char
  | '-' :: s => (true, s)
  | '+' :: s => (false, s)
  | s => (false, s)

/-- An exponent part at the start of a text: the letter, an optional sign and at least one digit.
Without the letter the exponent is zero. -/
def exponentPart? : List Char → Option (Int × List Char)
  | c :: s =>
    if c = 'e' ∨ c = 'E' then
      let (negative, t) := splitSign s
      let (ds, rest) := Digits.span t
      let n : Int := Digits.toNat ds
      if ds.isEmpty then none else some (if negative then -n else n, rest)
    else some (0, c :: s)
  | [] => some (0, [])

def fractionPart : List Char → List Char × List Char
  | '.' :: s => Digits.span s
  | s => ([], s)

def unsigned? (negative : Bool) (s : List Char) : Option Decimal := do
  let (whole, s) := Digits.span s
  let (fraction, s) := fractionPart s
  guard (!(whole.isEmpty && fraction.isEmpty))
  let (exponent, s) ← exponentPart? s
  guard s.isEmpty
  return Decimal.ofParts negative whole fraction exponent

/-- A number too large for a double is read as infinity. -/
def read (s : List Char) : Except DoubleFault Double :=
  if s.isEmpty then .error .empty
  else
    let (negative, t) := splitSign s
    if Ascii.sameWord t "inf".toList || Ascii.sameWord t "infinity".toList then
      .ok (infinite negative)
    else if Ascii.sameWord t "nan".toList then .ok nan
    else match unsigned? negative t with
      | some d => .ok (ofDecimal d)
      | none => .error .invalid

end Double
end Changefeed
