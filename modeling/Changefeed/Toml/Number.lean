import Changefeed.Json.Basic
import Changefeed.Toml.Text

/-!
# Numbers of TOML

Integers have 64 bits and may be written in four bases; a decimal one has no leading zero. A single
underscore may stand between two digits. A floating-point number has a fraction or an exponent, or
is a word for infinity or for not a number. One that is too large for a double is refused unless it
is negative.
-/

namespace Changefeed.Toml

def moreDigits (isDigit : Char → Bool) : List Char → List Char × List Char
  | '_' :: c :: s => if isDigit c then push c (moreDigits isDigit s) else ([], '_' :: c :: s)
  | c :: s => if isDigit c then push c (moreDigits isDigit s) else ([], c :: s)
  | [] => ([], [])

def digitRun? (isDigit : Char → Bool) : List Char → Option (List Char × List Char)
  | c :: s => if isDigit c then some (push c (moreDigits isDigit s)) else none
  | [] => none

def splitSign : List Char → Bool × List Char
  | '-' :: s => (true, s)
  | '+' :: s => (false, s)
  | s => (false, s)

def wholePart? (s : List Char) : Option (List Char × List Char) :=
  match s with
  | '0' :: t => some (['0'], t)
  | _ => digitRun? Char.isDigit s

def bounded? (negative : Bool) (n : Nat) : Option Json :=
  (Integer.ofInt? (if negative then -n else n)).map fun _ => .num (.whole negative n)

def inBase? (base : Nat) (isDigit : Char → Bool) (s : List Char) : Option (Json × List Char) := do
  let (ds, rest) ← digitRun? isDigit s
  let n := (← ds.mapM hexValue?).foldl (fun n d => base * n + d) 0
  return (← bounded? false n, rest)

def integer? : List Char → Option (Json × List Char)
  | '0' :: 'x' :: s => inBase? 16 (fun c => (hexValue? c).isSome) s
  | '0' :: 'o' :: s => inBase? 8 (fun c => '0' ≤ c && c ≤ '7') s
  | '0' :: 'b' :: s => inBase? 2 (fun c => c == '0' || c == '1') s
  | s => do
    let (negative, s) := splitSign s
    let (ds, rest) ← wholePart? s
    return (← bounded? negative (Digits.toNat ds), rest)

def exponent? : List Char → Option (Int × List Char)
  | c :: s => do
    guard (c == 'e' || c == 'E')
    let (negative, s) := splitSign s
    let (ds, rest) ← digitRun? Char.isDigit s
    let n : Int := Digits.toNat ds
    return (if negative then -n else n, rest)
  | [] => none

def fractionDigits? : List Char → Option (List Char × List Char)
  | '.' :: s => digitRun? Char.isDigit s
  | _ => none

def floatTail? (s : List Char) : Option ((List Char × Int) × List Char) :=
  match fractionDigits? s with
  | some (fraction, t) =>
    match exponent? t with
    | some (e, u) => some ((fraction, e), u)
    | none => some ((fraction, 0), t)
  | none => (exponent? s).map fun (e, t) => (([], e), t)

/-- Numbers that are not finite have no document and count as null. -/
def finiteFloat? (d : Decimal) : Option Json :=
  match Double.ofDecimal d with
  | .infinite false => none
  | .infinite true => some .null
  | _ => some (.num (.decimal d))

def word? : List Char → Option (Json × List Char)
  | 'i' :: 'n' :: 'f' :: s => some (.null, s)
  | 'n' :: 'a' :: 'n' :: s => some (.null, s)
  | _ => none

def float? (s : List Char) : Option (Json × List Char) :=
  let (negative, s) := splitSign s
  match word? s with
  | some r => some r
  | none => do
    let (whole, s) ← wholePart? s
    let ((fraction, exponent), s) ← floatTail? s
    return (← finiteFloat? (Decimal.ofParts negative whole fraction exponent), s)

end Changefeed.Toml
