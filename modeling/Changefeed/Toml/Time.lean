import Changefeed.Calendar.Date
import Changefeed.Text.Digits

/-!
# Dates and times of TOML

A value may be a date, a time of day, or both with a `T` or a space in between, then with an
optional offset. The calendar must have the date. The text of such a value has no more digits of a
fraction than are needed.
-/

namespace Changefeed.Toml

inductive Offset
  | utc
  | minutes (n : Int)
deriving DecidableEq, Repr

inductive Time
  | date (d : Date)
  | clock (c : Clock)
  | both (d : Date) (c : Clock) (offset : Option Offset)
deriving DecidableEq, Repr

def digits? (count : Nat) (s : List Char) : Option (Nat × List Char) :=
  let (ds, rest) := Digits.spanUpTo count s
  if ds.length = count then some (Digits.toNat ds, rest) else none

def literalChar? (c : Char) : List Char → Option (List Char)
  | d :: s => if d = c then some s else none
  | [] => none

def date? (s : List Char) : Option (Date × List Char) := do
  let (year, s) ← digits? 4 s
  let (month, s) ← digits? 2 (← literalChar? '-' s)
  let (day, s) ← digits? 2 (← literalChar? '-' s)
  let d : Date := ⟨year, month, day⟩
  if d.isValid then some (d, s) else none

def fraction? : List Char → Option (Nat × List Char)
  | '.' :: s =>
    let (ds, rest) := Digits.span s
    if ds.isEmpty then none
    else some (Digits.toNat (ds.take 9 ++ List.replicate (9 - ds.length) '0'), rest)
  | _ => none

def clock? (s : List Char) : Option (Clock × List Char) := do
  let (hour, s) ← digits? 2 s
  let (minute, s) ← digits? 2 (← literalChar? ':' s)
  let (second, s) ← digits? 2 (← literalChar? ':' s)
  let (nano, s) := (fraction? s).getD (0, s)
  let c : Clock := ⟨hour, minute, second, nano⟩
  if c.isValid then some (c, s) else none

def offset? (s : List Char) : Option (Offset × List Char) :=
  match s with
  | 'Z' :: t | 'z' :: t => some (.utc, t)
  | c :: t => do
    guard (c == '+' || c == '-')
    let (hour, t) ← digits? 2 t
    let (minute, t) ← digits? 2 (← literalChar? ':' t)
    guard (hour < 24 && minute < 60)
    let n : Int := 60 * hour + minute
    return (.minutes (if c == '-' then -n else n), t)
  | [] => none

def clockAfterDate? : List Char → Option (Clock × List Char)
  | c :: s => if c == 'T' || c == 't' || c == ' ' then clock? s else none
  | [] => none

def time? (s : List Char) : Option (Time × List Char) :=
  match date? s with
  | some (d, s) =>
    match clockAfterDate? s with
    | none => some (.date d, s)
    | some (c, s) =>
      match offset? s with
      | none => some (.both d c none, s)
      | some (o, s) => some (.both d c (some o), s)
  | none => (clock? s).map fun (c, s) => (.clock c, s)

namespace Time

def writeDate (d : Date) : List Char :=
  Digits.padded 4 d.year.toNat ++ '-' :: Digits.padded 2 d.month ++ '-' :: Digits.padded 2 d.day

/-- The digits of a fraction without the zeros at its end. -/
def writeFraction (nano : Nat) : List Char :=
  if nano = 0 then []
  else '.' :: ((Digits.padded 9 nano).reverse.dropWhile (· == '0')).reverse

def writeClock (c : Clock) : List Char :=
  Digits.padded 2 c.hour ++ ':' :: Digits.padded 2 c.minute ++ ':' :: Digits.padded 2 c.second
    ++ writeFraction c.nano

def writeOffset : Option Offset → List Char
  | none => []
  | some .utc => ['Z']
  | some (.minutes n) =>
    (if n < 0 then '-' else '+') :: Digits.padded 2 (n.natAbs / 60) ++
      ':' :: Digits.padded 2 (n.natAbs % 60)

def write : Time → List Char
  | .date d => writeDate d
  | .clock c => writeClock c
  | .both d c o => writeDate d ++ 'T' :: writeClock c ++ writeOffset o

end Time
end Changefeed.Toml
