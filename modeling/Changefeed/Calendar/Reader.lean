import Changefeed.Calendar.Date
import Changefeed.Text.Ascii
import Changefeed.Text.Blank
import Changefeed.Text.Digits

/-!
# Reading dates and times

A numeric field may be preceded by white space and has at least one digit; a year has at most four
unless it carries a sign. The readers of parts give back what follows the part. Four forms are
read as a whole: dates, times without an offset, times with an offset as a database writes them,
and the times of documents. The third of them falls back to the strict form of RFC 3339.
-/

namespace Changefeed.Calendar

def literal? (c : Char) : List Char → Option (List Char)
  | d :: s => if d = c then some s else none
  | [] => none

def number? (width : Nat) (s : List Char) : Option (Nat × List Char) :=
  let (ds, rest) := Digits.spanUpTo width (Blank.skip s)
  if ds.isEmpty then none else some (Digits.toNat ds, rest)

def digits? (s : List Char) : Option (Nat × List Char) :=
  let (ds, rest) := Digits.span s
  if ds.isEmpty then none else some (Digits.toNat ds, rest)

def year? (s : List Char) : Option (Int × List Char) :=
  match Blank.skip s with
  | '-' :: t => (digits? t).map fun (n, r) => (-(n : Int), r)
  | '+' :: t => (digits? t).map fun (n, r) => ((n : Int), r)
  | t => (number? 4 t).map fun (n, r) => ((n : Int), r)

/-- The nanoseconds that a fraction of a second denotes; digits after the ninth are dropped. -/
def nanos (ds : List Char) : Nat :=
  Digits.toNat (ds.take 9 ++ List.replicate (9 - ds.length) '0')

def fraction? : List Char → Option (Nat × List Char)
  | '.' :: s =>
    let (ds, rest) := Digits.span s
    if ds.isEmpty then none else some (nanos ds, rest)
  | s => some (0, s)

/-- A date that the calendar has, in a supported year. The separators may be preceded by what
`skip` removes. -/
def date? (skip : List Char → List Char) (s : List Char) : Option (Date × List Char) := do
  let (year, s) ← year? s
  let s ← literal? '-' (skip s)
  let (month, s) ← number? 2 s
  let s ← literal? '-' (skip s)
  let (day, s) ← number? 2 s
  let d : Date := ⟨year, month, day⟩
  guard (d.isValid && d.isInRange)
  return (d, s)

def clock? (skip : List Char → List Char) (s : List Char) : Option (Clock × List Char) := do
  let (hour, s) ← number? 2 s
  let s ← literal? ':' (skip s)
  let (minute, s) ← number? 2 s
  let s ← literal? ':' (skip s)
  let (second, s) ← number? 2 s
  let (nano, s) ← fraction? s
  let c : Clock := ⟨hour, minute, second, nano⟩
  guard c.isValid
  return (c, s)

def twoDigits? : List Char → Option (Nat × List Char)
  | a :: b :: s => if a.isDigit && b.isDigit then some (Digits.toNat [a, b], s) else none
  | _ => none

def minus : Char := '\u2212'

def offsetSign? : List Char → Option (Bool × List Char)
  | '+' :: s => some (false, s)
  | '-' :: s => some (true, s)
  | c :: s => if c = minus then some (true, s) else none
  | [] => none

def offsetOf? (negative : Bool) (hours minutes : Nat) : Option Int :=
  if hours < 24 ∧ minutes < 60 then
    let n : Int := 60 * hours + minutes
    some (if negative then -n else n)
  else none

def offsetMinutes? (mayLack : Bool) (s : List Char) : Option (Nat × List Char) :=
  match s.dropWhile fun c => c == ':' || Blank.isBlank c with
  | [] => if mayLack then some (0, []) else none
  | t => twoDigits? t

/-- An offset from UTC in minutes: `Z`, or a sign, hours and minutes. -/
def offset? (minutesMayLack : Bool) (s : List Char) : Option (Int × List Char) :=
  match s with
  | 'Z' :: t | 'z' :: t => some (0, t)
  | _ => do
    let (negative, s) ← offsetSign? s
    let (hours, s) ← twoDigits? s
    let (minutes, s) ← offsetMinutes? minutesMayLack s
    return (← offsetOf? negative hours minutes, s)

def strictOffset? (s : List Char) : Option (Int × List Char) :=
  match s with
  | 'Z' :: t | 'z' :: t => some (0, t)
  | _ => do
    let (negative, s) ← offsetSign? s
    let (hours, s) ← twoDigits? s
    let s ← literal? ':' s
    let (minutes, s) ← twoDigits? s
    return (← offsetOf? negative hours minutes, s)

def whole? {α : Type} : Option (α × List Char) → Option α
  | some (x, []) => some x
  | _ => none

def readDate? (s : List Char) : Option Date := whole? (date? id s)

def local? (s : List Char) : Option (Timestamp × List Char) := do
  let (d, s) ← date? id s
  let (c, s) ← clock? id (Blank.skip s)
  return (⟨d, c⟩, s)

def readLocal? (s : List Char) : Option Timestamp := whole? (local? s)

def readZonedLoose? (s : List Char) : Option Timestamp := do
  let (t, s) ← local? s
  let offset ← whole? (offset? true (Blank.skip s))
  t.toUtc? offset

def fourDigits? (s : List Char) : Option (Nat × List Char) := do
  let (a, s) ← twoDigits? s
  let (b, s) ← twoDigits? s
  return (100 * a + b, s)

def readStrict? (s : List Char) : Option Timestamp := do
  let (year, s) ← fourDigits? s
  let (month, s) ← twoDigits? (← literal? '-' s)
  let (day, s) ← twoDigits? (← literal? '-' s)
  let s ← (literal? 'T' s).or ((literal? 't' s).or (literal? ' ' s))
  let (hour, s) ← twoDigits? s
  let (minute, s) ← twoDigits? (← literal? ':' s)
  let (second, s) ← twoDigits? (← literal? ':' s)
  let (nano, s) ← fraction? s
  let offset ← whole? (strictOffset? s)
  let t : Timestamp := ⟨⟨year, month, day⟩, ⟨hour, minute, second, nano⟩⟩
  guard t.isValid
  t.toUtc? offset

def readZoned? (s : List Char) : Option Timestamp := (readZonedLoose? s).or (readStrict? s)

/-- The offset of a time in a document, which may be the word `UTC`. -/
def documentOffset? (s : List Char) : Option (Int × List Char) :=
  match Ascii.dropWord? "UTC".toList s with
  | some t => some (0, t)
  | none => offset? false s

def readInstant? (s : List Char) : Option Timestamp := do
  let (d, s) ← date? Blank.skip s
  let s ← (literal? 't' s).or ((literal? 'T' s).or (literal? ' ' s))
  let (c, s) ← clock? Blank.skip s
  let (offset, s) ← documentOffset? (Blank.skip s)
  guard (Blank.skip s).isEmpty
  Timestamp.toUtc? ⟨d, c⟩ offset

end Changefeed.Calendar
