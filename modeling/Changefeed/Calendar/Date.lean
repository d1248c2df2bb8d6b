/-!
# Dates and times of day

Dates of the Gregorian calendar, extended in both directions to the years from -262143 to 262142. A
time of day counts nanoseconds; its second may be the sixtieth, which is a leap second. A time with
an offset from UTC is moved to UTC by at most one day, so the calendar only has to know the day
before and the day after.
-/

namespace Changefeed

structure Date where
  year : Int
  month : Nat
  day : Nat
deriving DecidableEq, Repr

namespace Date

def epoch : Date := ⟨1970, 1, 1⟩

def isLeap (year : Int) : Bool := year % 4 == 0 && (year % 100 != 0 || year % 400 == 0)

def daysIn (year : Int) (month : Nat) : Nat :=
  if month = 2 then (if isLeap year then 29 else 28)
  else if month = 4 ∨ month = 6 ∨ month = 9 ∨ month = 11 then 30
  else 31

def isValid (d : Date) : Bool :=
  1 ≤ d.month && d.month ≤ 12 && 1 ≤ d.day && d.day ≤ daysIn d.year d.month

def isInRange (d : Date) : Bool := -262143 ≤ d.year && d.year ≤ 262142

def next (d : Date) : Date :=
  if d.day < daysIn d.year d.month then ⟨d.year, d.month, d.day + 1⟩
  else if d.month < 12 then ⟨d.year, d.month + 1, 1⟩
  else ⟨d.year + 1, 1, 1⟩

def previous (d : Date) : Date :=
  if 1 < d.day then ⟨d.year, d.month, d.day - 1⟩
  else if 1 < d.month then ⟨d.year, d.month - 1, daysIn d.year (d.month - 1)⟩
  else ⟨d.year - 1, 12, 31⟩

theorem one_lt_daysIn (year : Int) (month : Nat) : 1 < daysIn year month := by
  unfold daysIn; split <;> (try split) <;> omega

end Date

structure Clock where
  hour : Nat
  minute : Nat
  second : Nat
  nano : Nat
deriving DecidableEq, Repr

namespace Clock

def midnight : Clock := ⟨0, 0, 0, 0⟩

def isValid (c : Clock) : Bool :=
  c.hour < 24 && c.minute < 60 && c.second ≤ 60 && c.nano < 1000000000

def minutes (c : Clock) : Int := 60 * c.hour + c.minute

def withMinutes (c : Clock) (m : Int) : Clock :=
  ⟨(m / 60).toNat, (m % 60).toNat, c.second, c.nano⟩

end Clock

/-- A date and a time of day. As an instant it is meant in UTC. -/
structure Timestamp where
  date : Date
  clock : Clock
deriving DecidableEq, Repr

namespace Timestamp

def epoch : Timestamp := ⟨.epoch, .midnight⟩

instance : Inhabited Timestamp := ⟨epoch⟩

def isValid (t : Timestamp) : Bool := t.date.isValid && t.date.isInRange && t.clock.isValid

def back (t : Timestamp) (minutes : Int) : Timestamp :=
  let m := t.clock.minutes - minutes
  if m < 0 then ⟨t.date.previous, t.clock.withMinutes (m + 1440)⟩
  else if 1440 ≤ m then ⟨t.date.next, t.clock.withMinutes (m - 1440)⟩
  else ⟨t.date, t.clock.withMinutes m⟩

/-- The instant at which clocks that are `offset` minutes ahead of UTC show a time. -/
def toUtc? (t : Timestamp) (offset : Int) : Option Timestamp :=
  let u := t.back offset
  if u.date.isInRange then some u else none

end Timestamp
end Changefeed
