import Changefeed.Calendar.Date
import Changefeed.Text.Digits

/-!
# Writing dates and times

Years of four digits are written plainly, all others with a sign and at least four digits. A
fraction of a second has three, six or nine digits, the fewest that lose nothing, and is left out if
it is zero. Instants end in `Z`.
-/

namespace Changefeed

namespace Date

def writeYear (year : Int) : List Char :=
  if 0 ≤ year ∧ year ≤ 9999 then Digits.padded 4 year.toNat
  else (if year < 0 then '-' else '+') :: Digits.padded 4 year.natAbs

def write (d : Date) : List Char :=
  writeYear d.year ++ '-' :: Digits.padded 2 d.month ++ '-' :: Digits.padded 2 d.day

end Date

namespace Clock

def writeFraction (nano : Nat) : List Char :=
  if nano = 0 then []
  else if nano % 1000000 = 0 then '.' :: Digits.padded 3 (nano / 1000000)
  else if nano % 1000 = 0 then '.' :: Digits.padded 6 (nano / 1000)
  else '.' :: Digits.padded 9 nano

def write (c : Clock) : List Char :=
  Digits.padded 2 c.hour ++ ':' :: Digits.padded 2 c.minute ++ ':' :: Digits.padded 2 c.second
    ++ writeFraction c.nano

end Clock

namespace Timestamp

def writeLocal (t : Timestamp) : List Char := t.date.write ++ 'T' :: t.clock.write

def writeInstant (t : Timestamp) : List Char := t.writeLocal ++ ['Z']

def instantText (t : Timestamp) : String := String.ofList t.writeInstant

end Timestamp
end Changefeed
