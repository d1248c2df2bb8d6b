import Changefeed.Text.Digits

/-!
# Signed 64-bit numerals

A numeral is an optional sign and at least one ASCII digit. Reading goes from left to right and
stops at the first fault, so of a stray character and an overflow the one met first is reported.
-/

namespace Changefeed

inductive IntegerFault
  | empty
  | invalidDigit
  | tooLarge
  | tooSmall
deriving DecidableEq, Repr

def IntegerFault.message : IntegerFault → String
  | .empty => "cannot parse integer from empty string"
  | .invalidDigit => "invalid digit found in string"
  | .tooLarge => "number too large to fit in target type"
  | .tooSmall => "number too small to fit in target type"

namespace Integer

/-- Appends the digits of a text to the number `acc`, which has to stay within `limit`. -/
def magnitude (limit : Nat) (overflow : IntegerFault) : Nat → List Char → Except IntegerFault Nat
  | acc, [] => .ok acc
  | acc, c :: cs =>
    if c.isDigit then
      let next := 10 * acc + (c.toNat - '0'.toNat)
      if next ≤ limit then magnitude limit overflow next cs else .error overflow
    else .error .invalidDigit

/-- Two to the power of 63. The largest 64-bit integer is one less, the smallest is its negative. -/
abbrev bound : Nat := 9223372036854775808

def read : List Char → Except IntegerFault Int64
  | [] => .error .empty
  | ['+'] | ['-'] => .error .invalidDigit
  | '-' :: cs => (magnitude bound .tooSmall 0 cs).map fun n => Int64.ofInt (-n)
  | '+' :: cs => (magnitude (bound - 1) .tooLarge 0 cs).map fun n => Int64.ofInt n
  | cs => (magnitude (bound - 1) .tooLarge 0 cs).map fun n => Int64.ofInt n

def ofInt? (i : Int) : Option Int64 :=
  if -bound ≤ i ∧ i < bound then some (Int64.ofInt i) else none

theorem toInt_of_ofInt? {i : Int} {n : Int64} (h : ofInt? i = some n) : n.toInt = i := by
  unfold ofInt? at h
  split at h
  next hi =>
    obtain rfl := Option.some.inj h
    exact Int64.toInt_ofInt_of_le hi.1 hi.2
  next => cases h

def write (n : Int64) : List Char := Digits.ofInt n.toInt

end Integer
end Changefeed
