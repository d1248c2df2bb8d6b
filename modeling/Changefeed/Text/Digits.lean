/-!
# Decimal numerals

The leading run of ASCII digits of a text, the number it denotes, and the numeral of a number.
Reading inverts writing (`toNat_ofNat`, `toNat_padded`).
-/

namespace Changefeed.Digits

def span (s : List Char) : List Char × List Char :=
  (s.takeWhile Char.isDigit, s.dropWhile Char.isDigit)

theorem span_append_eq (s : List Char) : (span s).1 ++ (span s).2 = s :=
  List.takeWhile_append_dropWhile

theorem isDigit_of_mem_span {s : List Char} {c : Char} (h : c ∈ (span s).1) : c.isDigit = true := by
  induction s with
  | nil => simp [span] at h
  | cons d s ih =>
    by_cases hd : d.isDigit <;> simp [span, hd] at h
    rcases h with rfl | h
    · exact hd
    · exact ih h

def spanUpTo (width : Nat) (s : List Char) : List Char × List Char :=
  let ds := (span s).1.take width
  (ds, s.drop ds.length)

/-- The number that a run of digits denotes; the empty run denotes zero. -/
def toNat (ds : List Char) : Nat := Nat.ofDigitChars 10 ds 0

def ofNat (n : Nat) : List Char := Nat.toDigits 10 n

theorem toNat_ofNat (n : Nat) : toNat (ofNat n) = n := Nat.ofDigitChars_ten_toDigits

theorem length_ofNat_pos (n : Nat) : 0 < (ofNat n).length := Nat.length_toDigits_pos

def padded (width n : Nat) : List Char :=
  List.replicate (width - (ofNat n).length) '0' ++ ofNat n

theorem toNat_padded (width n : Nat) : toNat (padded width n) = n := by
  simp [toNat, padded, ofNat, Nat.ofDigitChars_append, Nat.ofDigitChars_replicate_zero,
    Nat.ofDigitChars_ten_toDigits]

def ofInt (i : Int) : List Char :=
  if i < 0 then '-' :: ofNat i.natAbs else ofNat i.natAbs

end Changefeed.Digits
