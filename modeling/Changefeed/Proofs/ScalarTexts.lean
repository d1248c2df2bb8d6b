import Changefeed.Proofs.ArrayGrammar
import Changefeed.Proofs.Numerals
import Changefeed.Text.Hex

/-!
# Integers and bytes as text

The reader of integers accepts exactly the decimal numerals, with or without a sign, of the numbers
of 64 bits (`Integer.read_eq_ok_iff`). Bytes are written in small hexadecimal digits, from which
they are read back (`Hex.decode_encode`).
-/

namespace Changefeed

namespace Integer

def IsDecimal (ds : List Char) : Prop := ds ≠ [] ∧ ∀ c ∈ ds, c.isDigit = true

/-- An optional sign and a decimal numeral, which may have leading zeros. -/
inductive Denotes : List Char → Int → Prop
  | unsigned {ds : List Char} (h : IsDecimal ds) : Denotes ds (Digits.toNat ds)
  | plus {ds : List Char} (h : IsDecimal ds) : Denotes ('+' :: ds) (Digits.toNat ds)
  | minus {ds : List Char} (h : IsDecimal ds) : Denotes ('-' :: ds) (-(Digits.toNat ds))

theorem le_ofDigitChars (ds : List Char) (n : Nat) : n ≤ Nat.ofDigitChars 10 ds n := by
  induction ds generalizing n with
  | nil => exact Nat.le_refl n
  | cons c ds ih =>
    rw [Nat.ofDigitChars_cons]
    have hnext := ih (10 * n + (c.toNat - '0'.toNat))
    omega

theorem magnitude_of_le {limit : Nat} {overflow : IntegerFault} {ds : List Char} {n : Nat}
    (hds : ∀ c ∈ ds, c.isDigit = true) (hle : Nat.ofDigitChars 10 ds n ≤ limit) :
    magnitude limit overflow n ds = .ok (Nat.ofDigitChars 10 ds n) := by
  induction ds generalizing n with
  | nil => rfl
  | cons c ds ih =>
    obtain ⟨hc, hds⟩ := List.forall_mem_cons.1 hds
    rw [Nat.ofDigitChars_cons] at hle ⊢
    have hnext := Nat.le_trans (le_ofDigitChars ds (10 * n + (c.toNat - '0'.toNat))) hle
    rw [magnitude, if_pos hc, if_pos hnext, ih hds hle]

section Reading

variable {limit n : Nat} {overflow : IntegerFault} {s : List Char} {i : Int64}

theorem magnitude_sound {acc : Nat} (hacc : acc ≤ limit)
    (h : magnitude limit overflow acc s = .ok n) :
    (∀ c ∈ s, c.isDigit = true) ∧ Nat.ofDigitChars 10 s acc = n ∧ n ≤ limit := by
  induction s generalizing acc with
  | nil =>
    cases h
    exact ⟨by simp, rfl, hacc⟩
  | cons c s ih =>
    rw [magnitude] at h
    split at h
    next hc =>
      dsimp only at h
      split at h
      next hnext =>
        obtain ⟨hs, hvalue, hle⟩ := ih hnext h
        refine ⟨List.forall_mem_cons.2 ⟨hc, hs⟩, ?_, hle⟩
        rw [Nat.ofDigitChars_cons, hvalue]
      next => cases h
    next => cases h

theorem magnitude_eq_ok_iff :
    magnitude limit overflow 0 s = .ok n ↔
      (∀ c ∈ s, c.isDigit = true) ∧ Digits.toNat s = n ∧ n ≤ limit := by
  refine ⟨magnitude_sound (Nat.zero_le limit), ?_⟩
  rintro ⟨hs, rfl, hle⟩
  exact magnitude_of_le hs hle

theorem read_plus (h : s ≠ []) :
    read ('+' :: s) = (magnitude (bound - 1) .tooLarge 0 s).map fun n => Int64.ofInt n := by
  rw [read]
  simpa using h

theorem read_minus (h : s ≠ []) :
    read ('-' :: s) = (magnitude bound .tooSmall 0 s).map fun n => Int64.ofInt (-n) := by
  rw [read]
  simpa using h

theorem read_unsigned {c : Char} {ds : List Char} (hplus : c ≠ '+') (hminus : c ≠ '-') :
    read (c :: ds) =
      (magnitude (bound - 1) .tooLarge 0 (c :: ds)).map fun n => Int64.ofInt n := by
  rw [read]
  all_goals simp [hplus, hminus]

theorem IsDecimal.read_eq (h : IsDecimal s) :
    read s = (magnitude (bound - 1) .tooLarge 0 s).map fun n => Int64.ofInt n := by
  obtain ⟨hne, hdigits⟩ := h
  cases s with
  | nil => exact absurd rfl hne
  | cons c s =>
    have hc := hdigits c List.mem_cons_self
    apply read_unsigned
    · rintro rfl
      exact absurd hc (by decide)
    · rintro rfl
      exact absurd hc (by decide)

/-- Here `f` puts the sign, and the limit is the largest number for which it stays in 64 bits. -/
theorem map_magnitude_eq_ok_iff {f : Int → Int}
    (hlimit : ∀ n : Nat, n ≤ limit ↔ -bound ≤ f n ∧ f n < bound) :
    ((magnitude limit overflow 0 s >>= fun n => pure (n : Int)).map
        fun n => Int64.ofInt (f n)) = .ok i ↔
      (∀ c ∈ s, c.isDigit = true) ∧ f (Digits.toNat s) = i.toInt := by
  constructor
  · intro h
    obtain ⟨_, hbind, rfl⟩ := ArrayLiteral.map_eq_ok h
    obtain ⟨n, hn, hcast⟩ := bind_eq_ok hbind
    cases hcast
    obtain ⟨hs, rfl, hle⟩ := magnitude_eq_ok_iff.1 hn
    obtain ⟨hlow, hhigh⟩ := (hlimit _).1 hle
    exact ⟨hs, (Int64.toInt_ofInt_of_le hlow hhigh).symm⟩
  · rintro ⟨hs, hvalue⟩
    have hle : Digits.toNat s ≤ limit :=
      (hlimit _).2 ⟨hvalue ▸ Int64.le_toInt i, hvalue ▸ Int64.toInt_lt i⟩
    rw [magnitude_eq_ok_iff.2 ⟨hs, rfl, hle⟩, ← i.ofInt_toInt, ← hvalue]
    rfl

theorem map_magnitude_plus_iff :
    (magnitude (bound - 1) overflow 0 s).map (fun n => Int64.ofInt n) = .ok i ↔
      (∀ c ∈ s, c.isDigit = true) ∧ (Digits.toNat s : Int) = i.toInt := by
  refine map_magnitude_eq_ok_iff ?_
  intro n
  rw [bound]
  omega

theorem map_magnitude_minus_iff :
    (magnitude bound overflow 0 s).map (fun n => Int64.ofInt (-n)) = .ok i ↔
      (∀ c ∈ s, c.isDigit = true) ∧ -(Digits.toNat s : Int) = i.toInt := by
  refine map_magnitude_eq_ok_iff ?_
  intro n
  rw [bound]
  omega

theorem denotes_of_read (h : read s = .ok i) : Denotes s i.toInt := by
  unfold read at h
  split at h
  next => cases h
  next => cases h
  next => cases h
  next ds hne =>
    obtain ⟨hds, hvalue⟩ := map_magnitude_minus_iff.1 h
    rw [← hvalue]
    exact .minus ⟨hne, hds⟩
  next ds hne =>
    obtain ⟨hds, hvalue⟩ := map_magnitude_plus_iff.1 h
    rw [← hvalue]
    exact .plus ⟨hne, hds⟩
  next hne _ _ _ _ =>
    obtain ⟨hds, hvalue⟩ := map_magnitude_plus_iff.1 h
    rw [← hvalue]
    exact .unsigned ⟨hne, hds⟩

theorem read_eq_ok_iff : read s = .ok i ↔ Denotes s i.toInt := by
  refine ⟨denotes_of_read, ?_⟩
  intro h
  generalize hn : i.toInt = n at h
  cases h with
  | unsigned h =>
    rw [h.read_eq]
    exact map_magnitude_plus_iff.2 ⟨h.2, hn.symm⟩
  | plus h =>
    rw [read_plus h.1]
    exact map_magnitude_plus_iff.2 ⟨h.2, hn.symm⟩
  | minus h =>
    rw [read_minus h.1]
    exact map_magnitude_minus_iff.2 ⟨h.2, hn.symm⟩

end Reading

theorem isDecimal_ofNat (n : Nat) : IsDecimal (Digits.ofNat n) :=
  ⟨Digits.ofNat_ne_nil n, fun _ => Digits.isDigit_of_mem_ofNat⟩

theorem denotes_write (i : Int64) : Denotes (write i) i.toInt := by
  have hdecimal := isDecimal_ofNat i.toInt.natAbs
  rw [write, Digits.ofInt]
  by_cases hneg : i.toInt < 0
  · have hvalue : -(Digits.toNat (Digits.ofNat i.toInt.natAbs) : Int) = i.toInt := by
      rw [Digits.toNat_ofNat]
      omega
    have hminus := Denotes.minus hdecimal
    rw [hvalue] at hminus
    rwa [if_pos hneg]
  · have hvalue : (Digits.toNat (Digits.ofNat i.toInt.natAbs) : Int) = i.toInt := by
      rw [Digits.toNat_ofNat]
      omega
    have hunsigned := Denotes.unsigned hdecimal
    rw [hvalue] at hunsigned
    rwa [if_neg hneg]

end Integer

namespace Hex

def digits : List Char := "0123456789abcdef".toList

theorem digit_spec {n : Nat} (h : n < 16) :
    digit n ∈ digits ∧ (digit n).utf8Size = 1 ∧ codeValue? (digit n).toUInt8 = some n := by
  revert n
  decide

theorem exists_of_mem_encode {bytes : List UInt8} {c : Char} (h : c ∈ encode bytes) :
    ∃ n < 16, c = digit n := by
  obtain ⟨b, -, hc⟩ := List.mem_flatMap.1 h
  have hb := b.toNat_lt
  rcases List.mem_cons.1 hc with rfl | hc
  · exact ⟨b.toNat / 16, by omega, rfl⟩
  · exact ⟨b.toNat % 16, by omega, List.mem_singleton.1 hc⟩

theorem mem_digits_of_mem_encode {bytes : List UInt8} {c : Char} (h : c ∈ encode bytes) :
    c ∈ digits := by
  obtain ⟨n, hn, rfl⟩ := exists_of_mem_encode h
  exact (digit_spec hn).1

theorem length_encode (bytes : List UInt8) : (encode bytes).length = 2 * bytes.length := by
  induction bytes with
  | nil => rfl
  | cons b bytes ih =>
    rw [encode, List.flatMap_cons, List.length_append, List.length_cons]
    rw [encode] at ih
    rw [ih]
    simp only [ofByte, List.length_cons, List.length_nil]
    omega

theorem decodePairs_encode (position : Nat) (bytes : List UInt8) :
    decodePairs position ((encode bytes).map Char.toUInt8) = .ok bytes := by
  induction bytes generalizing position with
  | nil => rfl
  | cons b bytes ih =>
    have hb := b.toNat_lt
    have hhigh := (digit_spec (n := b.toNat / 16) (by omega)).2.2
    have hlow := (digit_spec (n := b.toNat % 16) (by omega)).2.2
    have hbyte : 16 * (b.toNat / 16) + b.toNat % 16 = b.toNat := by omega
    have hcons : (encode (b :: bytes)).map Char.toUInt8 =
        (digit (b.toNat / 16)).toUInt8 :: (digit (b.toNat % 16)).toUInt8 ::
          (encode bytes).map Char.toUInt8 := rfl
    rw [hcons, decodePairs, hhigh, hlow]
    dsimp only
    rw [ih, hbyte, UInt8.ofNat_toNat]
    rfl

end Hex

theorem toList_loop_eq (bytes : ByteArray) (i : Nat) (read : List UInt8) :
    ByteArray.toList.loop bytes i read = read.reverse ++ bytes.data.toList.drop i := by
  fun_induction ByteArray.toList.loop bytes i read with
  | case1 i read h ih =>
    have hlt : i < bytes.data.toList.length := by simpa using h
    rw [ih, List.drop_eq_getElem_cons hlt]
    simp [ByteArray.get!, h]
  | case2 i read h =>
    rw [List.drop_eq_nil_of_le (by simpa using Nat.le_of_not_lt h), List.append_nil]

theorem toList_toByteArray (bytes : List UInt8) : bytes.toByteArray.toList = bytes := by
  rw [ByteArray.toList, toList_loop_eq, List.data_toByteArray]
  rfl

theorem toList_toUTF8 {s : List Char} (h : ∀ c ∈ s, c.utf8Size = 1) :
    (String.ofList s).toUTF8.toList = s.map Char.toUInt8 := by
  have hbytes : (String.ofList s).toUTF8 = (s.map Char.toUInt8).toByteArray := by
    rw [List.map_eq_flatMap]
    refine congrArg List.toByteArray (List.flatMap_congr fun c hc => ?_)
    rw [String.utf8EncodeChar_eq_singleton (h c hc)]
    rfl
  rw [hbytes, toList_toByteArray]

theorem Hex.decode_encode (bytes : List UInt8) :
    decode (String.ofList (encode bytes)) = .ok bytes := by
  have hsize : ∀ c ∈ encode bytes, c.utf8Size = 1 := by
    intro c hc
    obtain ⟨n, hn, rfl⟩ := exists_of_mem_encode hc
    exact (digit_spec hn).2.1
  rw [decode, toList_toUTF8 hsize, List.length_map, length_encode, if_neg (by omega),
    decodePairs_encode]

end Changefeed
