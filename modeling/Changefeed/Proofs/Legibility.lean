import Changefeed.Proofs.Rounding

/-!
# Numbers that survive their text

The digits of a short literal are a double, and the power of ten that they are multiplied with or
divided by is one too, so there is only one rounding (`scaleRank_eq`). It gives the double that is
nearest to the literal (`ofLiteral_of_isShort`), and a double whose shortest decimal is short is
legible (`isLegible_of_isShort`). A longer one may be read as a neighbour.
-/

namespace Changefeed

namespace Double

theorem roundHalfEven_mul_right (n d : Nat) {k : Nat} (hk : 0 < k) :
    roundHalfEven (n * k) (d * k) = roundHalfEven n d := by
  have hmul : 2 * (n % d * k) = 2 * (n % d) * k := (Nat.mul_assoc ..).symm
  simp only [roundHalfEven, Nat.mul_div_mul_right _ _ hk, Nat.mul_mod_mul_right, hmul,
    Nat.mul_lt_mul_right hk]

theorem roundHalfEven_congr {n d n' d' : Nat} (hd : 0 < d) (hd' : 0 < d')
    (h : n * d' = n' * d) : roundHalfEven n d = roundHalfEven n' d' := by
  calc roundHalfEven n d = roundHalfEven (n * d') (d * d') :=
        (roundHalfEven_mul_right n d hd').symm
    _ = roundHalfEven (n' * d) (d' * d) := by rw [h, Nat.mul_comm d d']
    _ = roundHalfEven n' d' := roundHalfEven_mul_right n' d' hd

theorem floorLog2_congr {n d n' d' : Nat} (hn : 0 < n) (hd : 0 < d) (hn' : 0 < n') (hd' : 0 < d')
    (h : (n : ℚ) / d = n' / d') : floorLog2 n d = floorLog2 n' d' := by
  obtain ⟨hbelow, habove⟩ := le_floorLog2 hn' hd'
  rw [← h] at hbelow habove
  exact floorLog2_eq hn hd hbelow habove

theorem roundRatio_congr {n d n' d' : Nat} (hn : 0 < n) (hd : 0 < d) (hn' : 0 < n') (hd' : 0 < d')
    (h : (n : ℚ) / d = n' / d') : roundRatio n d = roundRatio n' d' := by
  have hcross : n * d' = n' * d := by
    have hd₀ : (d : ℚ) ≠ 0 := by exact_mod_cast hd.ne'
    have hd₀' : (d' : ℚ) ≠ 0 := by exact_mod_cast hd'.ne'
    exact_mod_cast (div_eq_div_iff hd₀ hd₀').1 h
  have hpos (e : Int) := powPart_pos two_pos e
  simp only [roundRatio, floorLog2_congr hn hd hn' hd' h]
  congr 1
  refine roundHalfEven_congr (Nat.mul_pos hd (hpos _)) (Nat.mul_pos hd' (hpos _)) ?_
  rw [Nat.mul_mul_mul_comm, hcross, Nat.mul_mul_mul_comm]

theorem ratio_snd_pos (rank : Nat) : 0 < (ratio rank).2 := powPart_pos two_pos _

theorem ratio_fst_pos {rank : Nat} (h : 0 < rank) : 0 < (ratio rank).1 :=
  Nat.mul_pos (significand_pos h) (powPart_pos two_pos _)

theorem ratio_fst_div_snd (rank : Nat) :
    ((ratio rank).1 : ℚ) / (ratio rank).2 = magnitude rank := by
  have hpow := powPart_div_powPart 2 (scale rank)
  simp only [ratio, magnitude]
  push_cast at hpow ⊢
  rw [mul_div_assoc, hpow]

theorem parts_add_mul {f e : Nat} (hf : f < fractions) (he : 0 < e) :
    significand (f + e * fractions) = fractions + f ∧
      scale (f + e * fractions) = (e : Int) - 1075 := by
  have hsmall : ¬ f + e * fractions < fractions := by
    have := Nat.le_mul_of_pos_left fractions he
    omega
  have hmod : (f + e * fractions) % fractions = f := by
    rw [Nat.add_mul_mod_self_right, Nat.mod_eq_of_lt hf]
  have hdiv : (f + e * fractions) / fractions = e := by
    rw [Nat.add_mul_div_right _ _ (by decide), Nat.div_eq_of_lt hf, Nat.zero_add]
  rw [significand, scale, if_neg hsmall, if_neg hsmall, hmod, hdiv]
  exact ⟨rfl, rfl⟩

/-- A number of 53 bits, moved to the left until it has them all. -/
theorem shifted_bounds {n : Nat} (hn : 0 < n) (hlog : n.log2 ≤ 52) :
    fractions ≤ n * 2 ^ (52 - n.log2) ∧ n * 2 ^ (52 - n.log2) < fractions + fractions := by
  constructor
  · calc fractions = 2 ^ n.log2 * 2 ^ (52 - n.log2) := by
          rw [← Nat.pow_add, Nat.add_sub_cancel' hlog]
      _ ≤ n * 2 ^ (52 - n.log2) := Nat.mul_le_mul_right _ (Nat.log2_self_le hn.ne')
  · calc n * 2 ^ (52 - n.log2) < 2 ^ (n.log2 + 1) * 2 ^ (52 - n.log2) :=
          Nat.mul_lt_mul_of_pos_right Nat.lt_log2_self (Nat.two_pow_pos _)
      _ = 2 ^ 53 := by rw [← Nat.pow_add, Nat.add_right_comm, Nat.add_sub_cancel' hlog]
      _ = fractions + fractions := rfl

theorem exists_magnitude_eq {n : Nat} (hn : 0 < n) (h : n < 2 ^ 53) :
    ∃ rank, magnitude rank = n := by
  have hlog : n.log2 ≤ 52 := Nat.lt_succ_iff.1 ((Nat.log2_lt hn.ne').2 h)
  obtain ⟨hge, hlt⟩ := shifted_bounds hn hlog
  let f := n * 2 ^ (52 - n.log2) - fractions
  have hf : f < fractions := by omega
  obtain ⟨hsignificand, hscale⟩ := parts_add_mul hf (Nat.succ_pos (n.log2 + 1022))
  have hexp : ((n.log2 + 1023 : Nat) : Int) - 1075 = -((52 - n.log2 : Nat) : Int) := by omega
  refine ⟨f + (n.log2 + 1023) * fractions, ?_⟩
  rw [magnitude, hsignificand, hscale, hexp, Nat.add_sub_cancel' hge, zpow_neg, zpow_natCast]
  push_cast
  exact mul_inv_cancel_right₀ (by positivity) _

theorem pos_of_magnitude {rank : Nat} (h : 0 < magnitude rank) : 0 < rank := by
  refine Nat.pos_of_ne_zero ?_
  rintro rfl
  simp [magnitude, significand] at h

theorem magnitude_rankOf {n : Nat} (h : n < 2 ^ 53) : magnitude (rankOf n 1) = n := by
  rcases Nat.eq_zero_or_pos n with rfl | hn
  · simp [rankOf, magnitude, significand]
  · obtain ⟨rank, hrank⟩ := exists_magnitude_eq hn h
    have hpos : 0 < rank := pos_of_magnitude (by rw [hrank]; exact_mod_cast hn)
    rw [rankOf, if_neg hn.ne', roundRatio_of_magnitude Nat.one_pos hpos (by simp [hrank]), hrank]

/-- The powers of ten up to this one are doubles, since those of five have 53 bits. -/
theorem magnitude_tenRank {k : Nat} (hk : k ≤ 22) : magnitude (tenRank k) = 10 ^ k := by
  have hexact : ∀ k ≤ 22, (ratio (tenRank k)).1 = 10 ^ k * (ratio (tenRank k)).2 := by
    decide +kernel
  rw [← ratio_fst_div_snd, hexact k hk, Nat.cast_mul, Nat.cast_pow]
  exact mul_div_cancel_right₀ _ (by exact_mod_cast (ratio_snd_pos _).ne')

theorem rankOf_pos {n : Nat} (hn : 0 < n) (h : n < 2 ^ 53) : 0 < rankOf n 1 :=
  pos_of_magnitude (by rw [magnitude_rankOf h]; exact_mod_cast hn)

theorem tenRank_pos {k : Nat} (hk : k ≤ 22) : 0 < tenRank k :=
  pos_of_magnitude (by rw [magnitude_tenRank hk]; positivity)

/-- A number times a small power of ten is rounded once. -/
theorem scaleRank_eq {r : Nat} (hr : 0 < r) {e : Int} (hle : e ≤ 22) (hge : -22 ≤ e) :
    ∃ n d : Nat, 0 < n ∧ 0 < d ∧ (n : ℚ) / d = magnitude r * 10 ^ e ∧
      scaleRank r e = roundRatio n d := by
  have hlarge : ¬ 308 < e := by omega
  by_cases hpos : 0 ≤ e
  · obtain ⟨k, rfl⟩ := Int.eq_ofNat_of_zero_le hpos
    have hk : k ≤ 22 := by omega
    have hn := Nat.mul_pos (ratio_fst_pos hr) (ratio_fst_pos (tenRank_pos hk))
    refine ⟨_, _, hn, Nat.mul_pos (ratio_snd_pos r) (ratio_snd_pos (tenRank k)), ?_, ?_⟩
    · rw [Nat.cast_mul, Nat.cast_mul, mul_div_mul_comm, ratio_fst_div_snd, ratio_fst_div_snd,
        magnitude_tenRank hk, zpow_natCast]
    · rw [scaleRank, if_neg hr.ne', if_neg hlarge, if_pos hpos, Int.toNat_natCast, mulRank, rankOf,
        if_neg hn.ne']
  · obtain ⟨k, rfl⟩ : ∃ k : Nat, e = -(k + 1 : Nat) := ⟨(-e).toNat - 1, by omega⟩
    have hk : k + 1 ≤ 22 := by omega
    have hn := Nat.mul_pos (ratio_fst_pos hr) (ratio_snd_pos (tenRank (k + 1)))
    refine ⟨_, _, hn, Nat.mul_pos (ratio_snd_pos r) (ratio_fst_pos (tenRank_pos hk)), ?_, ?_⟩
    · have hten := magnitude_tenRank hk
      rw [← ratio_fst_div_snd] at hten
      rw [Nat.cast_mul, Nat.cast_mul, mul_div_mul_comm, ratio_fst_div_snd, zpow_neg, zpow_natCast,
        ← hten, inv_div]
    · have hnat : (-(-((k + 1 : Nat) : Int))).toNat - 1 = k := by omega
      have hblocks : k / 308 = 0 := Nat.div_eq_of_lt (by omega)
      have hrest : k % 308 = k := Nat.mod_eq_of_lt (by omega)
      simp only [scaleRank, if_neg hr.ne', if_neg hlarge, if_neg hpos, hnat, hblocks, hrest, shrink,
        divRank, rankOf, if_neg hn.ne']

theorem le_ofDigitChars (s : List Char) (n : Nat) : n ≤ Nat.ofDigitChars 10 s n := by
  induction s generalizing n with
  | nil => exact Nat.le_refl n
  | cons c s ih =>
    rw [Nat.ofDigitChars_cons]
    have := ih (10 * n + (c.toNat - '0'.toNat))
    omega

theorem takeDigits_eq {s : List Char} {n : Nat}
    (h : Nat.ofDigitChars 10 s n < 18446744073709551616) :
    takeDigits n s = (Nat.ofDigitChars 10 s n, 0) := by
  induction s generalizing n with
  | nil => rfl
  | cons c s ih =>
    rw [Nat.ofDigitChars_cons] at h ⊢
    have hfirst := (le_ofDigitChars s (10 * n + (c.toNat - '0'.toNat))).trans_lt h
    simp only [takeDigits, if_pos hfirst]
    exact ih h

theorem ofLiteral_eq (negative : Bool) {whole fraction : List Char}
    (h : Digits.toNat (whole ++ fraction) < 18446744073709551616) (e : Int) :
    ofLiteral negative whole fraction e = ofRank negative
      (scaleRank (rankOf (Digits.toNat (whole ++ fraction)) 1) (e - fraction.length)) := by
  have happend : Digits.toNat (whole ++ fraction) =
      Nat.ofDigitChars 10 fraction (Digits.toNat whole) := Nat.ofDigitChars_append ..
  rw [happend] at h ⊢
  have hwhole : takeDigits 0 whole = (Digits.toNat whole, 0) :=
    takeDigits_eq ((le_ofDigitChars fraction _).trans_lt h)
  have hexp : ((0 : Nat) : Int) - (fraction.length - (0 : Nat)) + e = e - fraction.length := by
    omega
  simp only [ofLiteral, hwhole, takeDigits_eq h, hexp]

end Double

/-- The digits and the power of ten of a decimal are doubles, also if its zeros are written out. -/
structure Decimal.IsShort (d : Decimal) : Prop where
  digits : d.coefficient * 10 ^ (d.exponent.toNat + 1) < 2 ^ 53
  exponent : -22 ≤ d.exponent

instance (d : Decimal) : Decidable d.IsShort :=
  decidable_of_iff (d.coefficient * 10 ^ (d.exponent.toNat + 1) < 2 ^ 53 ∧ -22 ≤ d.exponent)
    ⟨fun h => ⟨h.1, h.2⟩, fun h => ⟨h.1, h.2⟩⟩

namespace Double

variable {d : Decimal}

theorem exponent_le_of_isShort (hd : d.IsShort) (hc : d.coefficient ≠ 0) : d.exponent ≤ 22 := by
  by_contra hlarge
  have hpow : 10 ^ 23 ≤ d.coefficient * 10 ^ (d.exponent.toNat + 1) :=
    calc 10 ^ 23 ≤ 10 ^ (d.exponent.toNat + 1) := Nat.pow_le_pow_right (by decide) (by omega)
      _ ≤ d.coefficient * 10 ^ (d.exponent.toNat + 1) := Nat.le_mul_of_pos_left _ (by omega)
  exact absurd (hpow.trans_lt hd.digits) (by decide)

theorem places_of_isShort (hd : d.IsShort) (hc : d.coefficient ≠ 0) :
    -330 ≤ d.places ∧ d.places ≤ 310 := by
  have hdigits : d.coefficient < 10 ^ 16 := by
    have hle := Nat.le_mul_of_pos_right d.coefficient
      (Nat.pow_pos (n := d.exponent.toNat + 1) (by decide : 0 < 10))
    exact (hle.trans_lt hd.digits).trans (by decide)
  have hlength := (Digits.length_ofNat_le_iff (by decide)).2 hdigits
  have hexp := exponent_le_of_isShort hd hc
  have hlow := hd.exponent
  unfold Decimal.places
  omega

theorem ofLiteral_of_isShort (hd : d.IsShort) {text whole fraction : List Char} {e : Int} {k : Nat}
    (h : Json.Spells d text whole fraction e k) :
    ofLiteral d.negative whole fraction e = ofDecimal d := by
  have hk : k ≤ d.exponent.toNat + 1 := by
    have := h.zeros
    omega
  have hlt : d.coefficient * 10 ^ k < 2 ^ 53 :=
    (Nat.mul_le_mul_left _ (Nat.pow_le_pow_right (by decide) hk)).trans_lt hd.digits
  rw [ofLiteral_eq, h.value, h.point]
  · by_cases hc : d.coefficient = 0
    · simp [hc, rankOf, scaleRank, ofDecimal, ofRank, zero]
    have hpos : 0 < d.coefficient * 10 ^ k :=
      Nat.mul_pos (Nat.pos_of_ne_zero hc) (Nat.pow_pos (by decide))
    have hexp := exponent_le_of_isShort hd hc
    have hlow := hd.exponent
    have hzeros := h.zeros
    obtain ⟨n, m, hn, hm, hquotient, hscale⟩ :=
      scaleRank_eq (rankOf_pos hpos hlt) (e := d.exponent - k) (by omega) (by omega)
    have hmagnitude : (n : ℚ) / m = d.magnitude := by
      rw [hquotient, magnitude_rankOf hlt, zpow_sub₀ (by norm_num), zpow_natCast, Decimal.magnitude]
      push_cast
      field_simp
    have hratio : 0 < d.ratio.1 :=
      Nat.mul_pos (Nat.pos_of_ne_zero hc) (powPart_pos (by decide) _)
    obtain ⟨hbelow, habove⟩ := places_of_isShort hd hc
    rw [ofDecimal, if_neg hc, if_neg (not_lt.2 habove), if_neg (not_lt.2 hbelow), hscale]
    rw [roundRatio_congr hn hm hratio (powPart_pos (by decide) _)
      (hmagnitude.trans (Decimal.ratio_fst_div_snd d).symm)]
    rfl
  · rw [h.value]
    exact hlt.trans (by decide)

/-- A literal of seventeen digits may be read as a neighbour of the nearest double. -/
example : ofLiteral false ['3', '1'] "245270191439438".toList 0 ≠
    ofDecimal ⟨false, 31245270191439438, -15⟩ := by
  decide +kernel

theorem isLegible_of_isShort {negative : Bool} {rank : Fin ranks}
    (h : (shortest Json.numberStyle.tie negative rank).IsShort) :
    (finite negative rank).IsLegible := by
  have hstyle : Json.numberStyle.wholeFraction = true := rfl
  obtain ⟨whole, fraction, e, k, hspells⟩ :=
    Json.exists_spells_layOut (isNormal_shortest Json.numberStyle.tie negative rank) hstyle
  have hread := hspells.read [] Json.endsNumber_nil
  rw [List.append_nil, ofLiteral_of_isShort h hspells, ofDecimal_shortest] at hread
  exact hread

theorem isLegible_zero (negative : Bool) : (zero negative).IsLegible := by
  cases negative <;> exact isLegible_of_isShort (by decide)

end Double
end Changefeed
