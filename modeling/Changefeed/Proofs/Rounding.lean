import Changefeed.Double.Shortest
import Changefeed.Proofs.Numerals
import Mathlib.Algebra.Order.Field.Power
import Mathlib.Algebra.Order.Field.Rat
import Mathlib.Tactic.FieldSimp
import Mathlib.Tactic.Linarith
import Mathlib.Tactic.NormNum
import Mathlib.Tactic.Positivity
import Mathlib.Tactic.Ring

/-!
# Rounding keeps what can be represented

The size of a decimal and the size of the double with a rank are rational numbers (`magnitude`). A
decimal of the same size as a finite double is rounded to that double, however it is written
(`ofDecimal_of_magnitude`). So the shortest decimal of a double reads back: it was either tried or
is exact (`ofDecimal_shortest`).
-/

namespace Changefeed

namespace Double

theorem powPart_pos {b : Nat} (hb : 0 < b) (e : Int) : 0 < powPart b e := Nat.pow_pos hb

theorem powPart_div_powPart (b : Nat) (e : Int) :
    (powPart b e : ℚ) / powPart b (-e) = (b : ℚ) ^ e := by
  obtain ⟨n, rfl | rfl⟩ := e.eq_nat_or_neg
  · simp [powPart]
  · simp [powPart]

theorem mul_powPart_lt_iff {b : Nat} (hb : 0 < b) (n : Nat) {d : Nat} (hd : 0 < d) (e : Int) :
    n * powPart b (-e) < d * powPart b e ↔ (n : ℚ) / d < (b : ℚ) ^ e := by
  have hpos : (0 : ℚ) < powPart b (-e) := by exact_mod_cast powPart_pos hb (-e)
  have hd' : (0 : ℚ) < d := by exact_mod_cast hd
  rw [← powPart_div_powPart b, div_lt_div_iff₀ hd' hpos, mul_comm (powPart b e : ℚ)]
  exact_mod_cast Iff.rfl

/-- The bits of a ratio are those of its parts, up to one. -/
theorem log2_sub_log2 {n d : Nat} (hn : 0 < n) (hd : 0 < d) :
    (2 : ℚ) ^ ((n.log2 : Int) - d.log2 - 1) ≤ n / d ∧
      (n : ℚ) / d < 2 ^ ((n.log2 : Int) - d.log2 + 1) := by
  have hn' : (2 : ℚ) ^ (n.log2 : Int) ≤ n ∧ (n : ℚ) < 2 ^ ((n.log2 : Int) + 1) :=
    ⟨by exact_mod_cast Nat.log2_self_le hn.ne', by exact_mod_cast Nat.lt_log2_self⟩
  have hd' : (2 : ℚ) ^ (d.log2 : Int) ≤ d ∧ (d : ℚ) < 2 ^ ((d.log2 : Int) + 1) :=
    ⟨by exact_mod_cast Nat.log2_self_le hd.ne', by exact_mod_cast Nat.lt_log2_self⟩
  have hpos : (0 : ℚ) < d := by exact_mod_cast hd
  constructor
  · rw [le_div_iff₀ hpos]
    calc (2 : ℚ) ^ ((n.log2 : Int) - d.log2 - 1) * d
        ≤ 2 ^ ((n.log2 : Int) - d.log2 - 1) * 2 ^ ((d.log2 : Int) + 1) :=
          mul_le_mul_of_nonneg_left hd'.2.le (by positivity)
      _ = 2 ^ (n.log2 : Int) := by
          rw [← zpow_add₀ two_ne_zero]
          congr 1
          omega
      _ ≤ n := hn'.1
  · rw [div_lt_iff₀ hpos]
    calc (n : ℚ) < 2 ^ ((n.log2 : Int) + 1) := hn'.2
      _ = 2 ^ ((n.log2 : Int) - d.log2 + 1) * 2 ^ (d.log2 : Int) := by
          rw [← zpow_add₀ two_ne_zero]
          congr 1
          omega
      _ ≤ 2 ^ ((n.log2 : Int) - d.log2 + 1) * d :=
          mul_le_mul_of_nonneg_left hd'.1 (by positivity)

theorem le_floorLog2 {n d : Nat} (hn : 0 < n) (hd : 0 < d) :
    (2 : ℚ) ^ floorLog2 n d ≤ n / d ∧ (n : ℚ) / d < 2 ^ (floorLog2 n d + 1) := by
  let l : Int := n.log2 - d.log2
  obtain ⟨hbelow, habove⟩ : (2 : ℚ) ^ (l - 1) ≤ n / d ∧ (n : ℚ) / d < 2 ^ (l + 1) :=
    log2_sub_log2 hn hd
  have hlog : floorLog2 n d = if n * powPart 2 (-l) < d * powPart 2 l then l - 1 else l := rfl
  rw [hlog]
  split
  next hlt =>
    rw [mul_powPart_lt_iff two_pos n hd] at hlt
    exact ⟨hbelow, by simpa using hlt⟩
  next hge =>
    rw [mul_powPart_lt_iff two_pos n hd] at hge
    exact ⟨by simpa using hge, habove⟩

theorem floorLog2_eq {n d : Nat} (hn : 0 < n) (hd : 0 < d) {l : Int}
    (hbelow : (2 : ℚ) ^ l ≤ n / d) (habove : (n : ℚ) / d < 2 ^ (l + 1)) : floorLog2 n d = l := by
  obtain ⟨hbelow', habove'⟩ := le_floorLog2 hn hd
  have h₁ : l < floorLog2 n d + 1 :=
    (zpow_lt_zpow_iff_right₀ one_lt_two).1 (hbelow.trans_lt habove')
  have h₂ : floorLog2 n d < l + 1 :=
    (zpow_lt_zpow_iff_right₀ one_lt_two).1 (hbelow'.trans_lt habove)
  omega

theorem roundHalfEven_mul (m : Nat) {d : Nat} (hd : 0 < d) : roundHalfEven (m * d) d = m := by
  simp [roundHalfEven, Nat.mul_div_cancel m hd, hd]

def magnitude (rank : Nat) : ℚ := significand rank * 2 ^ scale rank

theorem scale_ge (rank : Nat) : -1074 ≤ scale rank := by
  unfold scale
  split
  · exact le_rfl
  · have hdiv : 1 ≤ rank / fractions := Nat.div_pos (by omega) (by decide)
    omega

theorem significand_pos {rank : Nat} (h : 0 < rank) : 0 < significand rank := by
  unfold significand
  split
  · exact h
  · exact Nat.add_pos_left (by decide) _

theorem significand_lt (rank : Nat) : significand rank < 2 ^ 53 := by
  have hmod : rank % fractions < fractions := Nat.mod_lt _ (by decide)
  unfold significand
  split
  next hsmall => exact hsmall.trans (by decide)
  next => exact Nat.add_lt_add_left hmod _

theorem le_magnitude {rank : Nat} (h : 0 < rank) : (2 : ℚ) ^ (-1074 : Int) ≤ magnitude rank := by
  have hs : (1 : ℚ) ≤ significand rank := by exact_mod_cast significand_pos h
  calc (2 : ℚ) ^ (-1074 : Int) ≤ 2 ^ scale rank := zpow_le_zpow_right₀ one_le_two (scale_ge rank)
    _ = 1 * 2 ^ scale rank := (one_mul _).symm
    _ ≤ magnitude rank := mul_le_mul_of_nonneg_right hs (by positivity)

theorem magnitude_pos {rank : Nat} (h : 0 < rank) : 0 < magnitude rank := by
  have hmin : (0 : ℚ) < 2 ^ (-1074 : Int) := by positivity
  exact hmin.trans_le (le_magnitude h)

/-- The exponent that rounding chooses for a ratio of the size of a double is that of the double. -/
theorem max_floorLog2_eq_scale {n d rank : Nat} (hn : 0 < n) (hd : 0 < d)
    (h : (n : ℚ) / d = magnitude rank) : max (-1074) (floorLog2 n d - 52) = scale rank := by
  by_cases hsmall : rank < fractions
  · have hlt : magnitude rank < 2 ^ (-1022 : Int) := by
      have hrank : (rank : ℚ) < 2 ^ (52 : Nat) := by exact_mod_cast hsmall
      have hpos : (0 : ℚ) < 2 ^ (-1074 : Int) := by positivity
      calc magnitude rank = rank * 2 ^ (-1074 : Int) := by
            simp [magnitude, significand, scale, hsmall]
        _ < 2 ^ (52 : Nat) * 2 ^ (-1074 : Int) := mul_lt_mul_of_pos_right hrank hpos
        _ = 2 ^ (-1022 : Int) := by
            rw [← zpow_natCast, ← zpow_add₀ two_ne_zero]
            norm_num
    have hlog : floorLog2 n d < -1022 := by
      have hpow := (le_floorLog2 hn hd).1.trans_lt (h ▸ hlt)
      exact (zpow_lt_zpow_iff_right₀ one_lt_two).1 hpow
    simp only [scale, if_pos hsmall]
    omega
  · have hge : (2 : ℚ) ^ (52 : Nat) ≤ significand rank := by
      have hle : 2 ^ 52 ≤ significand rank := by
        rw [significand, if_neg hsmall]
        exact Nat.le_add_right _ _
      exact_mod_cast hle
    have hlt : (significand rank : ℚ) < 2 ^ (53 : Nat) := by exact_mod_cast significand_lt rank
    have hpos : (0 : ℚ) < 2 ^ scale rank := by positivity
    have hlog : floorLog2 n d = scale rank + 52 := by
      refine floorLog2_eq hn hd ?_ ?_
      · rw [h, magnitude, zpow_add₀ two_ne_zero, mul_comm]
        exact mul_le_mul_of_nonneg_right hge hpos.le
      · rw [h, magnitude, add_assoc, zpow_add₀ two_ne_zero, mul_comm]
        exact mul_lt_mul_of_pos_left hlt hpos
    rw [hlog]
    have hscale := scale_ge rank
    omega

theorem rank_eq (rank : Nat) :
    (scale rank + 1074).toNat * fractions + significand rank = rank := by
  unfold scale significand
  split
  · simp
  · have hdiv : 1 ≤ rank / fractions := Nat.div_pos (by omega) (by decide)
    have hpred : (((rank / fractions : Nat) : Int) - 1075 + 1074).toNat = rank / fractions - 1 := by
      omega
    calc _ = ((rank / fractions - 1) * fractions + fractions) + rank % fractions := by
          rw [hpred, Nat.add_assoc]
      _ = rank / fractions * fractions + rank % fractions := by
          rw [← Nat.succ_mul, Nat.succ_eq_add_one, Nat.sub_add_cancel hdiv]
      _ = rank := Nat.div_add_mod' rank fractions

theorem roundRatio_of_magnitude {n d rank : Nat} (hd : 0 < d) (hrank : 0 < rank)
    (h : (n : ℚ) / d = magnitude rank) : roundRatio n d = rank := by
  have hd' : (0 : ℚ) < d := by exact_mod_cast hd
  have hn : 0 < n := by
    have hpos : (0 : ℚ) < n := by
      have hratio : (0 : ℚ) < n / d := h ▸ magnitude_pos hrank
      exact (div_pos_iff_of_pos_right hd').1 hratio
    exact_mod_cast hpos
  have hscale := max_floorLog2_eq_scale hn hd h
  have hpos := powPart_pos (b := 2) two_pos (scale rank)
  have hexact : n * powPart 2 (-scale rank) =
      significand rank * (d * powPart 2 (scale rank)) := by
    have hneg : (powPart 2 (-scale rank) : ℚ) ≠ 0 := by
      exact_mod_cast (powPart_pos two_pos _).ne'
    rw [div_eq_iff hd'.ne', magnitude, ← Nat.cast_ofNat, ← powPart_div_powPart 2] at h
    field_simp at h
    have hcast : ((n * powPart 2 (-scale rank) : Nat) : ℚ) =
        (significand rank * (d * powPart 2 (scale rank)) : Nat) := by
      push_cast
      linarith
    exact_mod_cast hcast
  simp only [roundRatio, hscale, hexact]
  rw [roundHalfEven_mul _ (Nat.mul_pos hd hpos), rank_eq]

theorem magnitude_lt {rank : Nat} (h : rank < ranks) : magnitude rank < 2 ^ (1024 : Int) := by
  have hs : (significand rank : ℚ) < 2 ^ (53 : Int) := by exact_mod_cast significand_lt rank
  have hscale : scale rank ≤ 971 := by
    have hdiv : rank / fractions < 2047 := Nat.div_lt_of_lt_mul (by rwa [Nat.mul_comm])
    unfold scale
    split <;> omega
  have hpos : (0 : ℚ) < 2 ^ scale rank := by positivity
  calc magnitude rank < 2 ^ (53 : Int) * 2 ^ scale rank := mul_lt_mul_of_pos_right hs hpos
    _ ≤ 2 ^ (53 : Int) * 2 ^ (971 : Int) :=
        mul_le_mul_of_nonneg_left (zpow_le_zpow_right₀ one_le_two hscale) (by positivity)
    _ = 2 ^ (1024 : Int) := by rw [← zpow_add₀ two_ne_zero]; norm_num

end Double

namespace Decimal

open Double

def magnitude (d : Decimal) : ℚ := d.coefficient * 10 ^ d.exponent

theorem ratio_fst_div_snd (d : Decimal) : (d.ratio.1 : ℚ) / d.ratio.2 = d.magnitude := by
  have hpow := powPart_div_powPart 10 d.exponent
  simp only [ratio, magnitude]
  push_cast at hpow ⊢
  rw [mul_div_assoc, hpow]

theorem magnitude_lt_places (d : Decimal) : d.magnitude < 10 ^ d.places := by
  have hc : (d.coefficient : ℚ) < 10 ^ (Digits.ofNat d.coefficient).length := by
    exact_mod_cast (Digits.length_ofNat_le_iff (Digits.length_ofNat_pos _)).1 le_rfl
  have hpos : (0 : ℚ) < 10 ^ d.exponent := by positivity
  calc d.magnitude < 10 ^ (Digits.ofNat d.coefficient).length * 10 ^ d.exponent :=
        mul_lt_mul_of_pos_right hc hpos
    _ = 10 ^ d.places := by
        rw [places, zpow_add₀ (by norm_num), zpow_natCast]

theorem places_le_magnitude {d : Decimal} (h : d.coefficient ≠ 0) :
    (10 : ℚ) ^ (d.places - 1) ≤ d.magnitude := by
  have hlen := Digits.length_ofNat_pos d.coefficient
  have hc : 10 ^ ((Digits.ofNat d.coefficient).length - 1) ≤ d.coefficient := by
    by_contra hlt
    rcases Nat.eq_zero_or_pos ((Digits.ofNat d.coefficient).length - 1) with hone | hmore
    · simp [hone] at hlt
      exact h hlt
    · have := (Digits.length_ofNat_le_iff hmore).2 (Nat.not_le.1 hlt)
      omega
  have hc' : (10 : ℚ) ^ ((Digits.ofNat d.coefficient).length - 1) ≤ d.coefficient := by
    exact_mod_cast hc
  calc (10 : ℚ) ^ (d.places - 1)
      = 10 ^ ((Digits.ofNat d.coefficient).length - 1) * 10 ^ d.exponent := by
        rw [← zpow_natCast, ← zpow_add₀ (by norm_num), places]
        congr 1
        omega
    _ ≤ d.magnitude := mul_le_mul_of_nonneg_right hc' (by positivity)

theorem magnitude_dropZeros (n : Nat) (d : Decimal) : (dropZeros n d).magnitude = d.magnitude := by
  fun_induction dropZeros n d with
  | case1 => rfl
  | case2 n d hzero ih =>
    have hc : ((10 * (d.coefficient / 10) : Nat) : ℚ) = d.coefficient := by
      rw [Nat.mul_div_cancel' (Nat.dvd_of_mod_eq_zero hzero)]
    rw [ih, magnitude, magnitude, ← hc, zpow_add_one₀ (by norm_num)]
    push_cast
    ring
  | case3 => rfl

theorem magnitude_normal (d : Decimal) : d.normal.magnitude = d.magnitude := by
  unfold normal
  split
  next hzero => simp [magnitude, hzero]
  next => exact magnitude_dropZeros ..

theorem negative_dropZeros (n : Nat) (d : Decimal) : (dropZeros n d).negative = d.negative := by
  fun_induction dropZeros n d with
  | case1 => rfl
  | case2 n d hzero ih => exact ih
  | case3 => rfl

theorem negative_normal (d : Decimal) : d.normal.negative = d.negative := by
  unfold normal
  split
  next => rfl
  next => exact negative_dropZeros ..

end Decimal

namespace Double

theorem places_le_of_magnitude {d : Decimal} {rank : Nat} (hc : d.coefficient ≠ 0)
    (h : rank < ranks) (hmag : d.magnitude = magnitude rank) : d.places ≤ 310 := by
  have hnat : 2 ^ 1024 ≤ 10 ^ 310 := by decide +kernel
  have hbig : (2 : ℚ) ^ (1024 : Int) ≤ 10 ^ (310 : Int) := by exact_mod_cast hnat
  have hlt : (10 : ℚ) ^ (d.places - 1) < 10 ^ (310 : Int) :=
    (Decimal.places_le_magnitude hc).trans_lt (hmag ▸ (magnitude_lt h).trans_le hbig)
  have := (zpow_lt_zpow_iff_right₀ (by norm_num)).1 hlt
  omega

theorem le_places_of_magnitude {d : Decimal} {rank : Nat} (h : 0 < rank)
    (hmag : d.magnitude = magnitude rank) : -330 ≤ d.places := by
  have hnat : 2 ^ 1074 ≤ 10 ^ 330 := by decide +kernel
  have hsmall : (10 : ℚ) ^ (-330 : Int) ≤ 2 ^ (-1074 : Int) := by
    rw [zpow_neg, zpow_neg]
    exact inv_anti₀ (by positivity) (by exact_mod_cast hnat)
  have hlt : (10 : ℚ) ^ (-330 : Int) < 10 ^ d.places :=
    (hsmall.trans (le_magnitude h)).trans_lt (hmag ▸ d.magnitude_lt_places)
  exact ((zpow_lt_zpow_iff_right₀ (by norm_num)).1 hlt).le

theorem ofDecimal_of_magnitude {d : Decimal} {rank : Nat} (hpos : 0 < rank) (h : rank < ranks)
    (hmag : d.magnitude = magnitude rank) : ofDecimal d = .finite d.negative ⟨rank, h⟩ := by
  have hc : d.coefficient ≠ 0 := by
    intro hzero
    have hmpos := magnitude_pos hpos
    simp [← hmag, Decimal.magnitude, hzero] at hmpos
  have hden : 0 < d.ratio.2 := powPart_pos (by decide) _
  have hround := roundRatio_of_magnitude hden hpos ((Decimal.ratio_fst_div_snd d).trans hmag)
  rw [ofDecimal, if_neg hc, if_neg (not_lt.2 (places_le_of_magnitude hc h hmag)),
    if_neg (not_lt.2 (le_places_of_magnitude hpos hmag)), hround, ofRank, dif_pos h]

theorem magnitude_exactDecimal (negative : Bool) (rank : Nat) :
    (exactDecimal negative rank).magnitude = magnitude rank := by
  rw [exactDecimal, Decimal.magnitude_normal]
  obtain ⟨k, hk | hk⟩ := (scale rank).eq_nat_or_neg
  · simp [hk, Decimal.magnitude, magnitude, powPart]
  · rcases Nat.eq_zero_or_pos k with rfl | hpos
    · simp [hk, Decimal.magnitude, magnitude, powPart]
    · have hneg : ¬ 0 ≤ scale rank := by omega
      have hten : (10 : ℚ) = 2 * 5 := by norm_num
      rw [if_neg hneg, hk]
      simp [Decimal.magnitude, magnitude, powPart, hk, hten, mul_pow]
      field_simp

theorem negative_exactDecimal (negative : Bool) (rank : Nat) :
    (exactDecimal negative rank).negative = negative := by
  rw [exactDecimal, Decimal.negative_normal]
  split <;> rfl

theorem readsBack_of_onGrid? {tie : Tie} {negative : Bool} {rank : Nat} {grid : Int} {d : Decimal}
    (h : onGrid? tie negative rank grid = some d) : readsBack negative rank d = true := by
  simp only [onGrid?] at h
  split at h
  next => cases h
  next hbelow _ =>
    obtain rfl := Option.some.inj h
    exact hbelow
  next _ habove =>
    obtain rfl := Option.some.inj h
    exact habove
  next hbelow habove =>
    -- both neighbours read back, whichever of them is taken
    repeat' split at h
    all_goals
      obtain rfl := Option.some.inj h
      first | exact hbelow | exact habove

theorem readsBack_of_firstOnGrid? {tie : Tie} {negative : Bool} {rank n : Nat} {top : Int}
    {d : Decimal} (h : firstOnGrid? tie negative rank n top = some d) :
    readsBack negative rank d = true := by
  induction n generalizing top with
  | zero => cases h
  | succ n ih =>
    rcases Option.or_eq_some_iff.1 h with h | ⟨-, h⟩
    · exact readsBack_of_onGrid? h
    · exact ih h

theorem ofDecimal_shortest (tie : Tie) (negative : Bool) (rank : Fin ranks) :
    ofDecimal (shortest tie negative rank) = .finite negative rank := by
  unfold shortest
  split
  next hzero =>
    obtain rfl : rank = 0 := Fin.ext hzero
    rfl
  next hpos =>
    cases hgrid : firstOnGrid? tie negative rank 17 (floorLog10 (ratio rank).1 (ratio rank).2) with
    | some d =>
      have hback := readsBack_of_firstOnGrid? hgrid
      simpa [readsBack, ofRank] using hback
    | none =>
      have hexact := ofDecimal_of_magnitude (Nat.pos_of_ne_zero hpos) rank.isLt
        (magnitude_exactDecimal negative rank)
      simpa [negative_exactDecimal] using hexact

end Double
end Changefeed
