import Changefeed.Json.Printer
import Changefeed.Json.Reader
import Mathlib.Algebra.Group.Nat.Defs
import Mathlib.Data.List.Basic

/-!
# Number literals read back

A numeral is a run of digits without leading zeros. An integer is written as one; a decimal in
normal form is written in one of four layouts, depending on where its point falls. Each of them is
read as a literal with the digits of the decimal, whatever follows that does not continue a number
(`Json.exists_spells_layOut`). What is read of it need not be the same double (`Double.IsLegible`).
-/

namespace Changefeed

namespace Digits

def Stops (s : List Char) : Prop := ∀ c ∈ s.head?, c.isDigit = false

theorem stops_cons {c : Char} (hc : c.isDigit = false) (s : List Char) : Stops (c :: s) := by
  intro d hd
  obtain rfl : c = d := by simpa using hd
  exact hc

theorem span_append {ds s : List Char} (hds : ∀ c ∈ ds, c.isDigit = true) (hs : Stops s) :
    span (ds ++ s) = (ds, s) := by
  rw [span, List.takeWhile_append_of_pos hds, List.dropWhile_append_of_pos hds]
  cases s with
  | nil => simp
  | cons c s => simp [hs c rfl]

theorem isDigit_of_mem_ofNat {n : Nat} {c : Char} (h : c ∈ ofNat n) : c.isDigit = true :=
  Nat.isDigit_of_mem_toDigits (by decide) (by decide) h

theorem isDigit_of_mem_zeros {k : Nat} {c : Char} (h : c ∈ List.replicate k '0') :
    c.isDigit = true := by
  rw [List.eq_of_mem_replicate h]
  rfl

theorem ofNat_ne_nil (n : Nat) : ofNat n ≠ [] := Nat.toDigits_ne_nil

theorem ofNat_eq_zero {n : Nat} (h : ofNat n = ['0']) : n = 0 := by
  rw [← toNat_ofNat n, h]
  rfl

theorem length_ofNat_le_iff {n k : Nat} (hk : 0 < k) : (ofNat n).length ≤ k ↔ n < 10 ^ k :=
  Nat.length_toDigits_le_iff (by decide) hk

theorem lt_of_length_ofNat (n : Nat) : n < 10 ^ (ofNat n).length :=
  (length_ofNat_le_iff (length_ofNat_pos n)).1 (Nat.le_refl _)

theorem toNat_append_zeros (ds : List Char) (k : Nat) :
    toNat (ds ++ List.replicate k '0') = toNat ds * 10 ^ k := by
  rw [toNat, Nat.ofDigitChars_append, Nat.ofDigitChars_replicate_zero, Nat.mul_comm, toNat]

theorem toNat_zeros_append (k : Nat) (ds : List Char) :
    toNat (List.replicate k '0' ++ ds) = toNat ds := by
  rw [toNat, Nat.ofDigitChars_append, Nat.ofDigitChars_replicate_zero, Nat.mul_zero, toNat]

/-- Digits that start with a zero only if they are a single one. -/
structure IsNumeral (ds : List Char) : Prop where
  digits : ∀ c ∈ ds, c.isDigit = true
  nonempty : ds ≠ []
  leading : ds.head? = some '0' → ds = ['0']

theorem head?_ofNat {n : Nat} (h : (ofNat n).head? = some '0') : n = 0 := by
  induction n using Nat.strongRecOn with
  | ind n ih =>
    rcases Nat.lt_or_ge n 10 with hlt | hge
    · have hone : ofNat n = [Nat.digitChar n] := Nat.toDigits_of_lt_base hlt
      rw [hone, List.head?_cons, Option.some.injEq] at h
      exact ofNat_eq_zero (by rw [hone, h])
    · have hsplit : ofNat n = ofNat (n / 10) ++ [Nat.digitChar (n % 10)] :=
        Nat.toDigits_of_base_le (by decide) hge
      have hhead : (ofNat (n / 10)).head? = some '0' := by
        rwa [hsplit, List.head?_append_of_ne_nil _ (ofNat_ne_nil _)] at h
      have := ih (n / 10) (by omega) hhead
      omega

theorem isNumeral_ofNat (n : Nat) : IsNumeral (ofNat n) where
  digits _ := isDigit_of_mem_ofNat
  nonempty := ofNat_ne_nil n
  leading h := by rw [head?_ofNat h]; rfl

theorem isNumeral_zero : IsNumeral ['0'] := isNumeral_ofNat 0

theorem toNat_take_drop (n k : Nat) : toNat ((ofNat n).take k ++ (ofNat n).drop k) = n := by
  rw [List.take_append_drop, toNat_ofNat]

theorem IsNumeral.take {ds : List Char} (h : IsNumeral ds) {k : Nat} (hk : 0 < k) :
    IsNumeral (ds.take k) where
  digits c hc := h.digits c (List.mem_of_mem_take hc)
  nonempty := by
    rw [ne_eq, List.take_eq_nil_iff, not_or]
    exact ⟨Nat.ne_of_gt hk, h.nonempty⟩
  leading hhead := by
    rw [List.head?_take, if_neg (Nat.ne_of_gt hk)] at hhead
    rw [h.leading hhead, List.take_of_length_le hk]

theorem IsNumeral.append {ds es : List Char} (h : IsNumeral ds) (hds : ds ≠ ['0'])
    (hes : ∀ c ∈ es, c.isDigit = true) : IsNumeral (ds ++ es) where
  digits c hc := (List.mem_append.1 hc).elim (h.digits c) (hes c)
  nonempty := by simp [h.nonempty]
  leading hhead := by
    rw [List.head?_append_of_ne_nil _ h.nonempty] at hhead
    exact absurd (h.leading hhead) hds

end Digits

namespace Decimal

def IsNormal (d : Decimal) : Prop := d.coefficient % 10 ≠ 0 ∨ d.coefficient = 0 ∧ d.exponent = 0

theorem coefficient_dropZeros {n : Nat} {d : Decimal} (hpos : d.coefficient ≠ 0)
    (hlt : d.coefficient < 10 ^ n) : (dropZeros n d).coefficient % 10 ≠ 0 := by
  fun_induction dropZeros n d with
  | case1 => omega
  | case2 n d hzero ih =>
    refine ih ?_ ?_
    · show d.coefficient / 10 ≠ 0
      omega
    · show d.coefficient / 10 < 10 ^ n
      rw [Nat.pow_succ] at hlt
      omega
  | case3 n d hzero => exact hzero

theorem isNormal_normal (d : Decimal) : d.normal.IsNormal := by
  unfold normal
  split
  next => exact .inr ⟨rfl, rfl⟩
  next hpos => exact .inl (coefficient_dropZeros hpos (Digits.lt_of_length_ofNat _))

end Decimal

namespace Double

theorem isNormal_of_onGrid? {tie : Tie} {negative : Bool} {rank : Nat} {grid : Int} {d : Decimal}
    (h : onGrid? tie negative rank grid = some d) : d.IsNormal := by
  simp only [onGrid?] at h
  repeat' split at h
  all_goals
    cases h
    try exact Decimal.isNormal_normal _

theorem isNormal_of_firstOnGrid? {tie : Tie} {negative : Bool} {rank n : Nat} {top : Int}
    {d : Decimal} (h : firstOnGrid? tie negative rank n top = some d) : d.IsNormal := by
  induction n generalizing top with
  | zero => cases h
  | succ n ih =>
    rcases Option.or_eq_some_iff.1 h with h | ⟨-, h⟩
    · exact isNormal_of_onGrid? h
    · exact ih h

theorem isNormal_shortest (tie : Tie) (negative : Bool) (rank : Nat) :
    (shortest tie negative rank).IsNormal := by
  unfold shortest
  split
  next => exact .inr ⟨rfl, rfl⟩
  next =>
    cases hgrid : firstOnGrid? tie negative rank 17 (floorLog10 (ratio rank).1 (ratio rank).2) with
    | some d => exact isNormal_of_firstOnGrid? hgrid
    | none => exact Decimal.isNormal_normal _

def LacksExponent (s : List Char) : Prop := ∀ c ∈ s.head?, c ≠ 'e' ∧ c ≠ 'E'

theorem exponentPart?_none {s : List Char} (hs : LacksExponent s) :
    exponentPart? s = some (0, s) := by
  cases s with
  | nil => rfl
  | cons c s =>
    have hc := hs c rfl
    simp [exponentPart?, hc]

def exponentText (e : Int) : List Char :=
  'e' :: (if e < 0 then '-' else '+') :: Digits.ofNat e.natAbs

theorem exponentPart?_text (e : Int) {s : List Char} (hs : Digits.Stops s) :
    exponentPart? (exponentText e ++ s) = some (e, s) := by
  have hspan := Digits.span_append (fun _ => Digits.isDigit_of_mem_ofNat (n := e.natAbs)) hs
  have hread : exponentPart? (exponentText e ++ s) =
      some (if e < 0 then -(e.natAbs : Int) else e.natAbs, s) := by
    by_cases hneg : e < 0 <;>
      simp [exponentPart?, exponentText, hneg, splitSign, hspan, Digits.ofNat_ne_nil,
        Digits.toNat_ofNat]
  have hsigned : (if e < 0 then -(e.natAbs : Int) else e.natAbs) = e := by
    split <;> omega
  rw [hread, hsigned]

end Double

namespace Json

open Double

def EndsNumber (s : List Char) : Prop :=
  ∀ c ∈ s.head?, c.isDigit = false ∧ c ≠ '.' ∧ c ≠ 'e' ∧ c ≠ 'E'

theorem EndsNumber.stops {s : List Char} (h : EndsNumber s) : Digits.Stops s :=
  fun c hc => (h c hc).1

theorem EndsNumber.lacksExponent {s : List Char} (h : EndsNumber s) : LacksExponent s :=
  fun c hc => (h c hc).2.2

theorem endsNumber_nil : EndsNumber [] := fun _ hc => by simp at hc

theorem stops_exponentText (e : Int) (s : List Char) : Digits.Stops (exponentText e ++ s) :=
  Digits.stops_cons rfl _

theorem wholePart?_append {ds s : List Char} (hds : Digits.IsNumeral ds) (hs : Digits.Stops s) :
    wholePart? (ds ++ s) = some (ds, s) := by
  have hspan := Digits.span_append hds.digits hs
  unfold wholePart?
  split
  next t ht =>
    have hzero : ds = ['0'] := by
      refine hds.leading ?_
      rw [← List.head?_append_of_ne_nil ds hds.nonempty, ht]
      rfl
    subst hzero
    simpa using ht.symm
  next => simp [hspan, hds.nonempty]

theorem fraction?_none {s : List Char} (hs : ∀ c ∈ s.head?, c ≠ '.') :
    fraction? s = some (none, s) := by
  unfold fraction?
  split
  next s => exact absurd rfl (hs '.' rfl)
  next => rfl

theorem fraction?_point {fs s : List Char} (hfs : ∀ c ∈ fs, c.isDigit = true) (hne : fs ≠ [])
    (hs : Digits.Stops s) : fraction? ('.' :: (fs ++ s)) = some (some fs, s) := by
  simp [fraction?, Digits.span_append hfs hs, hne]

def numberEnd? (negative : Bool) (whole s : List Char) : Option (Number × List Char) := do
  let (fraction, s) ← fraction? s
  let (exponent, t) ← exponentPart? s
  if fraction.isNone && !startsExponent s then
    return (.whole negative (Digits.toNat whole), t)
  else
    return (.double (ofLiteral negative whole (fraction.getD []) exponent), t)

theorem number?_sign_append {ds s : List Char} (negative : Bool) (hds : Digits.IsNumeral ds)
    (hs : Digits.Stops s) :
    number? (sign negative ++ (ds ++ s)) = numberEnd? negative ds s := by
  have hwhole := wholePart?_append hds hs
  cases negative with
  | true => simp [number?, sign, hwhole, numberEnd?]
  | false =>
    -- without this the match on the sign is not decided
    have hhead : ∀ t, ds ++ s ≠ '-' :: t := by
      intro t ht
      cases ds with
      | nil => exact hds.nonempty rfl
      | cons c ds =>
        obtain rfl := (List.cons.inj ht).1
        exact absurd (hds.digits '-' List.mem_cons_self) (by decide)
    simp [number?, sign, hwhole, numberEnd?]

theorem numberEnd?_whole {s : List Char} (negative : Bool) (ds : List Char) (hs : EndsNumber s) :
    numberEnd? negative ds s = some (.whole negative (Digits.toNat ds), s) := by
  have hstart : startsExponent s = false := by
    cases s with
    | nil => rfl
    | cons c s => simp [startsExponent, hs c rfl]
  simp [numberEnd?, fraction?_none fun c hc => (hs c hc).2.1, exponentPart?_none hs.lacksExponent,
    hstart]

theorem numberEnd?_point {fs s : List Char} (negative : Bool) (ds : List Char)
    (hfs : ∀ c ∈ fs, c.isDigit = true) (hne : fs ≠ []) (hs : EndsNumber s) :
    numberEnd? negative ds ('.' :: (fs ++ s)) =
      some (.double (ofLiteral negative ds fs 0), s) := by
  simp [numberEnd?, fraction?_point hfs hne hs.stops, exponentPart?_none hs.lacksExponent]

theorem numberEnd?_exponent {s : List Char} (negative : Bool) (ds : List Char) (e : Int)
    (hs : Digits.Stops s) :
    numberEnd? negative ds (exponentText e ++ s) =
      some (.double (ofLiteral negative ds [] e), s) := by
  have hnone : fraction? (exponentText e ++ s) = some (none, exponentText e ++ s) := rfl
  have hstart : startsExponent (exponentText e ++ s) = true := rfl
  simp [numberEnd?, hnone, exponentPart?_text e hs, hstart]

theorem numberEnd?_point_exponent {fs s : List Char} (negative : Bool) (ds : List Char) (e : Int)
    (hfs : ∀ c ∈ fs, c.isDigit = true) (hne : fs ≠ []) (hs : Digits.Stops s) :
    numberEnd? negative ds ('.' :: (fs ++ (exponentText e ++ s))) =
      some (.double (ofLiteral negative ds fs e), s) := by
  simp [numberEnd?, fraction?_point hfs hne (stops_exponentText e s), exponentPart?_text e hs]

/-- The text is that of a decimal whose coefficient has got so many more zeros, none or those of its
exponent and one in the fraction. -/
structure Spells (d : Decimal) (text whole fraction : List Char) (exponent : Int) (zeros : Nat) :
    Prop where
  value : Digits.toNat (whole ++ fraction) = d.coefficient * 10 ^ zeros
  point : exponent - fraction.length = d.exponent - zeros
  zeros : zeros = 0 ∨ (zeros : Int) = d.exponent + 1
  read : ∀ s, EndsNumber s →
    number? (text ++ s) = some (.double (ofLiteral d.negative whole fraction exponent), s)

section Layouts

variable {d : Decimal}

theorem spells_point {ds fs : List Char} (hds : Digits.IsNumeral ds)
    (hfs : ∀ c ∈ fs, c.isDigit = true) (hne : fs ≠ []) {k : Nat}
    (hk : k = 0 ∨ (k : Int) = d.exponent + 1)
    (hvalue : Digits.toNat (ds ++ fs) = d.coefficient * 10 ^ k)
    (hexp : 0 - (fs.length : Int) = d.exponent - k) :
    Spells d (sign d.negative ++ (ds ++ '.' :: fs)) ds fs 0 k where
  value := hvalue
  point := hexp
  zeros := hk
  read s hs := by
    have hread := number?_sign_append d.negative hds (Digits.stops_cons (c := '.') rfl (fs ++ s))
    rw [numberEnd?_point _ _ hfs hne hs] at hread
    simpa using hread

/-- The zeros of the exponent are followed by one more, that of the fraction. -/
theorem spells_zeros (hd : d.IsNormal) {k : Nat} (hk : d.exponent = k) :
    Spells d (sign d.negative ++ (Digits.ofNat d.coefficient ++ List.replicate k '0' ++ ['.', '0']))
      (Digits.ofNat d.coefficient ++ List.replicate k '0') ['0'] 0 (k + 1) := by
  have hnum := Digits.isNumeral_ofNat d.coefficient
  have hwhole : Digits.IsNumeral (Digits.ofNat d.coefficient ++ List.replicate k '0') := by
    rcases hd with hc | ⟨-, he⟩
    · refine hnum.append (fun h => hc ?_) fun c hc => Digits.isDigit_of_mem_zeros hc
      rw [Digits.ofNat_eq_zero h]
    · obtain rfl : k = 0 := by omega
      simpa using hnum
  have hvalue : Digits.toNat (Digits.ofNat d.coefficient ++ List.replicate k '0' ++ ['0']) =
      d.coefficient * 10 ^ (k + 1) := by
    rw [List.append_assoc, ← List.replicate_succ', Digits.toNat_append_zeros, Digits.toNat_ofNat]
  have hone : ∀ c ∈ ['0'], c.isDigit = true := List.forall_mem_singleton.2 rfl
  have hexp : 0 - (['0'].length : Int) = d.exponent - (k + 1 : Nat) := by
    rw [hk, List.length_singleton]
    omega
  exact spells_point hwhole hone (by decide) (.inr (by omega)) hvalue hexp

theorem spells_inside {p : Nat} (hp : 0 < p) (hlt : p < (Digits.ofNat d.coefficient).length)
    (hexp : (p : Int) = (Digits.ofNat d.coefficient).length + d.exponent) :
    Spells d (sign d.negative ++ ((Digits.ofNat d.coefficient).take p ++
      '.' :: (Digits.ofNat d.coefficient).drop p))
      ((Digits.ofNat d.coefficient).take p) ((Digits.ofNat d.coefficient).drop p) 0 0 := by
  have hnum := Digits.isNumeral_ofNat d.coefficient
  have hdrop : ∀ c ∈ (Digits.ofNat d.coefficient).drop p, c.isDigit = true :=
    fun c hc => hnum.digits c (List.mem_of_mem_drop hc)
  have hne : (Digits.ofNat d.coefficient).drop p ≠ [] := by simpa using hlt
  refine spells_point (hnum.take hp) hdrop hne (.inl rfl) ?_ ?_
  · rw [Digits.toNat_take_drop, Nat.pow_zero, Nat.mul_one]
  · rw [List.length_drop]
    omega

theorem spells_below {z : Nat}
    (hexp : -(z : Int) = (Digits.ofNat d.coefficient).length + d.exponent) :
    Spells d (sign d.negative ++ (['0'] ++ '.' :: (List.replicate z '0' ++
      Digits.ofNat d.coefficient))) ['0'] (List.replicate z '0' ++ Digits.ofNat d.coefficient)
      0 0 := by
  have hnum := Digits.isNumeral_ofNat d.coefficient
  have hfs : ∀ c ∈ List.replicate z '0' ++ Digits.ofNat d.coefficient, c.isDigit = true :=
    fun c hc => (List.mem_append.1 hc).elim Digits.isDigit_of_mem_zeros (hnum.digits c)
  have hne : List.replicate z '0' ++ Digits.ofNat d.coefficient ≠ [] := by simp [hnum.nonempty]
  refine spells_point Digits.isNumeral_zero hfs hne (.inl rfl) ?_ ?_
  · have hzeros : ['0'] ++ List.replicate z '0' = List.replicate (z + 1) '0' := rfl
    rw [← List.append_assoc, hzeros, Digits.toNat_zeros_append, Digits.toNat_ofNat, Nat.pow_zero,
      Nat.mul_one]
  · rw [List.length_append, List.length_replicate]
    omega

theorem exists_spells_positionalText (hd : d.IsNormal) {style : Style}
    (hstyle : style.wholeFraction = true) : ∃ whole fraction e k, Spells d
      (sign d.negative ++ positionalText style (Digits.ofNat d.coefficient) d.exponent)
      whole fraction e k := by
  simp only [positionalText]
  split
  next hpos =>
    obtain ⟨k, hk⟩ := Int.eq_ofNat_of_zero_le hpos
    have hspells := spells_zeros hd hk
    exact ⟨_, _, _, _, by simpa [hk, hstyle] using hspells⟩
  next hneg =>
    split
    next hpoint =>
      let p := ((Digits.ofNat d.coefficient).length + d.exponent).toNat
      exact ⟨_, _, _, _, spells_inside (d := d) (p := p) (by omega) (by omega) (by omega)⟩
    next hpoint =>
      let z := (-((Digits.ofNat d.coefficient).length + d.exponent)).toNat
      exact ⟨_, _, _, _, spells_below (d := d) (z := z) (by omega)⟩

theorem exists_spells_scientificText (d : Decimal) : ∃ whole fraction e k, Spells d
    (sign d.negative ++ scientificText (Digits.ofNat d.coefficient) d.exponent)
    whole fraction e k := by
  have hnum := Digits.isNumeral_ofNat d.coefficient
  have hlen := Digits.length_ofNat_pos d.coefficient
  let ds := (Digits.ofNat d.coefficient).take 1
  let fs := (Digits.ofNat d.coefficient).drop 1
  let e := (Digits.ofNat d.coefficient).length + d.exponent - 1
  have hone : Digits.IsNumeral ds := hnum.take Nat.one_pos
  have hfs : ∀ c ∈ fs, c.isDigit = true := fun c hc => hnum.digits c (List.mem_of_mem_drop hc)
  have hexp : e - fs.length = d.exponent - (0 : Nat) := by
    rw [List.length_drop]
    omega
  refine ⟨ds, fs, e, 0, ?_, hexp, .inl rfl, fun s hs => ?_⟩
  · rw [Digits.toNat_take_drop, Nat.pow_zero, Nat.mul_one]
  · simp only [scientificText]
    split
    next hle =>
      have hdrop : fs = [] := List.drop_eq_nil_iff.2 hle
      have hread := number?_sign_append d.negative hone (stops_exponentText e s)
      rw [numberEnd?_exponent _ _ e hs.stops, ← hdrop] at hread
      simpa [exponentText, e, ds] using hread
    next hlt =>
      have hread := number?_sign_append d.negative hone
        (Digits.stops_cons (c := '.') rfl (fs ++ (exponentText e ++ s)))
      rw [numberEnd?_point_exponent _ _ e hfs (mt List.drop_eq_nil_iff.1 hlt) hs.stops] at hread
      simpa [exponentText, e, ds, fs] using hread

theorem exists_spells_layOut (hd : d.IsNormal) {style : Style}
    (hstyle : style.wholeFraction = true) :
    ∃ whole fraction e k, Spells d (style.layOut d) whole fraction e k := by
  simp only [Style.layOut]
  split
  next => exact exists_spells_positionalText hd hstyle
  next => exact exists_spells_scientificText d

end Layouts

end Json

/-- The text of the number in a document is read as the same number. -/
def Double.IsLegible (x : Double) : Prop :=
  Json.number? (x.write Json.numberStyle) = some (.double x, [])

namespace Json

open Double

def Number.IsNormal : Number → Prop
  | .whole _ _ => True
  | .double x => x.IsLegible

theorem number?_write {n : Number} (hn : n.IsNormal) {s : List Char} (hs : EndsNumber s) :
    number? (n.write ++ s) = some (n, s) := by
  cases n with
  | whole negative m =>
    rw [Number.write, List.append_assoc, number?_sign_append _ (Digits.isNumeral_ofNat m) hs.stops,
      numberEnd?_whole _ _ hs, Digits.toNat_ofNat]
  | double x =>
    cases x with
    | nan => cases hn
    | infinite negative => cases negative <;> cases hn
    | finite negative rank =>
      have hstyle : numberStyle.wholeFraction = true := rfl
      obtain ⟨whole, fraction, e, k, hspells⟩ :=
        exists_spells_layOut (isNormal_shortest numberStyle.tie negative rank) hstyle
      have hread := hspells.read [] endsNumber_nil
      rw [List.append_nil] at hread
      have hsame := hread.symm.trans hn
      rw [Option.some.injEq, Prod.mk.injEq, Number.double.injEq] at hsame
      rw [Number.write, Double.write, hspells.read s hs, hsame.1]

end Json
end Changefeed
