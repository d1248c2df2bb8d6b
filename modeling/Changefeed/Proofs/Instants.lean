import Changefeed.Calendar.Printer
import Changefeed.Calendar.Reader
import Changefeed.Proofs.Numerals
import Mathlib.Data.Option.Basic

/-!
# Instants read back

Every instant in the supported years, leap seconds and years of five or six digits included, is read
back from its text (`Calendar.readInstant?_writeInstant`), and nothing else is ever read
(`Calendar.isValid_of_readInstant?`): moving a time to UTC keeps the calendar and the clock valid.
-/

namespace Changefeed

namespace Digits

theorem isDigit_of_mem_padded {width n : Nat} {c : Char} (h : c ∈ padded width n) :
    c.isDigit = true :=
  (List.mem_append.1 h).elim isDigit_of_mem_zeros isDigit_of_mem_ofNat

theorem length_padded {width n : Nat} (hwidth : 0 < width) (h : n < 10 ^ width) :
    (padded width n).length = width := by
  have hle : (ofNat n).length ≤ width := (length_ofNat_le_iff hwidth).2 h
  rw [padded, List.length_append, List.length_replicate]
  omega

theorem span_padded (width n : Nat) {s : List Char} (hs : Stops s) :
    span (padded width n ++ s) = (padded width n, s) :=
  span_append (fun _ => isDigit_of_mem_padded) hs

theorem padded_ne_nil (width n : Nat) : padded width n ≠ [] := by
  simp [padded, ofNat_ne_nil]

theorem spanUpTo_append {width : Nat} {ds s : List Char} (hds : ∀ c ∈ ds, c.isDigit = true)
    (hlen : ds.length = width) : spanUpTo width (ds ++ s) = (ds, s) := by
  have htake : (span (ds ++ s)).1.take width = ds := by
    rw [span, List.takeWhile_append_of_pos hds, List.take_left' hlen]
  rw [spanUpTo, htake, List.drop_left]

end Digits

theorem Blank.skip_cons {c : Char} (h : isBlank c = false) (s : List Char) :
    skip (c :: s) = c :: s := by
  simp [skip, h]

theorem Blank.isBlank_of_isDigit {c : Char} (h : c.isDigit = true) : isBlank c = false := by
  simp only [Char.isDigit, Bool.and_eq_true, decide_eq_true_eq] at h
  have h₁ : 48 ≤ c.toNat := h.1
  have h₂ : c.toNat ≤ 57 := h.2
  simp only [isBlank, Bool.or_eq_false_iff, Bool.and_eq_false_iff, decide_eq_false_iff_not,
    beq_eq_false_iff_ne]
  omega

namespace Date

theorem isValid_iff (d : Date) : d.isValid = true ↔
    (1 ≤ d.month ∧ d.month ≤ 12) ∧ 1 ≤ d.day ∧ d.day ≤ daysIn d.year d.month := by
  simp [isValid, and_assoc]

theorem daysIn_le (year : Int) (month : Nat) : daysIn year month ≤ 31 := by
  unfold daysIn
  repeat' split
  all_goals omega

end Date

theorem Clock.isValid_iff (c : Clock) : c.isValid = true ↔
    c.hour < 24 ∧ c.minute < 60 ∧ c.second ≤ 60 ∧ c.nano < 1000000000 := by
  simp [isValid, and_assoc]

theorem Clock.nano_lt {c : Clock} (h : c.isValid = true) : c.nano < 1000000000 :=
  (c.isValid_iff.1 h).2.2.2

namespace Calendar

theorem skip_digits {ds : List Char} (hds : ∀ c ∈ ds, c.isDigit = true) (hne : ds ≠ [])
    (s : List Char) : Blank.skip (ds ++ s) = ds ++ s := by
  cases ds with
  | nil => exact absurd rfl hne
  | cons c ds => exact Blank.skip_cons (Blank.isBlank_of_isDigit (hds c List.mem_cons_self)) _

theorem number?_padded (width : Nat) {n : Nat} (hwidth : 0 < width) (h : n < 10 ^ width)
    (s : List Char) : number? width (Digits.padded width n ++ s) = some (n, s) := by
  have hds : ∀ c ∈ Digits.padded width n, c.isDigit = true := fun _ => Digits.isDigit_of_mem_padded
  have hspan := Digits.spanUpTo_append (s := s) hds (Digits.length_padded hwidth h)
  simp [number?, skip_digits hds (Digits.padded_ne_nil _ _), hspan, Digits.padded_ne_nil,
    Digits.toNat_padded]

theorem digits?_padded (width n : Nat) {s : List Char} (hs : Digits.Stops s) :
    digits? (Digits.padded width n ++ s) = some (n, s) := by
  simp [digits?, Digits.span_padded width n hs, Digits.padded_ne_nil, Digits.toNat_padded]

theorem year?_digits_append {ds : List Char} (hds : ∀ c ∈ ds, c.isDigit = true) (hne : ds ≠ [])
    (s : List Char) :
    year? (ds ++ s) = (number? 4 (ds ++ s)).map fun (n, r) => ((n : Int), r) := by
  have hskip := skip_digits hds hne s
  have hhead : ∀ c t, ds ++ s = c :: t → c.isDigit = true := by
    intro c t ht
    cases ds with
    | nil => exact absurd rfl hne
    | cons d ds => exact (List.cons.inj ht).1 ▸ hds d List.mem_cons_self
  rw [year?, hskip]
  split
  next t ht => exact absurd (hhead _ _ ht) (by decide)
  next t ht => exact absurd (hhead _ _ ht) (by decide)
  next => rfl

theorem year?_writeYear (year : Int) {s : List Char} (hs : Digits.Stops s) :
    year? (Date.writeYear year ++ s) = some (year, s) := by
  unfold Date.writeYear
  split
  next h =>
    have hnumber := number?_padded 4 (n := year.toNat) (by decide) (by omega) s
    have hyear : (year.toNat : Int) = year := by omega
    rw [year?_digits_append (fun _ => Digits.isDigit_of_mem_padded) (Digits.padded_ne_nil _ _)]
    simp only [hnumber, Option.map_some, hyear]
  next =>
    have hdigits := digits?_padded 4 year.natAbs hs
    split
    next h =>
      have hyear : -(year.natAbs : Int) = year := by omega
      rw [List.cons_append, year?, Blank.skip_cons rfl]
      simp only [hdigits, Option.map_some, hyear]
    next h =>
      have hyear : (year.natAbs : Int) = year := by omega
      rw [List.cons_append, year?, Blank.skip_cons rfl]
      simp only [hdigits, Option.map_some, hyear]

theorem nanos_padded {width n : Nat} (hwidth : 0 < width) (hle : width ≤ 9) (h : n < 10 ^ width) :
    nanos (Digits.padded width n) = n * 10 ^ (9 - width) := by
  have hlen := Digits.length_padded hwidth h
  rw [nanos, List.take_of_length_le (by omega), Digits.toNat_append_zeros, Digits.toNat_padded,
    hlen]

theorem fraction?_padded {width n : Nat} (hwidth : 0 < width) (hle : width ≤ 9)
    (h : n < 10 ^ width) {s : List Char} (hs : Digits.Stops s) :
    fraction? ('.' :: Digits.padded width n ++ s) = some (n * 10 ^ (9 - width), s) := by
  simp [fraction?, Digits.span_padded width n hs, Digits.padded_ne_nil, nanos_padded hwidth hle h]

theorem fraction?_writeFraction {nano : Nat} (h : nano < 1000000000) {s : List Char}
    (hs : Digits.Stops s) (hpoint : ∀ c ∈ s.head?, c ≠ '.') :
    fraction? (Clock.writeFraction nano ++ s) = some (nano, s) := by
  unfold Clock.writeFraction
  split
  next hzero =>
    rw [List.nil_append, hzero]
    unfold fraction?
    split
    next => exact absurd rfl (hpoint '.' rfl)
    next => rfl
  next =>
    split
    next hmilli =>
      have hwhole : nano / 1000000 * 10 ^ (9 - 3) = nano := by omega
      rw [fraction?_padded (by decide) (by decide) (by omega) hs, hwhole]
    next =>
      split
      next hmicro =>
        have hwhole : nano / 1000 * 10 ^ (9 - 6) = nano := by omega
        rw [fraction?_padded (by decide) (by decide) (by omega) hs, hwhole]
      next =>
        have hwhole : nano * 10 ^ (9 - 9) = nano := by omega
        rw [fraction?_padded (by decide) (by decide) (by omega) hs, hwhole]

theorem literal?_cons (c : Char) (s : List Char) : literal? c (c :: s) = some s := by
  simp [literal?]

theorem date?_write {skip : List Char → List Char} (hskip : ∀ s, skip ('-' :: s) = '-' :: s)
    {d : Date} (hvalid : d.isValid = true) (hrange : d.isInRange = true) (s : List Char) :
    date? skip (d.write ++ s) = some (d, s) := by
  obtain ⟨⟨-, hmonth⟩, -, hday⟩ := d.isValid_iff.1 hvalid
  have hdays := Date.daysIn_le d.year d.month
  have hyear := year?_writeYear d.year
    (Digits.stops_cons (c := '-') rfl
      (Digits.padded 2 d.month ++ '-' :: (Digits.padded 2 d.day ++ s)))
  have hmonth := number?_padded 2 (n := d.month) (by decide) (by omega)
  have hday := number?_padded 2 (n := d.day) (by decide) (by omega)
  simp [date?, Date.write, hyear, hmonth, hday, hskip, literal?_cons, hvalid, hrange]

theorem clock?_fields {skip : List Char → List Char} (hskip : ∀ s, skip (':' :: s) = ':' :: s)
    {c : Clock} (h : c.isValid = true) {s rest : List Char}
    (hfraction : fraction? s = some (c.nano, rest)) :
    clock? skip (Digits.padded 2 c.hour ++ ':' :: (Digits.padded 2 c.minute ++
      ':' :: (Digits.padded 2 c.second ++ s))) = some (c, rest) := by
  obtain ⟨hhour, hminute, hsecond, -⟩ := c.isValid_iff.1 h
  have hhour := number?_padded 2 (n := c.hour) (by decide) (by omega)
  have hminute := number?_padded 2 (n := c.minute) (by decide) (by omega)
  have hsecond := number?_padded 2 (n := c.second) (by decide) (by omega)
  simp [clock?, hhour, hminute, hsecond, hfraction, hskip, literal?_cons, h]

theorem clock?_write {c : Clock} (h : c.isValid = true) {s : List Char} (hs : Digits.Stops s)
    (hpoint : ∀ d ∈ s.head?, d ≠ '.') : clock? Blank.skip (c.write ++ s) = some (c, s) := by
  have hfraction := fraction?_writeFraction (Clock.nano_lt h) hs hpoint
  have hread := clock?_fields (Blank.skip_cons rfl) h hfraction
  simpa [Clock.write] using hread

end Calendar

namespace Clock

theorem withMinutes_minutes {c : Clock} (h : c.isValid = true) : c.withMinutes c.minutes = c := by
  obtain ⟨-, hminute, -⟩ := c.isValid_iff.1 h
  obtain ⟨hour, minute, second, nano⟩ := c
  simp only [withMinutes, minutes, Clock.mk.injEq, and_true] at hminute ⊢
  omega

theorem isValid_withMinutes {c : Clock} (h : c.isValid = true) {m : Int} (hge : 0 ≤ m)
    (hlt : m < 1440) : (c.withMinutes m).isValid = true := by
  obtain ⟨-, -, hseconds⟩ := c.isValid_iff.1 h
  have hhour : (m / 60).toNat < 24 := by omega
  have hminute : (m % 60).toNat < 60 := by omega
  exact (isValid_iff _).2 ⟨hhour, hminute, hseconds⟩

theorem minutes_nonneg (c : Clock) : 0 ≤ c.minutes := by
  unfold minutes
  omega

theorem minutes_lt {c : Clock} (h : c.isValid = true) : c.minutes < 1440 := by
  obtain ⟨hhour, hminute, -⟩ := c.isValid_iff.1 h
  unfold minutes
  omega

end Clock

namespace Date

theorem isValid_next {d : Date} (h : d.isValid = true) : d.next.isValid = true := by
  rw [isValid_iff] at h ⊢
  have hfirst := fun y m => Nat.le_of_lt (one_lt_daysIn y m)
  obtain ⟨hmonth, hday⟩ := h
  unfold next
  split_ifs with hinside hyear
  · exact ⟨hmonth, by dsimp only; omega⟩
  · exact ⟨by dsimp only; omega, Nat.le_refl 1, hfirst _ _⟩
  · exact ⟨by dsimp only; omega, Nat.le_refl 1, hfirst _ _⟩

theorem isValid_previous {d : Date} (h : d.isValid = true) : d.previous.isValid = true := by
  rw [isValid_iff] at h ⊢
  have hlast := fun y m => Nat.le_of_lt (one_lt_daysIn y m)
  obtain ⟨hmonth, hday⟩ := h
  unfold previous
  split_ifs with hinside hyear
  · exact ⟨hmonth, by dsimp only; omega⟩
  · exact ⟨by dsimp only; omega, hlast _ _, Nat.le_refl _⟩
  · exact ⟨by dsimp only; omega, by dsimp only; omega, Nat.le_refl 31⟩

end Date

namespace Timestamp

theorem isValid_iff (t : Timestamp) : t.isValid = true ↔
    t.date.isValid = true ∧ t.date.isInRange = true ∧ t.clock.isValid = true := by
  simp [isValid, and_assoc]

theorem toUtc?_zero {t : Timestamp} (h : t.isValid = true) : t.toUtc? 0 = some t := by
  obtain ⟨hdate, hrange, hclock⟩ := t.isValid_iff.1 h
  have hge := t.clock.minutes_nonneg
  have hlt := Clock.minutes_lt hclock
  have hback : t.back 0 = t := by
    simp only [back, Int.sub_zero, if_neg (Int.not_lt.2 hge), if_neg (Int.not_le.2 hlt),
      Clock.withMinutes_minutes hclock]
  simp [toUtc?, hback, hrange]

/-- A shift by less than a day needs no more than the neighbouring dates. -/
theorem isValid_back {t : Timestamp} {offset : Int} (hdate : t.date.isValid = true)
    (hclock : t.clock.isValid = true) (hgt : -1440 < offset) (hlt : offset < 1440) :
    (t.back offset).date.isValid = true ∧ (t.back offset).clock.isValid = true := by
  have hge₀ := t.clock.minutes_nonneg
  have hlt₀ := Clock.minutes_lt hclock
  unfold back
  simp only
  split_ifs
  · exact ⟨Date.isValid_previous hdate, Clock.isValid_withMinutes hclock (by omega) (by omega)⟩
  · exact ⟨Date.isValid_next hdate, Clock.isValid_withMinutes hclock (by omega) (by omega)⟩
  · exact ⟨hdate, Clock.isValid_withMinutes hclock (by omega) (by omega)⟩

theorem isValid_of_toUtc? {t u : Timestamp} {offset : Int} (hdate : t.date.isValid = true)
    (hclock : t.clock.isValid = true) (hgt : -1440 < offset) (hlt : offset < 1440)
    (h : t.toUtc? offset = some u) : u.isValid = true := by
  simp only [toUtc?, Option.ite_none_right_eq_some, Option.some.injEq] at h
  obtain ⟨hrange, rfl⟩ := h
  obtain ⟨hudate, huclock⟩ := isValid_back hdate hclock hgt hlt
  exact (isValid_iff _).2 ⟨hudate, hrange, huclock⟩

end Timestamp

namespace Calendar

theorem readInstant?_writeInstant {t : Timestamp} (h : t.isValid = true) :
    readInstant? t.writeInstant = some t := by
  obtain ⟨hdate, hrange, hclock⟩ := t.isValid_iff.1 h
  have hdate := date?_write (Blank.skip_cons rfl) hdate hrange ('T' :: (t.clock.write ++ ['Z']))
  have hclock := clock?_write hclock (Digits.stops_cons rfl []) (s := ['Z']) (by simp)
  have hoffset : documentOffset? ['Z'] = some (0, []) := rfl
  have hutc := Timestamp.toUtc?_zero h
  have hblank : Blank.skip ['Z'] = ['Z'] := Blank.skip_cons rfl []
  have hend : Blank.skip [] = [] := rfl
  simp [readInstant?, Timestamp.writeInstant, Timestamp.writeLocal, hdate, hclock, hoffset, hutc,
    literal?, hblank, hend, guard]

theorem isValid_of_date? {skip : List Char → List Char} {s t : List Char} {d : Date}
    (h : date? skip s = some (d, t)) : d.isValid = true ∧ d.isInRange = true := by
  simp only [date?, Option.bind_eq_bind, Option.bind_eq_some_iff, Option.pure_def,
    Option.some.injEq, Prod.mk.injEq] at h
  obtain ⟨_, _, _, _, _, _, _, _, _, _, _, hguard, rfl, -⟩ := h
  simpa [guard] using hguard

theorem isValid_of_clock? {skip : List Char → List Char} {s t : List Char} {c : Clock}
    (h : clock? skip s = some (c, t)) : c.isValid = true := by
  simp only [clock?, Option.bind_eq_bind, Option.bind_eq_some_iff, Option.pure_def,
    Option.some.injEq, Prod.mk.injEq] at h
  obtain ⟨_, _, _, _, _, _, _, _, _, _, _, _, _, hguard, rfl, -⟩ := h
  simpa [guard] using hguard

theorem offsetOf?_bounds {negative : Bool} {hours minutes : Nat} {offset : Int}
    (h : offsetOf? negative hours minutes = some offset) : -1440 < offset ∧ offset < 1440 := by
  simp only [offsetOf?, Option.ite_none_right_eq_some, Option.some.injEq] at h
  obtain ⟨hbounds, rfl⟩ := h
  split <;> omega

theorem offset?_bounds {minutesMayLack : Bool} {s t : List Char} {offset : Int}
    (h : offset? minutesMayLack s = some (offset, t)) : -1440 < offset ∧ offset < 1440 := by
  unfold offset? at h
  split at h
  next => cases h; decide
  next => cases h; decide
  next =>
    simp only [Option.bind_eq_bind, Option.bind_eq_some_iff, Option.pure_def,
      Option.some.injEq, Prod.mk.injEq] at h
    obtain ⟨_, _, _, _, _, _, _, hoffset, rfl, -⟩ := h
    exact offsetOf?_bounds hoffset

theorem documentOffset?_bounds {s t : List Char} {offset : Int}
    (h : documentOffset? s = some (offset, t)) : -1440 < offset ∧ offset < 1440 := by
  unfold documentOffset? at h
  split at h
  next =>
    cases h
    decide
  next => exact offset?_bounds h

theorem isValid_of_readInstant? {s : List Char} {t : Timestamp} (h : readInstant? s = some t) :
    t.isValid = true := by
  simp only [readInstant?, Option.bind_eq_bind, Option.bind_eq_some_iff] at h
  obtain ⟨_, hdate, _, _, _, hclock, _, hoffset, _, _, hutc⟩ := h
  obtain ⟨hgt, hlt⟩ := documentOffset?_bounds hoffset
  exact Timestamp.isValid_of_toUtc? (isValid_of_date? hdate).1 (isValid_of_clock? hclock) hgt hlt
    hutc

end Calendar
end Changefeed
