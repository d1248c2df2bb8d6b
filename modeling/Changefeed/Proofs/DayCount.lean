import Changefeed.Proofs.Instants
import Mathlib.Order.Monotone.Basic

/-!
# The count of days

The days are counted from the first day of the year 1, by the lengths of years and months. The next
day has the next number (`Date.number_next`), and the calendar has no two dates with one number
(`Date.eq_of_number_eq`). So moving a time changes its count of minutes by just the offset
(`Timestamp.minuteNumber_back`), across months, leap days and years.
-/

namespace Changefeed

namespace Date

/-- The days of all years before one. Every fourth year is a leap year, but of the hundredth ones
only every fourth. -/
def daysBeforeYear (year : Int) : Int :=
  365 * (year - 1) + (year - 1) / 4 - (year - 1) / 100 + (year - 1) / 400

def daysBeforeMonth (year : Int) : Nat → Nat
  | 0 | 1 => 0
  | month + 2 => daysBeforeMonth year (month + 1) + daysIn year (month + 1)

/-- The number of a date, one for the first day of the year 1. -/
def number (d : Date) : Int := daysBeforeYear d.year + daysBeforeMonth d.year d.month + d.day

example : epoch.number = 719163 := by decide

theorem isLeap_iff (year : Int) :
    isLeap year = true ↔ year % 4 = 0 ∧ (year % 100 ≠ 0 ∨ year % 400 = 0) := by
  simp [isLeap]

theorem daysBeforeMonth_succ (year : Int) {month : Nat} (h : 1 ≤ month) :
    daysBeforeMonth year (month + 1) = daysBeforeMonth year month + daysIn year month := by
  obtain ⟨month, rfl⟩ : ∃ k, month = k + 1 := ⟨month - 1, by omega⟩
  rfl

theorem daysBeforeMonth_mono (year : Int) : Monotone (daysBeforeMonth year) := by
  refine monotone_nat_of_le_succ fun month => ?_
  cases month with
  | zero => exact Nat.le_refl 0
  | succ month => exact Nat.le_add_right ..

theorem daysBeforeYear_succ (year : Int) :
    daysBeforeYear (year + 1) = daysBeforeYear year + daysBeforeMonth year 13 := by
  have hmonths : daysBeforeMonth year 13 = if isLeap year then 366 else 365 := by
    cases h : isLeap year <;> simp [daysBeforeMonth, daysIn, h]
  have hleap := isLeap_iff year
  rw [hmonths]
  unfold daysBeforeYear
  split
  next h =>
    rw [hleap] at h
    omega
  next h =>
    rw [hleap] at h
    omega

theorem daysBeforeYear_le {year year' : Int} (h : year ≤ year') :
    daysBeforeYear year ≤ daysBeforeYear year' := by
  unfold daysBeforeYear
  omega

section Neighbours

variable {d : Date} (h : d.isValid = true)
include h

theorem number_next : d.next.number = d.number + 1 := by
  obtain ⟨⟨hmonth, hlast⟩, -, hday⟩ := d.isValid_iff.1 h
  unfold next
  split_ifs with hinside hyear
  · simp only [number]
    omega
  · have hsucc := daysBeforeMonth_succ d.year hmonth
    simp only [number]
    omega
  · have hdecember : d.month = 12 := by omega
    have hmonths : daysBeforeMonth d.year 13 = daysBeforeMonth d.year 12 + daysIn d.year 12 := rfl
    have hjanuary : daysBeforeMonth (d.year + 1) 1 = 0 := rfl
    have hyears := daysBeforeYear_succ d.year
    rw [hdecember] at hinside hday
    simp only [number, hdecember]
    omega

theorem next_previous : d.previous.next = d := by
  obtain ⟨⟨hmonth, hlast⟩, hfirst, hday⟩ := d.isValid_iff.1 h
  obtain ⟨year, month, day⟩ := d
  dsimp only at hmonth hlast hfirst hday
  unfold previous
  dsimp only
  split_ifs with hinside hyear
  · have hlt : day - 1 < daysIn year month := by omega
    have hback : day - 1 + 1 = day := by omega
    simp [next, hlt, hback]
  · have hlt : month - 1 < 12 := by omega
    have hback : month - 1 + 1 = month := by omega
    obtain rfl : day = 1 := by omega
    simp [next, hlt, hback]
  · obtain rfl : month = 1 := by omega
    obtain rfl : day = 1 := by omega
    simp [next, daysIn]

theorem number_previous : d.previous.number = d.number - 1 := by
  have hnext := number_next (isValid_previous h)
  rw [next_previous h] at hnext
  omega

end Neighbours

theorem number_bounds {d : Date} (h : d.isValid = true) :
    daysBeforeYear d.year + daysBeforeMonth d.year d.month < d.number ∧
      d.number ≤ daysBeforeYear d.year + daysBeforeMonth d.year (d.month + 1) := by
  obtain ⟨⟨hmonth, -⟩, hfirst, hday⟩ := d.isValid_iff.1 h
  have hsucc := daysBeforeMonth_succ d.year hmonth
  unfold number
  omega

theorem number_lt_of_year_lt {d e : Date} (hd : d.isValid = true) (he : e.isValid = true)
    (h : d.year < e.year) : d.number < e.number := by
  obtain ⟨⟨-, hlast⟩, -⟩ := d.isValid_iff.1 hd
  have hupper := (number_bounds hd).2
  have hlower := (number_bounds he).1
  have hmonths : daysBeforeMonth d.year (d.month + 1) ≤ daysBeforeMonth d.year 13 :=
    daysBeforeMonth_mono d.year (by omega)
  have hyears : daysBeforeYear (d.year + 1) ≤ daysBeforeYear e.year :=
    daysBeforeYear_le (by omega)
  rw [daysBeforeYear_succ] at hyears
  omega

theorem number_lt_of_month_lt {d e : Date} (hd : d.isValid = true) (he : e.isValid = true)
    (hyear : d.year = e.year) (h : d.month < e.month) : d.number < e.number := by
  have hupper := (number_bounds hd).2
  have hlower := (number_bounds he).1
  have hmonths : daysBeforeMonth d.year (d.month + 1) ≤ daysBeforeMonth d.year e.month :=
    daysBeforeMonth_mono d.year (by omega)
  rw [← hyear] at hlower
  omega

theorem eq_of_number_eq {d e : Date} (hd : d.isValid = true) (he : e.isValid = true)
    (h : d.number = e.number) : d = e := by
  have hyear : d.year = e.year := by
    rcases lt_trichotomy d.year e.year with hlt | heq | hgt
    · exact absurd h (number_lt_of_year_lt hd he hlt).ne
    · exact heq
    · exact absurd h (number_lt_of_year_lt he hd hgt).ne'
  have hmonth : d.month = e.month := by
    rcases lt_trichotomy d.month e.month with hlt | heq | hgt
    · exact absurd h (number_lt_of_month_lt hd he hyear hlt).ne
    · exact heq
    · exact absurd h (number_lt_of_month_lt he hd hyear.symm hgt).ne'
  have hday : d.day = e.day := by
    simp only [number, hyear, hmonth] at h
    omega
  obtain ⟨_, _, _⟩ := d
  simp_all

end Date

namespace Clock

theorem minutes_withMinutes (c : Clock) {m : Int} (h : 0 ≤ m) : (c.withMinutes m).minutes = m := by
  simp only [withMinutes, minutes]
  omega

theorem eq_of_minutes_eq {c c' : Clock} (hc : c.isValid = true) (hc' : c'.isValid = true)
    (hminutes : c.minutes = c'.minutes) (hsecond : c.second = c'.second)
    (hnano : c.nano = c'.nano) : c = c' := by
  have hback := withMinutes_minutes hc
  rw [hminutes, withMinutes, hsecond, hnano] at hback
  exact hback.symm.trans (withMinutes_minutes hc')

end Clock

namespace Timestamp

def minuteNumber (t : Timestamp) : Int := 1440 * t.date.number + t.clock.minutes

theorem minuteNumber_back {t : Timestamp} (hdate : t.date.isValid = true)
    (hclock : t.clock.isValid = true) {offset : Int} (hgt : -1440 < offset)
    (hlt : offset < 1440) : (t.back offset).minuteNumber = t.minuteNumber - offset := by
  have hge := t.clock.minutes_nonneg
  have hday := Clock.minutes_lt hclock
  unfold back
  simp only
  split_ifs with hbefore hafter
  · simp only [minuteNumber, Date.number_previous hdate]
    rw [Clock.minutes_withMinutes _ (by omega)]
    omega
  · simp only [minuteNumber, Date.number_next hdate]
    rw [Clock.minutes_withMinutes _ (by omega)]
    omega
  · simp only [minuteNumber]
    rw [Clock.minutes_withMinutes _ (by omega)]
    omega

theorem seconds_back (t : Timestamp) (offset : Int) :
    (t.back offset).clock.second = t.clock.second ∧ (t.back offset).clock.nano = t.clock.nano := by
  unfold back
  simp only
  split_ifs
  all_goals exact ⟨rfl, rfl⟩

theorem eq_of_minuteNumber_eq {t u : Timestamp}
    (ht : t.date.isValid = true ∧ t.clock.isValid = true)
    (hu : u.date.isValid = true ∧ u.clock.isValid = true)
    (hminutes : t.minuteNumber = u.minuteNumber) (hsecond : t.clock.second = u.clock.second)
    (hnano : t.clock.nano = u.clock.nano) : t = u := by
  have htday := Clock.minutes_lt ht.2
  have huday := Clock.minutes_lt hu.2
  have htpos := t.clock.minutes_nonneg
  have hupos := u.clock.minutes_nonneg
  unfold minuteNumber at hminutes
  have hdate : t.date = u.date := Date.eq_of_number_eq ht.1 hu.1 (by omega)
  have hclock : t.clock = u.clock := Clock.eq_of_minutes_eq ht.2 hu.2 (by omega) hsecond hnano
  obtain ⟨_, _⟩ := t
  simp_all

end Timestamp
end Changefeed
