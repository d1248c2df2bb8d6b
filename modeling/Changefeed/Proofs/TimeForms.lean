import Changefeed.Proofs.Instants

/-!
# What columns make of the normal forms

The readers of dates and times yield nothing that the calendar does not have. A date in its normal
form is read back (`Calendar.readDate?_write`). The normal form of a time has a `T` where the
database puts a blank: without an offset it is not read at all (`Calendar.readLocal?_writeLocal`),
and an instant is read back by the strict form if its year has four digits, and is not read
otherwise (`Calendar.readZoned?_writeInstant`).
-/

namespace Changefeed.Calendar

section Validity

variable {s rest : List Char}

theorem whole?_eq_some_iff {α : Type} {result : Option (α × List Char)} {a : α} :
    whole? result = some a ↔ result = some (a, []) := by
  unfold whole?
  split
  next => simp
  next hne =>
    refine iff_of_false nofun ?_
    intro h
    exact hne a h

theorem isValid_of_readDate? {d : Date} (h : readDate? s = some d) :
    d.isValid = true ∧ d.isInRange = true :=
  isValid_of_date? (whole?_eq_some_iff.1 h)

theorem isValid_of_local? {t : Timestamp} (h : local? s = some (t, rest)) : t.isValid = true := by
  simp only [local?, Option.bind_eq_bind, Option.bind_eq_some_iff, Option.pure_def,
    Option.some.injEq, Prod.mk.injEq] at h
  obtain ⟨⟨d, _⟩, hdate, ⟨c, _⟩, hclock, rfl, -⟩ := h
  obtain ⟨hvalid, hrange⟩ := isValid_of_date? hdate
  exact (Timestamp.isValid_iff _).2 ⟨hvalid, hrange, isValid_of_clock? hclock⟩

theorem isValid_of_readLocal? {t : Timestamp} (h : readLocal? s = some t) : t.isValid = true :=
  isValid_of_local? (whole?_eq_some_iff.1 h)

theorem strictOffset?_bounds {offset : Int} (h : strictOffset? s = some (offset, rest)) :
    -1440 < offset ∧ offset < 1440 := by
  unfold strictOffset? at h
  split at h
  next => cases h; decide
  next => cases h; decide
  next =>
    simp only [Option.bind_eq_bind, Option.bind_eq_some_iff, Option.pure_def,
      Option.some.injEq, Prod.mk.injEq] at h
    obtain ⟨_, _, _, _, _, _, _, _, _, hoffset, rfl, -⟩ := h
    exact offsetOf?_bounds hoffset

theorem isValid_of_toUtc? {t u : Timestamp} {offset : Int} (ht : t.isValid = true)
    (hoffset : -1440 < offset ∧ offset < 1440) (h : t.toUtc? offset = some u) :
    u.isValid = true := by
  obtain ⟨hdate, -, hclock⟩ := t.isValid_iff.1 ht
  exact Timestamp.isValid_of_toUtc? hdate hclock hoffset.1 hoffset.2 h

theorem isValid_of_readZonedLoose? {t : Timestamp} (h : readZonedLoose? s = some t) :
    t.isValid = true := by
  simp only [readZonedLoose?, Option.bind_eq_bind, Option.bind_eq_some_iff] at h
  obtain ⟨_, hlocal, _, hoffset, hutc⟩ := h
  exact isValid_of_toUtc? (isValid_of_local? hlocal)
    (offset?_bounds (whole?_eq_some_iff.1 hoffset)) hutc

theorem isValid_of_readStrict? {t : Timestamp} (h : readStrict? s = some t) :
    t.isValid = true := by
  unfold readStrict? at h
  -- six numbers, the five characters between them and a fraction come before the offset
  iterate 12 obtain ⟨_, -, h⟩ := Option.bind_eq_some_iff.1 h
  obtain ⟨_, hoffset, h⟩ := Option.bind_eq_some_iff.1 h
  obtain ⟨_, hguard, hutc⟩ := Option.bind_eq_some_iff.1 h
  refine isValid_of_toUtc? ?_ (strictOffset?_bounds (whole?_eq_some_iff.1 hoffset)) hutc
  simpa [guard] using hguard

theorem isValid_of_readZoned? {t : Timestamp} (h : readZoned? s = some t) : t.isValid = true := by
  rcases Option.or_eq_some_iff.1 h with h | ⟨-, h⟩
  · exact isValid_of_readZonedLoose? h
  · exact isValid_of_readStrict? h

end Validity

section NormalForms

theorem twoDigits?_cons {a b : Char} (ha : a.isDigit = true) (hb : b.isDigit = true)
    (s : List Char) : twoDigits? (a :: b :: s) = some (Digits.toNat [a, b], s) := by
  simp [twoDigits?, ha, hb]

theorem twoDigits?_padded {n : Nat} (h : n < 100) (s : List Char) :
    twoDigits? (Digits.padded 2 n ++ s) = some (n, s) := by
  have hlen : (Digits.padded 2 n).length = 2 := Digits.length_padded (by decide) h
  have hdigits : ∀ c ∈ Digits.padded 2 n, c.isDigit = true := fun _ => Digits.isDigit_of_mem_padded
  have hvalue := Digits.toNat_padded 2 n
  obtain ⟨a, b, hds⟩ := List.length_eq_two.1 hlen
  rw [hds] at hdigits hvalue ⊢
  simp only [List.forall_mem_cons] at hdigits
  rw [List.cons_append, List.cons_append, List.nil_append, twoDigits?_cons hdigits.1 hdigits.2.1,
    hvalue]

theorem fourDigits?_padded {n : Nat} (h : n < 10000) (s : List Char) :
    fourDigits? (Digits.padded 4 n ++ s) = some (n, s) := by
  have hlen : (Digits.padded 4 n).length = 4 := Digits.length_padded (by decide) h
  have hdigits : ∀ c ∈ Digits.padded 4 n, c.isDigit = true := fun _ => Digits.isDigit_of_mem_padded
  have hvalue := Digits.toNat_padded 4 n
  match hds : Digits.padded 4 n with
  | [a, b, c, d] =>
    rw [hds] at hdigits hvalue
    simp only [List.forall_mem_cons] at hdigits
    obtain ⟨ha, hb, hc, hd, -⟩ := hdigits
    have hsplit : 100 * Digits.toNat [a, b] + Digits.toNat [c, d] = n := by
      rw [← hvalue]
      simp only [Digits.toNat, Nat.ofDigitChars_cons, Nat.ofDigitChars_nil]
      omega
    simp [fourDigits?, twoDigits?_cons ha hb, twoDigits?_cons hc hd, hsplit]
  | [] | [_] | [_, _] | [_, _, _] | _ :: _ :: _ :: _ :: _ :: _ => simp [hds] at hlen

theorem fourDigits?_sign {c : Char} (hc : c.isDigit = false) (s : List Char) :
    fourDigits? (c :: s) = none := by
  cases s <;> simp [fourDigits?, twoDigits?, hc]

theorem readStrict?_sign {c : Char} (hc : c.isDigit = false) (s : List Char) :
    readStrict? (c :: s) = none := by
  rw [readStrict?, fourDigits?_sign hc]
  rfl

theorem clock?_letter (s : List Char) : clock? id (Blank.skip ('T' :: s)) = none := by
  have hskip : Blank.skip ('T' :: s) = 'T' :: s := Blank.skip_cons rfl s
  have hdigits : Digits.span ('T' :: s) = ([], 'T' :: s) := rfl
  simp [clock?, number?, hskip, Digits.spanUpTo, hdigits]

variable {t : Timestamp} (ht : t.isValid = true)
include ht

theorem local?_writeLocal (s : List Char) : local? (t.writeLocal ++ s) = none := by
  obtain ⟨hdate, hrange, -⟩ := t.isValid_iff.1 ht
  have hread : date? id (t.writeLocal ++ s) = some (t.date, 'T' :: (t.clock.write ++ s)) := by
    rw [Timestamp.writeLocal, List.append_assoc, List.cons_append]
    exact date?_write (fun _ => rfl) hdate hrange _
  simp [local?, hread, clock?_letter]

theorem readLocal?_writeLocal : readLocal? t.writeLocal = none := by
  have hlocal := local?_writeLocal ht []
  rw [List.append_nil] at hlocal
  rw [readLocal?, hlocal]
  rfl

theorem readZonedLoose?_writeInstant : readZonedLoose? t.writeInstant = none := by
  rw [readZonedLoose?, Timestamp.writeInstant, local?_writeLocal ht]
  rfl

theorem readStrict?_of_year (hyear : 0 ≤ t.date.year ∧ t.date.year ≤ 9999) :
    readStrict? t.writeInstant = some t := by
  obtain ⟨hdate, -, hclock⟩ := t.isValid_iff.1 ht
  obtain ⟨⟨-, hmonth⟩, -, hday⟩ := t.date.isValid_iff.1 hdate
  have hdays := Date.daysIn_le t.date.year t.date.month
  obtain ⟨hhour, hminute, hsecond, hnano⟩ := t.clock.isValid_iff.1 hclock
  have hseparator (s : List Char) : (literal? 'T' ('T' :: s)).or
      ((literal? 't' ('T' :: s)).or (literal? ' ' ('T' :: s))) = some s := by
    rw [literal?_cons, Option.some_or]
  have hsame : Timestamp.mk ⟨t.date.year.toNat, t.date.month, t.date.day⟩
      ⟨t.clock.hour, t.clock.minute, t.clock.second, t.clock.nano⟩ = t := by
    rw [Int.toNat_of_nonneg hyear.1]
  have hfraction := fraction?_writeFraction hnano (Digits.stops_cons rfl []) (s := ['Z']) (by simp)
  rw [Timestamp.writeInstant, Timestamp.writeLocal, Date.write, Date.writeYear, if_pos hyear,
    Clock.write]
  simp only [List.append_assoc, List.cons_append]
  apply Option.bind_eq_some_iff.2 ⟨_, fourDigits?_padded (by omega) _, ?_⟩
  apply Option.bind_eq_some_iff.2 ⟨_, literal?_cons '-' _, ?_⟩
  apply Option.bind_eq_some_iff.2 ⟨_, twoDigits?_padded (by omega) _, ?_⟩
  apply Option.bind_eq_some_iff.2 ⟨_, literal?_cons '-' _, ?_⟩
  apply Option.bind_eq_some_iff.2 ⟨_, twoDigits?_padded (by omega) _, ?_⟩
  apply Option.bind_eq_some_iff.2 ⟨_, hseparator _, ?_⟩
  apply Option.bind_eq_some_iff.2 ⟨_, twoDigits?_padded (by omega) _, ?_⟩
  apply Option.bind_eq_some_iff.2 ⟨_, literal?_cons ':' _, ?_⟩
  apply Option.bind_eq_some_iff.2 ⟨_, twoDigits?_padded (by omega) _, ?_⟩
  apply Option.bind_eq_some_iff.2 ⟨_, literal?_cons ':' _, ?_⟩
  apply Option.bind_eq_some_iff.2 ⟨_, twoDigits?_padded (by omega) _, ?_⟩
  apply Option.bind_eq_some_iff.2 ⟨_, hfraction, ?_⟩
  apply Option.bind_eq_some_iff.2 ⟨0, rfl, ?_⟩
  dsimp only
  rw [hsame, ht, Timestamp.toUtc?_zero ht]
  rfl

theorem readStrict?_writeInstant :
    readStrict? t.writeInstant = if 0 ≤ t.date.year ∧ t.date.year ≤ 9999 then some t else none := by
  by_cases hyear : 0 ≤ t.date.year ∧ t.date.year ≤ 9999
  · rw [if_pos hyear]
    exact readStrict?_of_year ht hyear
  · have hsign : (if t.date.year < 0 then '-' else '+').isDigit = false := by
      split <;> rfl
    rw [if_neg hyear, Timestamp.writeInstant, Timestamp.writeLocal, Date.write, Date.writeYear,
      if_neg hyear]
    exact readStrict?_sign hsign _

theorem readZoned?_writeInstant :
    readZoned? t.writeInstant = if 0 ≤ t.date.year ∧ t.date.year ≤ 9999 then some t else none := by
  rw [readZoned?, readZonedLoose?_writeInstant ht, Option.none_or, readStrict?_writeInstant ht]

omit ht in
theorem readDate?_write {d : Date} (hvalid : d.isValid = true) (hrange : d.isInRange = true) :
    readDate? d.write = some d := by
  have hread : date? id (d.write ++ []) = some (d, []) :=
    date?_write (fun _ => rfl) hvalid hrange []
  rw [List.append_nil] at hread
  rw [readDate?, hread]
  rfl

end NormalForms

end Changefeed.Calendar
