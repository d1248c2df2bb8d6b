import Changefeed.Proofs.DayCount
import Changefeed.Proofs.TypedValues
import Mathlib.Data.List.DropRight

/-!
# Instants shown at an offset

A database shows an instant by the local time of some offset, with the offset after it. Whatever the
offset, the column holds the one normal form of the instant, and different instants have different
normal forms (`Cell.decode?_zonedText`). Which local time belongs to an instant is said by the count
of minutes (`Timestamp.ShownAs`), and there is just one (`Timestamp.shownAs_iff`).
-/

namespace Changefeed

namespace Clock

def microsText (nano : Nat) : List Char :=
  if nano = 0 then [] else '.' :: (Digits.padded 6 (nano / 1000)).rdropWhile (· == '0')

def zonedText (c : Clock) : List Char :=
  Digits.padded 2 c.hour ++ ':' :: (Digits.padded 2 c.minute ++ ':' ::
    (Digits.padded 2 c.second ++ microsText c.nano))

end Clock

namespace Timestamp

def offsetText (offset : Int) : List Char :=
  (if offset < 0 then '-' else '+') :: (Digits.padded 2 (offset.natAbs / 60) ++
    if offset.natAbs % 60 = 0 then [] else ':' :: Digits.padded 2 (offset.natAbs % 60))

def zonedText (l : Timestamp) (offset : Int) : String :=
  String.ofList (Digits.padded 4 l.date.year.toNat ++ '-' :: (Digits.padded 2 l.date.month ++
    '-' :: (Digits.padded 2 l.date.day ++ ' ' :: (l.clock.zonedText ++ offsetText offset))))

/-- At the instant, clocks that are `offset` minutes ahead of UTC show the local time, in a year of
at most four digits. -/
structure ShownAs (t : Timestamp) (offset : Int) (l : Timestamp) : Prop where
  instant : t.isValid = true
  micros : t.clock.nano % 1000 = 0
  offset_gt : -1440 < offset
  offset_lt : offset < 1440
  valid : l.isValid = true
  year : 0 ≤ l.date.year ∧ l.date.year ≤ 9999
  minute : l.minuteNumber = t.minuteNumber + offset
  second : l.clock.second = t.clock.second
  nano : l.clock.nano = t.clock.nano

theorem shownAs_iff {t l : Timestamp} {offset : Int} (ht : t.isValid = true)
    (hmicros : t.clock.nano % 1000 = 0) (hgt : -1440 < offset) (hlt : offset < 1440) :
    t.ShownAs offset l ↔ l = t.back (-offset) ∧ 0 ≤ l.date.year ∧ l.date.year ≤ 9999 := by
  obtain ⟨hdate, -, hclock⟩ := t.isValid_iff.1 ht
  obtain ⟨hsecond, hnano⟩ := t.seconds_back (-offset)
  have hgt' : -1440 < -offset := by omega
  have hlt' : -offset < 1440 := by omega
  have hback := isValid_back hdate hclock hgt' hlt'
  have hminute : (t.back (-offset)).minuteNumber = t.minuteNumber + offset := by
    rw [minuteNumber_back hdate hclock hgt' hlt', Int.sub_neg]
  constructor
  · intro h
    obtain ⟨hldate, -, hlclock⟩ := l.isValid_iff.1 h.valid
    exact ⟨eq_of_minuteNumber_eq ⟨hldate, hlclock⟩ hback (h.minute.trans hminute.symm)
      (h.second.trans hsecond.symm) (h.nano.trans hnano.symm), h.year⟩
  · rintro ⟨rfl, hyear⟩
    have hrange : (t.back (-offset)).date.isInRange = true := by
      simp only [Date.isInRange, Bool.and_eq_true, decide_eq_true_eq]
      omega
    exact ⟨ht, hmicros, hgt, hlt, (isValid_iff _).2 ⟨hback.1, hrange, hback.2⟩, hyear, hminute,
      hsecond, hnano⟩

theorem ShownAs.toUtc?_eq {t l : Timestamp} {offset : Int} (h : t.ShownAs offset l) :
    l.toUtc? offset = some t := by
  obtain ⟨hdate, -, hclock⟩ := l.isValid_iff.1 h.valid
  obtain ⟨htdate, hrange, htclock⟩ := t.isValid_iff.1 h.instant
  obtain ⟨hsecond, hnano⟩ := l.seconds_back offset
  have hminute := minuteNumber_back hdate hclock h.offset_gt h.offset_lt
  have hback : l.back offset = t := by
    refine eq_of_minuteNumber_eq (isValid_back hdate hclock h.offset_gt h.offset_lt)
      ⟨htdate, htclock⟩ ?_ (hsecond.trans h.second) (hnano.trans h.nano)
    rw [hminute, h.minute, Int.add_sub_cancel]
  simp [toUtc?, hback, hrange]

end Timestamp

namespace Calendar

variable {s : List Char}

theorem nanos_rdropWhile {ds : List Char} (hlen : ds.length ≤ 9) :
    nanos (ds.rdropWhile (· == '0')) = nanos ds := by
  have hzeros : ds.rtakeWhile (· == '0') =
      List.replicate (ds.rtakeWhile (· == '0')).length '0' := by
    refine List.eq_replicate_length.2 fun c hc => ?_
    simpa using List.mem_rtakeWhile_imp hc
  have hsplit : ds.rdropWhile (· == '0') ++ ds.rtakeWhile (· == '0') = ds :=
    List.rdropWhile_append_rtakeWhile
  have hsum := congrArg List.length hsplit
  rw [List.length_append] at hsum
  have hfill : 9 - (ds.rdropWhile (· == '0')).length =
      (ds.rtakeWhile (· == '0')).length + (9 - ds.length) := by omega
  rw [nanos, nanos, List.take_of_length_le hlen, List.take_of_length_le (by omega), hfill,
    ← List.replicate_append_replicate, ← hzeros, ← List.append_assoc, hsplit]

theorem fraction?_microsText {nano : Nat} (hlt : nano < 1000000000) (hmicros : nano % 1000 = 0)
    (hs : Digits.Stops s) (hpoint : ∀ c ∈ s.head?, c ≠ '.') :
    fraction? (Clock.microsText nano ++ s) = some (nano, s) := by
  unfold Clock.microsText
  split
  next hzero =>
    rw [hzero]
    exact fraction?_writeFraction (show 0 < 1000000000 by decide) hs hpoint
  next hpos =>
    have hwidth : nano / 1000 < 10 ^ 6 := by omega
    have hlen := Digits.length_padded (by decide) hwidth
    have hvalue : nanos ((Digits.padded 6 (nano / 1000)).rdropWhile (· == '0')) = nano := by
      rw [nanos_rdropWhile (by omega), nanos_padded (by decide) (by decide) hwidth]
      omega
    have hdigits : ∀ c ∈ (Digits.padded 6 (nano / 1000)).rdropWhile (· == '0'),
        c.isDigit = true := fun c hc =>
      Digits.isDigit_of_mem_padded ((List.rdropWhile_prefix _ _).subset hc)
    have hne : (Digits.padded 6 (nano / 1000)).rdropWhile (· == '0') ≠ [] := by
      intro hnil
      rw [hnil] at hvalue
      exact hpos hvalue.symm
    simp only [List.cons_append, fraction?, Digits.span_append hdigits hs]
    simp [hne, hvalue]

theorem offset?_sign {c : Char} {negative : Bool}
    (hc : c = '+' ∧ negative = false ∨ c = '-' ∧ negative = true) (mayLack : Bool) :
    offset? mayLack (c :: s) = do
      let (hours, s) ← twoDigits? s
      let (minutes, s) ← offsetMinutes? mayLack s
      return (← offsetOf? negative hours minutes, s) := by
  rcases hc with ⟨rfl, rfl⟩ | ⟨rfl, rfl⟩ <;> rfl

theorem offsetMinutes?_padded {n : Nat} (h : n < 100) (mayLack : Bool) :
    offsetMinutes? mayLack (':' :: Digits.padded 2 n) = some (n, []) := by
  have hread := twoDigits?_padded h []
  have hdigits : ∀ c ∈ Digits.padded 2 n, c.isDigit = true := fun _ => Digits.isDigit_of_mem_padded
  have hne := Digits.padded_ne_nil 2 n
  cases hds : Digits.padded 2 n with
  | nil => exact absurd hds hne
  | cons c ds =>
    rw [hds, List.append_nil] at hread
    have hc : c.isDigit = true := hdigits c (hds ▸ List.mem_cons_self)
    have hcolon : c ≠ ':' := by
      rintro rfl
      cases hc
    simp [offsetMinutes?, hcolon, Blank.isBlank_of_isDigit hc, hread]

theorem offsetOf?_natAbs {offset : Int} (hgt : -1440 < offset) (hlt : offset < 1440) :
    offsetOf? (decide (offset < 0)) (offset.natAbs / 60) (offset.natAbs % 60) = some offset := by
  rw [offsetOf?, if_pos (by omega)]
  simp only [decide_eq_true_eq, Option.some.injEq]
  split <;> omega

theorem offset?_offsetText {offset : Int} (hgt : -1440 < offset) (hlt : offset < 1440) :
    offset? true (Timestamp.offsetText offset) = some (offset, []) := by
  have hhours := twoDigits?_padded (n := offset.natAbs / 60) (by omega)
  have hminutes : offsetMinutes? true (if offset.natAbs % 60 = 0 then [] else
      ':' :: Digits.padded 2 (offset.natAbs % 60)) = some (offset.natAbs % 60, []) := by
    split
    next hzero => rw [hzero]; rfl
    next => exact offsetMinutes?_padded (by omega) true
  have hsign : (if offset < 0 then '-' else '+') = '+' ∧ decide (offset < 0) = false ∨
      (if offset < 0 then '-' else '+') = '-' ∧ decide (offset < 0) = true := by
    by_cases hneg : offset < 0 <;> simp [hneg]
  rw [Timestamp.offsetText, offset?_sign hsign]
  simp [hhours, hminutes, offsetOf?_natAbs hgt hlt]

theorem offsetText_starts (offset : Int) : Digits.Stops (Timestamp.offsetText offset) ∧
    (∀ c ∈ (Timestamp.offsetText offset).head?, c ≠ '.') ∧
    Blank.skip (Timestamp.offsetText offset) = Timestamp.offsetText offset := by
  have hsign (c : Char) (hc : c = '-' ∨ c = '+') :
      c.isDigit = false ∧ c ≠ '.' ∧ Blank.isBlank c = false := by
    rcases hc with rfl | rfl
    all_goals decide
  obtain ⟨hdigit, hpoint, hblank⟩ := hsign (if offset < 0 then '-' else '+') (by split <;> simp)
  refine ⟨Digits.stops_cons hdigit _, fun c hc => ?_, Blank.skip_cons hblank _⟩
  obtain rfl := Option.some.inj hc
  exact hpoint

theorem clock?_zonedText {c : Clock} (h : c.isValid = true) (hmicros : c.nano % 1000 = 0)
    (hs : Digits.Stops s) (hpoint : ∀ d ∈ s.head?, d ≠ '.') :
    clock? id (c.zonedText ++ s) = some (c, s) := by
  have hfraction := fraction?_microsText (Clock.nano_lt h) hmicros hs hpoint
  have hread := clock?_fields (fun s => id_eq (':' :: s)) h hfraction
  simpa [Clock.zonedText] using hread

theorem skip_zonedText (c : Clock) :
    Blank.skip (' ' :: (c.zonedText ++ s)) = c.zonedText ++ s := by
  have hskip := fun t => skip_digits (fun _ => Digits.isDigit_of_mem_padded)
    (Digits.padded_ne_nil 2 c.hour) t
  simp only [Clock.zonedText, List.append_assoc]
  exact hskip _

theorem local?_zonedText {t l : Timestamp} {offset : Int} (h : t.ShownAs offset l) :
    local? (l.zonedText offset).toList = some (l, Timestamp.offsetText offset) := by
  obtain ⟨hdate, hrange, hclock⟩ := l.isValid_iff.1 h.valid
  obtain ⟨hstops, hpoint, -⟩ := offsetText_starts offset
  have htext : (l.zonedText offset).toList =
      l.date.write ++ ' ' :: (l.clock.zonedText ++ Timestamp.offsetText offset) := by
    simp [Timestamp.zonedText, Date.write, Date.writeYear, h.year]
  have hread := clock?_zonedText hclock (h.nano ▸ h.micros) hstops hpoint
  rw [htext, local?, date?_write (fun _ => rfl) hdate hrange]
  simp [skip_zonedText, hread]

theorem readZoned?_zonedText {t l : Timestamp} {offset : Int} (h : t.ShownAs offset l) :
    readZoned? (l.zonedText offset).toList = some t := by
  obtain ⟨-, -, hskip⟩ := offsetText_starts offset
  have hoffset := offset?_offsetText h.offset_gt h.offset_lt
  have hloose : readZonedLoose? (l.zonedText offset).toList = some t := by
    simp [readZonedLoose?, local?_zonedText h, hskip, hoffset, whole?, h.toUtc?_eq]
  rw [readZoned?, hloose, Option.some_or]

end Calendar

namespace Timestamp

theorem writeInstant_injective {t u : Timestamp} (ht : t.isValid = true) (hu : u.isValid = true)
    (h : t.writeInstant = u.writeInstant) : t = u := by
  have hread := Calendar.readInstant?_writeInstant ht
  rw [h, Calendar.readInstant?_writeInstant hu] at hread
  exact (Option.some.inj hread).symm

def utcText (t : Timestamp) (width : Nat) : String :=
  String.ofList (t.date.write ++ 'T' :: (Digits.padded 2 t.clock.hour ++ ':' ::
    (Digits.padded 2 t.clock.minute ++ ':' :: (Digits.padded 2 t.clock.second ++
    ((if width = 0 then [] else '.' :: Digits.padded width (t.clock.nano / 10 ^ (9 - width))) ++
    ['Z'])))))

theorem instantText_eq_utcText {t : Timestamp} {width : Nat}
    (h : Clock.writeFraction t.clock.nano =
      if width = 0 then [] else '.' :: Digits.padded width (t.clock.nano / 10 ^ (9 - width))) :
    t.instantText = t.utcText width := by
  rw [instantText, utcText, ← h]
  simp [writeInstant, writeLocal, Clock.write]

theorem exists_utcText {t : Timestamp} (ht : t.isValid = true)
    (hmicros : t.clock.nano % 1000 = 0) :
    ∃ width ∈ [0, 3, 6], t.instantText = t.utcText width ∧
      ∀ w ∈ [0, 3, 6], width ≤ w ↔ t.clock.nano % 10 ^ (9 - w) = 0 := by
  have hlt := Clock.nano_lt (t.isValid_iff.1 ht).2.2
  have hfewest (width : Nat) (hle : width ≤ 6) (hzero : width = 0 ↔ t.clock.nano = 0)
      (hmillis : width ≤ 3 ↔ t.clock.nano % 1000000 = 0) :
      ∀ w ∈ [0, 3, 6], width ≤ w ↔ t.clock.nano % 10 ^ (9 - w) = 0 := by
    simp only [List.forall_mem_cons, List.not_mem_nil, false_imp_iff, implies_true, and_true]
    omega
  by_cases hzero : t.clock.nano = 0
  · refine ⟨0, by decide, instantText_eq_utcText ?_, hfewest 0 (by omega) (by omega) (by omega)⟩
    simp [Clock.writeFraction, hzero]
  by_cases hmillis : t.clock.nano % 1000000 = 0
  · refine ⟨3, by decide, instantText_eq_utcText ?_, hfewest 3 (by omega) (by omega) (by omega)⟩
    simp [Clock.writeFraction, hzero, hmillis]
  · refine ⟨6, by decide, instantText_eq_utcText ?_, hfewest 6 (by omega) (by omega) (by omega)⟩
    simp [Clock.writeFraction, hzero, hmillis, hmicros]

end Timestamp

namespace Cell

variable {t l : Timestamp} {offset : Int}

theorem decode?_of_shownAs (h : t.ShownAs offset l) :
    decode? 1184 (.text (l.zonedText offset)) = some (.str t.instantText) := by
  have hscalar : Column.IsScalar (l.zonedText offset) .zonedTime (.str t.instantText) :=
    .zonedTime (Calendar.readZoned?_zonedText h) h.instant
  exact decode?_of_parse (Column.IsTyped.scalar hscalar).parse_eq

/-- The column tells instants apart, and nothing else. -/
theorem decode?_zonedText (h : t.ShownAs offset l) :
    decode? 1184 (.text (l.zonedText offset)) = some (.str t.instantText) ∧
    (∃ width ∈ [0, 3, 6], t.instantText = t.utcText width ∧
      ∀ w ∈ [0, 3, 6], width ≤ w ↔ t.clock.nano % 10 ^ (9 - w) = 0) ∧
    ∀ t' offset' l', t'.ShownAs offset' l' →
      (decode? 1184 (.text (l'.zonedText offset')) = decode? 1184 (.text (l.zonedText offset)) ↔
        t' = t) := by
  refine ⟨decode?_of_shownAs h, Timestamp.exists_utcText h.instant h.micros, ?_⟩
  intro t' offset' l' h'
  rw [decode?_of_shownAs h, decode?_of_shownAs h']
  constructor
  · intro heq
    have htext : t'.instantText = t.instantText := Value.str.inj (Option.some.inj heq)
    exact Timestamp.writeInstant_injective h'.instant h.instant (String.ofList_injective htext)
  · rintro rfl
    rfl

/-- Half a second before a quarter to midnight on a leap day. -/
def leapDay : Timestamp := ⟨⟨2024, 2, 29⟩, ⟨23, 44, 59, 500000000⟩⟩

theorem decode?_zonedText_leapDay :
    leapDay.ShownAs 30 ⟨⟨2024, 3, 1⟩, ⟨0, 14, 59, 500000000⟩⟩ ∧
      decode? 1184 (.text "2024-03-01 00:14:59.5+00:30") =
        some (.str "2024-02-29T23:44:59.500Z") := by
  have hshown : leapDay.ShownAs 30 ⟨⟨2024, 3, 1⟩, ⟨0, 14, 59, 500000000⟩⟩ :=
    (Timestamp.shownAs_iff (by decide) (by decide) (by decide) (by decide)).2 (by decide)
  exact ⟨hshown, (decode?_zonedText hshown).1⟩

end Cell
end Changefeed
