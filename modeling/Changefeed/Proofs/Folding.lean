import Changefeed.Text.Fold

/-!
# Folding is stable

No small letter of the table is itself a capital or a variant, and no letter that stands for a
variant is. Hence folding a character a second time changes nothing, and neither does folding a
text. The table is checked range against range, not letter by letter: the small letters of a range
form a range again, and two ranges are apart if their bounds are or if they take every other code
point in turn.
-/

namespace Changefeed.Lowercase

def Range.image (r : Range) : Range where
  first := (r.first + r.offset).toNat
  last := (r.last + r.offset).toNat
  step := r.step
  offset := 0

def Range.apart (r q : Range) : Bool :=
  Nat.blt r.last q.first || Nat.blt q.last r.first ||
    ((r.step == 2 || r.first == r.last) && q.step == 2 && r.first % 2 != q.first % 2)

def Range.sound (r : Range) : Bool :=
  decide (0 ≤ r.first + r.offset) &&
    (Nat.blt r.image.last 0xD800 || Nat.blt 0xDFFF r.image.first && Nat.blt r.image.last 0x110000)

theorem Range.not_contains_of_apart {r q : Range} (h : r.apart q = true) {n : Nat}
    (hn : r.contains n = true) : q.contains n = false := by
  simp only [Range.contains, Bool.and_eq_true, decide_eq_true_eq, beq_iff_eq] at hn
  obtain ⟨⟨hfirst, hlast⟩, hstep⟩ := hn
  simp only [Range.apart, Bool.or_eq_true, Nat.blt_eq, Bool.and_eq_true, beq_iff_eq,
    bne_iff_ne, ne_eq] at h
  rw [Bool.eq_false_iff]
  simp only [Range.contains, ne_eq, Bool.and_eq_true, decide_eq_true_eq, beq_iff_eq]
  intro h
  obtain ⟨⟨hfirst', hlast'⟩, hstep'⟩ := h
  rcases h with (h | h) | ⟨⟨hr | hr, hq⟩, hparity⟩
  · omega
  · omega
  · rw [hr] at hstep
    rw [hq] at hstep'
    omega
  · rw [hq] at hstep'
    omega

theorem Range.image_contains {r : Range} (h : r.sound = true) {n : Nat}
    (hn : r.contains n = true) : r.image.contains (n + r.offset).toNat = true := by
  simp only [Range.contains, Bool.and_eq_true, decide_eq_true_eq, beq_iff_eq] at hn ⊢
  obtain ⟨⟨hfirst, hlast⟩, hstep⟩ := hn
  have hpos : (0 : Int) ≤ r.first + r.offset := by
    simp only [Range.sound, Bool.and_eq_true, decide_eq_true_eq] at h
    exact h.1
  have hshift : (n + r.offset).toNat - r.image.first = n - r.first := by
    simp only [Range.image]
    omega
  refine ⟨⟨?_, ?_⟩, ?_⟩
  · simp only [Range.image]; omega
  · simp only [Range.image]; omega
  · rw [hshift]; exact hstep

theorem Range.isValidChar_image {r : Range} (h : r.sound = true) {n : Nat}
    (hn : r.image.contains n = true) : n.isValidChar := by
  simp only [Range.contains, Bool.and_eq_true, decide_eq_true_eq] at hn
  simp only [Range.sound, Bool.and_eq_true, Bool.or_eq_true, Nat.blt_eq] at h
  simp only [Nat.isValidChar]
  omega

theorem ranges_sound : ranges.all Range.sound = true := by decide +kernel

/-- The code point of the capital with two small characters is like a range of its own. -/
def dotted : Range := ⟨0x130, 0x130, 1, 0⟩

theorem ranges_apart :
    ranges.all (fun r => (dotted :: ranges).all r.image.apart) = true := by decide +kernel

theorem toNat_shift {table : List Range} {c : Char} {r : Range}
    (hr : table.find? (·.contains c.toNat) = some r) (hsound : r.sound = true) :
    ((shift table c).toNat : Int) = c.toNat + r.offset ∧
      r.image.contains (shift table c).toNat = true := by
  have hcontains : r.contains c.toNat = true := by simpa using List.find?_some hr
  have himage := Range.image_contains hsound hcontains
  have hvalid := Range.isValidChar_image hsound himage
  have hc : (shift table c).toNat = (c.toNat + r.offset).toNat := by
    unfold shift
    rw [hr]
    dsimp only
    unfold Char.ofNat
    rw [dif_pos hvalid]
    rfl
  rw [hc]
  refine ⟨?_, himage⟩
  simp only [Range.sound, Bool.and_eq_true, decide_eq_true_eq] at hsound
  simp only [Range.contains, Bool.and_eq_true, decide_eq_true_eq] at hcontains
  omega

theorem shift_eq_self {table : List Range} {c : Char}
    (h : ∀ q ∈ table, q.contains c.toNat = false) : shift table c = c := by
  have hnone : table.find? (·.contains c.toNat) = none :=
    List.find?_eq_none.2 fun q hq => by simp [h q hq]
  rw [shift, hnone]

theorem toNat_simple {c : Char} {r : Range} (hr : ranges.find? (·.contains c.toNat) = some r) :
    r ∈ ranges ∧ r.image.contains (simple c).toNat = true := by
  have hmem := List.mem_of_find?_eq_some hr
  exact ⟨hmem, (toNat_shift hr (List.all_eq_true.1 ranges_sound r hmem)).2⟩

theorem ofChar_eq_self {c : Char} (hdot : dotted.contains c.toNat = false)
    (hranges : ∀ q ∈ ranges, q.contains c.toNat = false) : ofChar c = [c] := by
  have hne : c ≠ '\u0130' := by
    intro hc
    subst hc
    revert hdot
    decide
  rw [ofChar, if_neg hne, simple, shift_eq_self hranges]

theorem ofChar_of_image {c : Char} {r : Range} (hr : r ∈ ranges)
    (hc : r.image.contains c.toNat = true) : ofChar c = [c] := by
  have hapart := List.all_eq_true.1 (List.all_eq_true.1 ranges_apart r hr)
  exact ofChar_eq_self
    (Range.not_contains_of_apart (hapart _ List.mem_cons_self) hc)
    fun q hq => Range.not_contains_of_apart (hapart q (List.mem_cons_of_mem _ hq)) hc

end Changefeed.Lowercase

namespace Changefeed.Fold

/-- The letters that are compared as another one, and those as which they are compared. -/
def variants : List Char :=
  ['ſ', '\u0345', '\u1FBE', 'ς', 'ϐ', 'ϑ', 'ϕ', 'ϖ', 'ϰ', 'ϱ', 'ϵ', 'ẛ', '\u1C80', '\u1C81',
    '\u1C82', '\u1C83', '\u1C84', '\u1C85', '\u1C86', '\u1C87', '\u1C88']

theorem variant_of_notMem {c : Char} (h : c ∉ variants) : variant c = c := by
  unfold variant
  split <;> first | exact absurd (by decide) h | rfl

theorem variants_not_image :
    (Lowercase.ranges.all fun r => variants.all fun v => !r.image.contains v.toNat) = true := by
  decide +kernel

theorem variants_stable : (variants.all fun v => ofChar (variant v) == [variant v]) = true := by
  decide +kernel

theorem dotted_stable : (ofChar '\u0130').flatMap ofChar = ofChar '\u0130' := by decide +kernel

theorem variant_of_image {c : Char} {r : Lowercase.Range} (hr : r ∈ Lowercase.ranges)
    (hc : r.image.contains c.toNat = true) : variant c = c := by
  refine variant_of_notMem fun hmem => ?_
  have hno := List.all_eq_true.1 (List.all_eq_true.1 variants_not_image r hr) c hmem
  simp [hc] at hno

theorem flatMap_ofChar_ofChar (c : Char) : (ofChar c).flatMap ofChar = ofChar c := by
  by_cases hdot : c = '\u0130'
  · subst hdot
    exact dotted_stable
  have hsmall : ofChar c = [variant (Lowercase.simple c)] := by
    simp [ofChar, Lowercase.ofChar, hdot]
  rw [hsmall, List.flatMap_singleton]
  cases hr : Lowercase.ranges.find? (·.contains c.toNat) with
  | some r =>
    obtain ⟨hmem, himage⟩ := Lowercase.toNat_simple hr
    have hvariant := variant_of_image hmem himage
    rw [hvariant, ofChar, Lowercase.ofChar_of_image hmem himage, List.map_singleton, hvariant]
  | none =>
    have hsimple : Lowercase.simple c = c := by simp [Lowercase.simple, Lowercase.shift, hr]
    by_cases hv : c ∈ variants
    · rw [hsimple]
      simpa using List.all_eq_true.1 variants_stable c hv
    · rw [← hsmall, hsimple, variant_of_notMem hv]

theorem ofList_ofList (s : List Char) : ofList (ofList s) = ofList s := by
  unfold ofList
  rw [List.flatMap_assoc]
  congr 1
  funext c
  exact flatMap_ofChar_ofChar c

theorem fold_fold (s : String) : fold (fold s) = fold s := by simp [fold, ofList_ofList]

end Changefeed.Fold
