import Changefeed.Filter
import Changefeed.Proofs.Folding
import Changefeed.Text.CaseFolding
import Mathlib.Data.List.Chain

/-!
# Words that are equal but for case

Two texts have one fold just if they are equal under the simple case folding of Unicode, except
where the fold misses it (`CaseFolding.fold_eq_iff`): four small letters that are variants of other
ones stay as they are, and the capital I with a dot above counts as two characters.

The tables of small letters and of simple case folding have the same ranges but for the Cherokee
letters, which are folded the other way, and the variants. So what a character is folded to under
one of them can be told from what it is folded to under the other.
-/

namespace Changefeed

namespace Lowercase

def Range.before (r q : Range) : Bool := Nat.ble r.first r.last && Nat.blt r.last q.first

instance : Trans (fun r q => Range.before r q = true) (fun r q => Range.before r q = true)
    (fun r q => Range.before r q = true) where
  trans := by
    intro a b c hab hbc
    simp only [Range.before, Bool.and_eq_true, Nat.ble_eq, Nat.blt_eq] at hab hbc ⊢
    omega

def Increasing (table : List Range) : Prop := table.Pairwise fun r q => r.before q = true

theorem increasing_of_isChain {table : List Range}
    (h : table.IsChain fun r q => r.before q = true) : Increasing table :=
  List.isChain_iff_pairwise.1 h

theorem find?_of_contains {table : List Range} (htable : Increasing table) {r : Range}
    (hr : r ∈ table) {n : Nat} (hn : r.contains n = true) :
    table.find? (·.contains n) = some r := by
  induction table with
  | nil => cases hr
  | cons q table ih =>
    rw [List.find?_cons]
    rcases List.mem_cons.1 hr with rfl | hr
    · rw [hn]
    · have hbefore := List.rel_of_pairwise_cons htable hr
      simp only [Range.before, Bool.and_eq_true, Nat.ble_eq, Nat.blt_eq] at hbefore
      have hq : q.contains n = false := by
        simp only [Range.contains, Bool.and_eq_true, decide_eq_true_eq] at hn
        simp only [Range.contains, Bool.and_eq_false_iff, decide_eq_false_iff_not]
        omega
      rw [hq]
      exact ih htable.of_cons hr

theorem shift_of_contains {table : List Range} (htable : Increasing table) {r : Range}
    (hr : r ∈ table) {c : Char} (hc : r.contains c.toNat = true) :
    shift table c = Char.ofNat (c.toNat + r.offset).toNat := by
  rw [shift, find?_of_contains htable hr hc]

theorem ranges_increasing : Increasing ranges := increasing_of_isChain (by decide +kernel)

def Range.back (r : Range) : Range := { r.image with offset := -r.offset }

theorem shift_back {t u : List Range} (ht : Increasing t) (hu : Increasing u) {r : Range}
    (hr : r ∈ t) (hback : r.back ∈ u) (hsound : r.sound = true) {c : Char}
    (hc : r.contains c.toNat = true) : shift u (shift t c) = c := by
  obtain ⟨hnat, himage⟩ := toNat_shift (find?_of_contains ht hr hc) hsound
  rw [shift_of_contains hu hback himage, hnat]
  have hoffset : c.toNat + r.offset + r.back.offset = c.toNat := by
    simp only [Range.back]
    omega
  rw [hoffset, Int.toNat_natCast, Char.ofNat_toNat]

end Lowercase

namespace Fold

/-- What a character with a single small form is folded to. -/
def letter (c : Char) : Char := variant (Lowercase.simple c)

theorem ofChar_eq {c : Char} (h : c ≠ '\u0130') : ofChar c = [letter c] := by
  rw [ofChar, Lowercase.ofChar, if_neg h]
  rfl

theorem letter_letter (c : Char) : letter (letter c) = letter c := by
  by_cases hdot : c = '\u0130'
  · subst hdot
    decide
  · have hstable := flatMap_ofChar_ofChar c
    rw [ofChar_eq hdot, List.flatMap_singleton] at hstable
    have hne : letter c ≠ '\u0130' := by
      intro heq
      rw [heq] at hstable
      revert hstable
      decide
    rw [ofChar_eq hne] at hstable
    exact List.head_eq_of_cons_eq hstable

/-- The characters of a text, the capital I with a dot above in two parts. -/
def parts (s : List Char) : List Char :=
  s.flatMap fun c => if c = '\u0130' then ['i', '\u0307'] else [c]

theorem ofList_eq (s : List Char) : ofList s = (parts s).map letter := by
  rw [ofList, parts, List.map_flatMap]
  congr 1
  funext c
  by_cases hdot : c = '\u0130'
  · subst hdot
    decide
  · rw [ofChar_eq hdot, if_neg hdot]
    rfl

end Fold

namespace CaseFolding

open Lowercase

theorem ranges_increasing : Increasing ranges := increasing_of_isChain (by decide +kernel)

/-- The capital Cherokee letters, which have small forms but are not folded. -/
def capitals : List Range := [⟨0x13A0, 0x13EF, 1, 38864⟩, ⟨0x13F0, 0x13F5, 1, 8⟩]

/-- The small Cherokee letters, which are folded to the capital ones. -/
def cherokee : List Range := [⟨0x13F8, 0x13FD, 1, -8⟩, ⟨0xAB70, 0xABBF, 1, -38864⟩]

/-- The small letters with a simple case folding that the fold leaves as they are. -/
def overlooked : List Char := ['µ', '\u1FD3', '\u1FE3', '\uFB05']

def isVariant (r : Range) : Bool :=
  (Fold.variants ++ overlooked).any fun c => r.first == c.toNat && r.last == c.toNat

theorem ranges_agree :
    ranges.filter (fun r => !(cherokee.contains r || isVariant r)) =
      Lowercase.ranges.filter (fun r => !capitals.contains r) := by
  decide +kernel

theorem cherokee_subset : cherokee.all (fun q => ranges.contains q) = true := by decide

theorem cherokee_increasing : Increasing cherokee := increasing_of_isChain (by decide)

theorem cherokee_sound : cherokee.all (fun q => q.sound) = true := by decide

theorem back_capitals : capitals.all (fun r => cherokee.contains r.back) = true := by decide

theorem back_cherokee :
    cherokee.all (fun q => Lowercase.ranges.contains q.back) = true := by decide

theorem capitals_apart : ranges.all (fun q => capitals.all fun r => r.apart q) = true := by
  decide

theorem images_apart :
    Lowercase.ranges.all (fun r => capitals.contains r || cherokee.all fun q => r.image.apart q) =
      true := by
  decide

theorem variants_not_cherokee :
    cherokee.all (fun q => Fold.variants.all fun v => !q.contains v.toNat) = true := by decide

def known (c : Char) : Char := if c ∈ overlooked then c else simple c

theorem known_variants :
    (Fold.variants ++ overlooked).all (fun c => known c == shift cherokee (Fold.letter c)) =
      true := by
  decide

theorem mem_ranges_cases {q : Range} (hq : q ∈ ranges) :
    q ∈ cherokee ∨ isVariant q = true ∨ q ∈ Lowercase.ranges := by
  by_cases hown : (cherokee.contains q || isVariant q) = true
  · rcases Bool.or_eq_true_iff.1 hown with h | h
    · exact .inl (by simpa using h)
    · exact .inr (.inl h)
  · have hmem : q ∈ ranges.filter fun r => !(cherokee.contains r || isVariant r) :=
      List.mem_filter.2 ⟨hq, by simpa using hown⟩
    rw [ranges_agree] at hmem
    exact .inr (.inr (List.mem_of_mem_filter hmem))

theorem mem_ranges_of_lowercase {r : Range} (hr : r ∈ Lowercase.ranges) (hcapital : r ∉ capitals) :
    r ∈ ranges := by
  have hmem : r ∈ Lowercase.ranges.filter fun r => !capitals.contains r :=
    List.mem_filter.2 ⟨hr, by simpa using hcapital⟩
  rw [← ranges_agree] at hmem
  exact List.mem_of_mem_filter hmem

theorem notMem_of_isVariant {q : Range} (hq : isVariant q = true) {c : Char}
    (hc : c ∉ Fold.variants ++ overlooked) : q.contains c.toNat = false := by
  obtain ⟨d, hd, heq⟩ := List.any_eq_true.1 hq
  rw [Bool.and_eq_true, beq_iff_eq, beq_iff_eq] at heq
  rw [Bool.eq_false_iff]
  intro hcontains
  simp only [Range.contains, Bool.and_eq_true, decide_eq_true_eq] at hcontains
  obtain rfl : c = d := Char.toNat_inj.1 (by omega)
  exact hc hd

theorem simple_of_capital {r : Range} (hr : r ∈ capitals) {c : Char}
    (hc : r.contains c.toNat = true) : simple c = c := by
  apply shift_eq_self
  intro q hq
  have hapart := List.all_eq_true.1 (List.all_eq_true.1 capitals_apart q hq) r hr
  exact Range.not_contains_of_apart hapart hc

theorem simple_of_lowercase {r : Range} (hr : r ∈ Lowercase.ranges) (hcapital : r ∉ capitals)
    {c : Char} (hc : r.contains c.toNat = true) :
    simple c = Lowercase.simple c ∧ shift cherokee (Lowercase.simple c) = Lowercase.simple c := by
  have hsimple := shift_of_contains ranges_increasing (mem_ranges_of_lowercase hr hcapital) hc
  have hlower := shift_of_contains Lowercase.ranges_increasing hr hc
  refine ⟨hsimple.trans hlower.symm, ?_⟩
  apply shift_eq_self
  intro q hq
  have hapart := List.all_eq_true.1 images_apart r hr
  rw [Bool.or_eq_true, List.contains_iff_mem] at hapart
  have himage := (toNat_simple (find?_of_contains Lowercase.ranges_increasing hr hc)).2
  exact Range.not_contains_of_apart (List.all_eq_true.1 (hapart.resolve_left hcapital) q hq) himage

/-- Of the characters without a small form only Cherokee letters have a folding, and variants. -/
theorem simple_of_small {c : Char} (hvariant : c ∉ Fold.variants ++ overlooked)
    (hsmall : ∀ r ∈ Lowercase.ranges, r.contains c.toNat = false) :
    simple c = shift cherokee c := by
  by_cases hcherokee : ∃ q ∈ cherokee, q.contains c.toNat = true
  · obtain ⟨q, hq, hc⟩ := hcherokee
    have hmem : q ∈ ranges := by simpa using List.all_eq_true.1 cherokee_subset q hq
    rw [simple, shift_of_contains ranges_increasing hmem hc,
      shift_of_contains cherokee_increasing hq hc]
  · have hnone : ∀ q ∈ cherokee, q.contains c.toNat = false := by simpa using hcherokee
    rw [shift_eq_self hnone]
    apply shift_eq_self
    intro q hq
    rcases mem_ranges_cases hq with hq | hq | hq
    · exact hnone q hq
    · exact notMem_of_isVariant hq hvariant
    · exact hsmall q hq

theorem known_eq (c : Char) : known c = shift cherokee (Fold.letter c) := by
  by_cases hown : c ∈ Fold.variants ++ overlooked
  · simpa using List.all_eq_true.1 known_variants c hown
  obtain ⟨hvariant, hoverlooked⟩ := not_or.1 (mt List.mem_append.2 hown)
  rw [known, if_neg hoverlooked, Fold.letter]
  cases hr : Lowercase.ranges.find? (·.contains c.toNat) with
  | some r =>
    obtain ⟨hmem, himage⟩ := toNat_simple hr
    have hc : r.contains c.toNat = true := by simpa using List.find?_some hr
    rw [Fold.variant_of_image hmem himage]
    by_cases hcapital : r ∈ capitals
    · have hback : r.back ∈ cherokee := by
        simpa using List.all_eq_true.1 back_capitals r hcapital
      rw [simple_of_capital hcapital hc, Lowercase.simple,
        shift_back Lowercase.ranges_increasing cherokee_increasing hmem hback
          (List.all_eq_true.1 ranges_sound r hmem) hc]
    · obtain ⟨hsimple, hsame⟩ := simple_of_lowercase hmem hcapital hc
      rw [hsame, hsimple]
  | none =>
    have hsmall : ∀ r ∈ Lowercase.ranges, r.contains c.toNat = false := by
      simpa using List.find?_eq_none.1 hr
    rw [simple_of_small hown hsmall, Lowercase.simple, shift_eq_self hsmall,
      Fold.variant_of_notMem hvariant]

theorem letter_known (c : Char) : Fold.letter (known c) = Fold.letter c := by
  rw [known_eq]
  by_cases hcherokee : ∃ q ∈ cherokee, q.contains (Fold.letter c).toNat = true
  · obtain ⟨q, hq, hc⟩ := hcherokee
    have hback : q.back ∈ Lowercase.ranges := by
      simpa using List.all_eq_true.1 back_cherokee q hq
    have hvariant : Fold.letter c ∉ Fold.variants := by
      intro hmem
      have hno := List.all_eq_true.1 (List.all_eq_true.1 variants_not_cherokee q hq) _ hmem
      simp [hc] at hno
    rw [Fold.letter, Lowercase.simple, shift_back cherokee_increasing Lowercase.ranges_increasing hq
      hback (List.all_eq_true.1 cherokee_sound q hq) hc, Fold.variant_of_notMem hvariant]
  · have hnone : ∀ q ∈ cherokee, q.contains (Fold.letter c).toNat = false := by
      simpa using hcherokee
    rw [shift_eq_self hnone, Fold.letter_letter]

theorem map_known_eq_iff {s t : List Char} :
    s.map known = t.map known ↔ s.map Fold.letter = t.map Fold.letter := by
  constructor
  · intro h
    simpa [Function.comp_def, letter_known] using congrArg (List.map Fold.letter) h
  · intro h
    simpa [Function.comp_def, ← known_eq] using congrArg (List.map (shift cherokee)) h

/-- Simple case folding but for the overlooked letters, of a text in which the capital I with a dot
above is in two parts. -/
def foldKnown (s : String) : String := String.ofList ((Fold.parts s.toList).map known)

theorem fold_eq_fold_iff {s t : String} :
    Fold.fold s = Fold.fold t ↔ foldKnown s = foldKnown t := by
  simp only [Fold.fold, foldKnown, String.ofList_inj, Fold.ofList_eq]
  exact map_known_eq_iff.symm

theorem foldKnown_eq {s : String} (h : ∀ c ∈ s.toList, c ≠ '\u0130' ∧ c ∉ overlooked) :
    foldKnown s = fold s := by
  have hparts : Fold.parts s.toList = s.toList := by
    rw [Fold.parts, List.flatMap_congr fun c hc => if_neg (h c hc).1, List.flatMap_singleton']
  rw [foldKnown, fold, hparts]
  congr 1
  exact List.map_congr_left fun c hc => if_neg (h c hc).2

theorem fold_eq_iff (s t : String) :
    (Fold.elem t [s] = true ↔ Fold.fold s = Fold.fold t) ∧
    (Fold.fold s = Fold.fold t ↔ foldKnown s = foldKnown t) ∧
    ((∀ c ∈ s.toList ++ t.toList, c ≠ '\u0130' ∧ c ∉ overlooked) →
      (Fold.fold s = Fold.fold t ↔ fold s = fold t)) := by
  refine ⟨by simp [Fold.elem, Fold.same_iff], fold_eq_fold_iff, ?_⟩
  intro h
  rw [fold_eq_fold_iff, foldKnown_eq fun c hc => h c (List.mem_append_left _ hc),
    foldKnown_eq fun c hc => h c (List.mem_append_right _ hc)]

theorem fold_eq_iff_greek :
    (∀ c ∈ "ΟΔΟΣ".toList ++ "οδος".toList, c ≠ '\u0130' ∧ c ∉ overlooked) ∧
      Fold.elem "οδος" ["ΟΔΟΣ"] = true := by
  have hwords : ∀ c ∈ "ΟΔΟΣ".toList ++ "οδος".toList, c ≠ '\u0130' ∧ c ∉ overlooked := by
    have hall : ("ΟΔΟΣ".toList ++ "οδος".toList).all
        (fun c => c ≠ '\u0130' ∧ c ∉ overlooked) = true := by decide
    intro c hc
    exact of_decide_eq_true (List.all_eq_true.1 hall c hc)
  obtain ⟨helem, -, hfold⟩ := fold_eq_iff "ΟΔΟΣ" "οδος"
  exact ⟨hwords, helem.2 ((hfold hwords).2 (by decide))⟩

/-- Each of the letters is equal to another one but for case, and the fold keeps the two apart; the
capital I with a dot above is not equal to a small i with a dot, and the fold takes it for one. -/
theorem fold_overlooked :
    (∀ c ∈ overlooked, fold (String.singleton c) = fold (String.singleton (simple c)) ∧
      Fold.fold (String.singleton c) ≠ Fold.fold (String.singleton (simple c))) ∧
    fold "\u0130" ≠ fold "i\u0307" ∧ Fold.fold "\u0130" = Fold.fold "i\u0307" := by
  refine ⟨?_, by decide⟩
  have hall : overlooked.all (fun c =>
      fold (String.singleton c) = fold (String.singleton (simple c)) ∧
        Fold.fold (String.singleton c) ≠ Fold.fold (String.singleton (simple c))) = true := by
    decide
  intro c hc
  exact of_decide_eq_true (List.all_eq_true.1 hall c hc)

end CaseFolding
end Changefeed
