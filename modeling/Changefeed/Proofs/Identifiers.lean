import Changefeed.Uuid
import Mathlib.Algebra.GroupWithZero.Nat
import Mathlib.Data.Option.Basic

/-!
# Identifiers read back

The grouped text of an identifier is not one of the other forms, and its digits give back all 128
bits (`Uuid.read?_write`).
-/

namespace Changefeed.Uuid

theorem length_digits (n x : Nat) : (digits n x).length = n := by
  induction n generalizing x with
  | zero => rfl
  | succ n ih => simp [digits, ih]

theorem digitChar_spec {n : Nat} (h : n < 16) : hexValue? (Nat.digitChar n) = some n ∧
    Nat.digitChar n ≠ '\x7b' ∧ (Nat.digitChar n).toLower ≠ 'u' := by
  revert n
  decide

theorem exists_of_mem_digits {n x : Nat} {c : Char} (h : c ∈ digits n x) :
    ∃ k < 16, c = Nat.digitChar k := by
  induction n generalizing x with
  | zero => cases h
  | succ n ih =>
    rcases List.mem_append.1 h with h | h
    · exact ih h
    · exact ⟨x % 16, Nat.mod_lt _ (by decide), List.mem_singleton.1 h⟩

theorem mapM_hexValue?_digits (n x : Nat) : ∃ ds, (digits n x).mapM hexValue? = some ds ∧
    ds.length = n ∧ ds.foldl (fun a d => 16 * a + d) 0 = x % 16 ^ n := by
  induction n generalizing x with
  | zero => exact ⟨[], rfl, rfl, by simp [Nat.mod_one]⟩
  | succ n ih =>
    obtain ⟨ds, hds, hlen, hvalue⟩ := ih (x / 16)
    have hlast := (digitChar_spec (Nat.mod_lt x (by decide : 0 < 16))).1
    refine ⟨ds ++ [x % 16], ?_, by simp [hlen], ?_⟩
    · simp [digits, hds, hlast]
    · rw [List.foldl_append, hvalue, Nat.pow_succ, Nat.mul_comm (16 ^ n), Nat.mod_mul]
      simp only [List.foldl_cons, List.foldl_nil]
      omega

theorem ofDigits?_digits (u : Uuid) : ofDigits? (digits 32 u.number.toNat) = some u := by
  obtain ⟨ds, hds, hlen, hvalue⟩ := mapM_hexValue?_digits 32 u.number.toNat
  have hlt : u.number.toNat % 16 ^ 32 = u.number.toNat := Nat.mod_eq_of_lt u.number.isLt
  rw [hlt] at hvalue
  simp [ofDigits?, hds, hlen, hvalue, guard]

theorem unhyphenate?_hyphenate {ns : List Nat} (hns : ns ≠ []) {s : List Char}
    (h : s.length = ns.sum) : unhyphenate? ns (hyphenate ns s) = some s := by
  fun_induction hyphenate ns s with
  | case1 => exact absurd rfl hns
  | case2 n s => simp [unhyphenate?, h]
  | case3 n ns s hne ih =>
    rw [List.sum_cons] at h
    have hlen : (s.take n).length = n := by
      rw [List.length_take]
      omega
    have hrest := ih hne (by rw [List.length_drop]; omega)
    have hdrop : (s.take n ++ '-' :: hyphenate ns (s.drop n)).drop n =
        '-' :: hyphenate ns (s.drop n) := List.drop_left' hlen
    have htake : (s.take n ++ '-' :: hyphenate ns (s.drop n)).take n = s.take n :=
      List.take_left' hlen
    rw [unhyphenate?, hdrop, htake]
    · simp [hrest]
    · exact hne

theorem ofGroups?_write (u : Uuid) : ofGroups? u.write = some u := by
  have hgroups : unhyphenate? groups u.write = some (digits 32 u.number.toNat) :=
    unhyphenate?_hyphenate (by decide) (length_digits 32 _)
  rw [ofGroups?, hgroups, Option.bind_eq_bind, Option.bind_some, ofDigits?_digits]

theorem ofDigits?_of_hyphen {s : List Char} (h : '-' ∈ s) : ofDigits? s = none := by
  have hnone : s.mapM hexValue? = none := by
    induction s with
    | nil => cases h
    | cons c s ih =>
      rcases List.mem_cons.1 h with rfl | h
      · rfl
      · simp [ih h]
  simp [ofDigits?, hnone]

theorem write_eq_cons (u : Uuid) : ∃ k < 16, ∃ s, u.write = Nat.digitChar k :: s ∧ '-' ∈ s := by
  have hgroup : u.write = (digits 32 u.number.toNat).take 8 ++
      '-' :: hyphenate [4, 4, 4, 12] ((digits 32 u.number.toNat).drop 8) := rfl
  cases hds : digits 32 u.number.toNat with
  | nil => simpa [length_digits] using congrArg List.length hds
  | cons c ds =>
    obtain ⟨k, hk, rfl⟩ := exists_of_mem_digits (hds ▸ List.mem_cons_self : c ∈ digits 32 _)
    exact ⟨k, hk, _, by rw [hgroup, hds]; rfl, by simp⟩

theorem dropWord?_urn {c : Char} (h : c.toLower ≠ 'u') (s : List Char) :
    Ascii.dropWord? "urn:uuid:".toList (c :: s) = none := by
  rw [Ascii.dropWord?, if_neg]
  rw [Ascii.sameWord_iff]
  exact fun heq => h (List.cons.inj heq).1

theorem read?_write (u : Uuid) : read? u.write = some u := by
  obtain ⟨k, hk, s, hwrite, hhyphen⟩ := u.write_eq_cons
  obtain ⟨-, hbrace, hlower⟩ := digitChar_spec hk
  have hplain : ofDigits? u.write = none :=
    ofDigits?_of_hyphen (hwrite ▸ List.mem_cons_of_mem _ hhyphen)
  have hgroups := u.ofGroups?_write
  rw [hwrite] at hplain hgroups ⊢
  rw [read?, dropWord?_urn hlower]
  · simp [hplain, hgroups]
  · intro t ht
    exact hbrace (List.cons.inj ht).1

end Changefeed.Uuid
