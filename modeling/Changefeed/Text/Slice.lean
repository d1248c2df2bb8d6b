import Mathlib.Data.String.Basic

/-!
# Parts of a text by bytes

A place in a text can be given by the number of bytes before it. Not every number is such a place:
it may lie beyond the end, or between the bytes of one character (`slice?`). The places at which a
word occurs are sound (`byteOf?_cases`).
-/

namespace Changefeed.Slice

open String (utf8Len)

/-- The text from a byte to another one; none if either is no place between two characters. -/
def slice? (s : String) (first last : Nat) : Option String :=
  if first ≤ last ∧ String.Pos.Raw.isValid s ⟨first⟩ ∧ String.Pos.Raw.isValid s ⟨last⟩ then
    some (String.Pos.Raw.extract s ⟨first⟩ ⟨last⟩)
  else none

def byteOf? (word : List Char) : List Char → Option Nat
  | [] => if word.isEmpty then some 0 else none
  | c :: s => if word.isPrefixOf (c :: s) then some 0 else (byteOf? word s).map (c.utf8Size + ·)

theorem isValid_append (l r : List Char) :
    String.Pos.Raw.isValid (String.ofList (l ++ r)) ⟨utf8Len l⟩ = true := by
  rw [String.Pos.Raw.isValid_eq_true_iff, String.Pos.Raw.isValid_iff_exists_append]
  exact ⟨String.ofList l, String.ofList r, String.ofList_append, (String.rawEndPos_ofList l).symm⟩

theorem slice?_append (l m r : List Char) :
    slice? (String.ofList (l ++ m ++ r)) (utf8Len l) (utf8Len l + utf8Len m) =
      some (String.ofList m) := by
  have hfirst := isValid_append l (m ++ r)
  have hlast := isValid_append (l ++ m) r
  rw [← List.append_assoc] at hfirst
  rw [String.utf8Len_append] at hlast
  rw [slice?, if_pos ⟨Nat.le_add_right _ _, hfirst, hlast⟩, String.extract_of_valid]

theorem slice?_rest (l m : List Char) :
    slice? (String.ofList (l ++ m)) (utf8Len l) (String.ofList (l ++ m)).utf8ByteSize =
      some (String.ofList m) := by
  have h := slice?_append l m []
  rwa [List.append_nil, ← String.utf8Len_append, ← String.utf8ByteSize_ofList (l ++ m)] at h

theorem byteOf?_cases (word : List Char) (hword : word ≠ []) (s : List Char) :
    (byteOf? word s = none ∧ ¬ word <:+: s) ∨
      ∃ before after, s = before ++ word ++ after ∧ ¬ word <:+: before ∧
        byteOf? word s = some (utf8Len before) := by
  induction s with
  | nil => exact .inl ⟨if_neg (by simpa using hword), by simpa using hword⟩
  | cons c s ih =>
    rw [byteOf?]
    split
    next hinit =>
      obtain ⟨after, hafter⟩ := List.isPrefixOf_iff_prefix.1 hinit
      exact .inr ⟨[], after, hafter.symm, by simpa using hword, rfl⟩
    next hinit =>
      rw [List.isPrefixOf_iff_prefix] at hinit
      rcases ih with ⟨hnone, hno⟩ | ⟨before, after, rfl, hno, hsome⟩
      · refine .inl ⟨by rw [hnone]; rfl, ?_⟩
        rw [List.infix_cons_iff]
        exact not_or.2 ⟨hinit, hno⟩
      · refine .inr ⟨c :: before, after, rfl, ?_, ?_⟩
        · rw [List.infix_cons_iff]
          refine not_or.2 ⟨fun h => hinit ?_, hno⟩
          simpa using h.trans (List.prefix_append (c :: before) (word ++ after))
        · rw [hsome, Option.map_some, String.utf8Len_cons, Nat.add_comm]

theorem byteOf?_char {c : Char} {before : List Char} (h : c ∉ before) (after : List Char) :
    byteOf? [c] (before ++ c :: after) = some (utf8Len before) := by
  induction before with
  | nil => simp [byteOf?]
  | cons d before ih =>
    obtain ⟨hd, hbefore⟩ := not_or.1 (mt List.mem_cons.2 h)
    rw [List.cons_append, byteOf?, if_neg (by simpa using hd), ih hbefore, Option.map_some,
      String.utf8Len_cons, Nat.add_comm]

end Changefeed.Slice
