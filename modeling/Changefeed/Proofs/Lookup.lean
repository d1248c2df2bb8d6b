import Changefeed.Keyed

/-!
# Look-ups in keyed lists

An altered list differs from the old one under the altered key only. In a list whose keys increase
strictly the pairs are just the hits of look-ups.
-/

namespace Changefeed.Keyed

variable {α : Type}

theorem find?_alter (key other : String) (start : α) (f : α → α) (l : List (String × α)) :
    find? other (alter key start f l) =
      if key = other then some (f ((find? key l).getD start)) else find? other l := by
  unfold alter
  split
  next h =>
    subst h
    exact find?_insert_self ..
  next h => exact find?_insert_of_ne h ..

theorem Sorted.alter {l : List (String × α)} (h : Sorted l) (key : String) (start : α)
    (f : α → α) : Sorted (alter key start f l) :=
  h.insert key _

theorem mem_of_find? {l : List (String × α)} {key : String} {x : α} (h : find? key l = some x) :
    (key, x) ∈ l := by
  induction l with
  | nil => simp [find?] at h
  | cons p l ih =>
    obtain ⟨k, y⟩ := p
    rw [find?] at h
    split at h
    next hk =>
      subst hk
      obtain rfl : y = x := Option.some.inj h
      exact List.mem_cons_self
    next => exact List.mem_cons_of_mem _ (ih h)

theorem isSome_find?_iff {l : List (String × α)} {key : String} :
    (find? key l).isSome ↔ key ∈ l.map Prod.fst := by
  induction l with
  | nil => simp [find?]
  | cons p l ih =>
    obtain ⟨k, y⟩ := p
    rw [find?, List.map_cons, List.mem_cons, ← ih]
    split
    next hk => simp [hk]
    next hk => simp [Ne.symm hk]

theorem Sorted.find?_eq_some_iff {l : List (String × α)} (h : Sorted l) {key : String} {x : α} :
    find? key l = some x ↔ (key, x) ∈ l := by
  refine ⟨mem_of_find?, fun hmem => ?_⟩
  induction l with
  | nil => simp at hmem
  | cons p l ih =>
    obtain ⟨k, y⟩ := p
    rw [find?]
    rcases List.mem_cons.1 hmem with heq | hmem
    · obtain ⟨rfl, rfl⟩ := Prod.mk.inj heq
      simp
    · have hlt : k < key := List.rel_of_pairwise_cons h hmem
      have hne : k ≠ key := by
        intro heq
        subst heq
        exact String.lt_irrefl _ hlt
      rw [if_neg hne]
      exact ih (List.Pairwise.of_cons h) hmem

theorem find?_of_first (property : String → Bool) {l : List (String × α)} {key : String}
    {x : α} (h : l.find? (fun p => property p.1) = some (key, x)) : find? key l = some x := by
  have hkey : property key = true := by simpa using List.find?_some h
  induction l with
  | nil => simp at h
  | cons p l ih =>
    obtain ⟨k, y⟩ := p
    rw [find?]
    rw [List.find?_cons] at h
    split at h
    next => simp_all
    next hk =>
      have hne : k ≠ key := by
        intro heq
        subst heq
        simp [hkey] at hk
      rw [if_neg hne]
      exact ih h

end Changefeed.Keyed
