/-!
# Lists keyed by text

Rows, counters and configuration sections are lists of pairs whose keys increase strictly in the
order of code points. A look-up after an insertion finds the inserted value (`find?_insert_self`)
and is otherwise unchanged (`find?_insert_of_ne`), and insertion keeps the order (`Sorted.insert`).
-/

namespace Changefeed.Keyed

variable {α β : Type}

def Sorted (l : List (String × α)) : Prop := l.Pairwise fun a b => a.1 < b.1

def find? (key : String) : List (String × α) → Option α
  | [] => none
  | (k, x) :: l => if k = key then some x else find? key l

def insert (key : String) (value : α) : List (String × α) → List (String × α)
  | [] => [(key, value)]
  | (k, x) :: l =>
    if key < k then (key, value) :: (k, x) :: l
    else if key = k then (key, value) :: l
    else (k, x) :: insert key value l

/-- The pairs in the order of their keys; of several pairs with one key the last one stays. -/
def ofList (l : List (String × α)) : List (String × α) :=
  l.foldl (fun acc p => insert p.1 p.2 acc) []

def alter (key : String) (start : α) (f : α → α) (l : List (String × α)) : List (String × α) :=
  insert key (f ((find? key l).getD start)) l

def mapValues (f : α → β) (l : List (String × α)) : List (String × β) :=
  l.map fun p => (p.1, f p.2)

theorem find?_insert_self (key : String) (value : α) (l : List (String × α)) :
    find? key (insert key value l) = some value := by
  induction l with
  | nil => simp [insert, find?]
  | cons p l ih =>
    obtain ⟨k, x⟩ := p
    rw [insert]
    split
    · simp [find?]
    · split
      · simp [find?]
      next h => simp [find?, Ne.symm h, ih]

theorem find?_insert_of_ne {key other : String} (h : key ≠ other) (value : α)
    (l : List (String × α)) : find? other (insert key value l) = find? other l := by
  induction l with
  | nil => simp [insert, find?, h]
  | cons p l ih =>
    obtain ⟨k, x⟩ := p
    rw [insert]
    split
    · simp [find?, h]
    · split
      next hk => subst hk; simp [find?, h]
      · simp [find?, ih]

theorem mem_insert {key : String} {value : α} {p : String × α} {l : List (String × α)}
    (h : p ∈ insert key value l) : p = (key, value) ∨ p ∈ l := by
  induction l with
  | nil => simpa [insert] using h
  | cons q l ih =>
    obtain ⟨k, x⟩ := q
    rw [insert] at h
    split at h
    · simpa using h
    · split at h
      · rcases List.mem_cons.1 h with h | h
        · exact .inl h
        · exact .inr (List.mem_cons_of_mem _ h)
      · rcases List.mem_cons.1 h with h | h
        · exact .inr (h ▸ List.mem_cons_self)
        · exact (ih h).imp_right (List.mem_cons_of_mem _)

theorem Sorted.insert {l : List (String × α)} (h : Sorted l) (key : String) (value : α) :
    Sorted (insert key value l) := by
  induction l with
  | nil => simp [Keyed.insert, Sorted]
  | cons p l ih =>
    obtain ⟨k, x⟩ := p
    have hl : Sorted l := List.Pairwise.of_cons h
    have hk : ∀ q ∈ l, k < q.1 := fun q hq => List.rel_of_pairwise_cons h hq
    rw [Keyed.insert]
    split
    next hlt =>
      refine List.pairwise_cons.2 ⟨fun q hq => ?_, h⟩
      rcases List.mem_cons.1 hq with rfl | hq
      · exact hlt
      · exact String.lt_trans hlt (hk q hq)
    next hnlt =>
      split
      next heq => subst heq; exact List.pairwise_cons.2 ⟨hk, hl⟩
      next hne =>
        refine List.pairwise_cons.2 ⟨fun q hq => ?_, ih hl⟩
        rcases mem_insert hq with rfl | hq
        · exact Decidable.by_contra fun hn => hne (String.le_antisymm
            (String.not_lt.1 hn) (String.not_lt.1 hnlt))
        · exact hk q hq

end Changefeed.Keyed
