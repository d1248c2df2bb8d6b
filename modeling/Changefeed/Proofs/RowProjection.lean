import Changefeed.Proofs.Emission
import Mathlib.Data.List.Induction

/-!
# From cells to rows

The cells of a row change are paired with the columns of the relation by position. A name of the row
has the value of the last position under which a value of that name was sent
(`Relation.find?_row_eq_some_iff`): a cell that did not change, or that has no column, neither takes
an earlier value away nor moves a later one.
-/

namespace Changefeed

theorem findSome?_reverse_eq_some_iff {α β : Type} {f : α → Option β} {l : List α} {b : β} :
    l.reverse.findSome? f = some b ↔
      ∃ before a after, l = before ++ a :: after ∧ f a = some b ∧ ∀ x ∈ after, f x = none := by
  rw [List.findSome?_eq_some_iff]
  constructor
  · rintro ⟨after, a, before, hsplit, ha, hafter⟩
    refine ⟨before.reverse, a, after.reverse, ?_, ha, ?_⟩
    · rw [← List.reverse_reverse l, hsplit]
      simp
    · intro x hx
      exact hafter x (List.mem_reverse.1 hx)
  · rintro ⟨before, a, after, rfl, ha, hafter⟩
    refine ⟨after.reverse, a, before.reverse, by simp, ha, ?_⟩
    intro x hx
    exact hafter x (List.mem_reverse.1 hx)

theorem exists_split_iff_getElem? {α : Type} {l : List α} {p q : α → Prop} :
    (∃ before a after, l = before ++ a :: after ∧ p a ∧ ∀ x ∈ after, q x) ↔
      ∃ i : Nat, (∃ a, l[i]? = some a ∧ p a) ∧ ∀ j : Nat, i < j → ∀ a, l[j]? = some a → q a := by
  constructor
  · rintro ⟨before, a, after, rfl, ha, hafter⟩
    refine ⟨before.length, ⟨a, by simp, ha⟩, ?_⟩
    intro j hj x hx
    obtain ⟨k, rfl⟩ : ∃ k, j = before.length + (k + 1) := ⟨j - before.length - 1, by omega⟩
    rw [List.getElem?_append_right (by omega), Nat.add_sub_cancel_left,
      List.getElem?_cons_succ] at hx
    exact hafter x (List.mem_of_getElem? hx)
  · rintro ⟨i, ⟨a, hi, ha⟩, hlater⟩
    obtain ⟨hlt, rfl⟩ := List.getElem?_eq_some_iff.1 hi
    refine ⟨l.take i, l[i], l.drop (i + 1), ?_, ha, ?_⟩
    · rw [← List.drop_eq_getElem_cons hlt, List.take_append_drop]
    · intro x hx
      obtain ⟨k, hk⟩ := List.mem_iff_getElem?.1 hx
      rw [List.getElem?_drop] at hk
      exact hlater _ (by omega) x hk

theorem Cell.decode?_eq_none_iff {id : TypeId} {c : Cell} :
    c.decode? id = none ↔ c = .unchanged := by
  cases c with
  | text raw => cases h : Column.parse id raw <;> simp [decode?, h]
  | _ => simp [decode?]

theorem Event.addColumns_concat (row : Row) (columns : List Column) (c : Column) :
    addColumns row (columns ++ [c]) = Keyed.insert c.name c.value (addColumns row columns) := by
  simp [addColumns]

namespace Relation

def row (r : Relation) (cells : List Cell) : Row := Event.addColumns [] (r.decodeRow cells)

/-- The cell at a position has a column of that name, and its value was sent. -/
def Sends (r : Relation) (cells : List Cell) (name : String) (i : Nat) : Prop :=
  ∃ cell column, cells[i]? = some cell ∧ r.columns[i]? = some column ∧ column.name = name ∧
    cell ≠ .unchanged

def sent? (p : Cell × RelationColumn) : Option Column :=
  (p.1.decode? p.2.typeId).map fun value => ⟨p.2.name, value, p.2.isKey⟩

def sentAs? (name : String) (p : Cell × RelationColumn) : Option Value :=
  if p.2.name = name then p.1.decode? p.2.typeId else none

theorem find?_addColumns_sent (name : String) (pairs : List (Cell × RelationColumn)) :
    Keyed.find? name (Event.addColumns [] (pairs.filterMap sent?)) =
      pairs.reverse.findSome? (sentAs? name) := by
  induction pairs using List.reverseRecOn with
  | nil => rfl
  | append_singleton pairs p ih =>
    rw [List.filterMap_append, List.reverse_append, List.reverse_singleton,
      List.singleton_append, List.findSome?_cons]
    cases hp : p.1.decode? p.2.typeId with
    | none =>
      have hnone : sentAs? name p = none := by rw [sentAs?, hp, ite_self]
      rw [hnone, List.filterMap_cons, sent?, hp]
      simpa using ih
    | some v =>
      have hsent : sent? p = some ⟨p.2.name, v, p.2.isKey⟩ := by rw [sent?, hp]; rfl
      rw [List.filterMap_cons, hsent, List.filterMap_nil, Event.addColumns_concat]
      by_cases hname : p.2.name = name
      · rw [sentAs?, if_pos hname, hp, ← hname]
        exact Keyed.find?_insert_self ..
      · rw [sentAs?, if_neg hname]
        rw [Keyed.find?_insert_of_ne hname]
        exact ih

variable {r : Relation} {cells : List Cell} {name : String}

theorem sentAs?_eq_none_iff {p : Cell × RelationColumn} :
    sentAs? name p = none ↔ (p.2.name = name → p.1 = .unchanged) := by
  rw [sentAs?]
  by_cases hname : p.2.name = name
  · simp [hname, Cell.decode?_eq_none_iff]
  · simp [hname]

theorem not_sends_iff {i : Nat} :
    ¬ r.Sends cells name i ↔
      ∀ p, (cells.zip r.columns)[i]? = some p → sentAs? name p = none := by
  simp only [Sends, sentAs?_eq_none_iff, List.getElem?_zip_eq_some, Prod.forall, not_exists,
    not_and, and_imp, ne_eq, not_not]

theorem find?_row (r : Relation) (cells : List Cell) (name : String) :
    Keyed.find? name (r.row cells) =
      (cells.zip r.columns).reverse.findSome? (sentAs? name) :=
  find?_addColumns_sent name (cells.zip r.columns)

theorem find?_row_eq_some_iff {v : Value} :
    Keyed.find? name (r.row cells) = some v ↔
      ∃ i, (∃ cell column, cells[i]? = some cell ∧ r.columns[i]? = some column ∧
          column.name = name ∧ cell.decode? column.typeId = some v) ∧
        ∀ j, i < j → ¬ r.Sends cells name j := by
  rw [find?_row, findSome?_reverse_eq_some_iff, exists_split_iff_getElem?]
  simp only [not_sends_iff, List.getElem?_zip_eq_some, Prod.exists, and_assoc, sentAs?,
    Option.ite_none_right_eq_some]

theorem isSome_find?_row_iff :
    (Keyed.find? name (r.row cells)).isSome ↔ ∃ i, r.Sends cells name i := by
  rw [find?_row, List.findSome?_isSome_iff]
  constructor
  · rintro ⟨p, hp, hsome⟩
    obtain ⟨i, hi⟩ := List.mem_iff_getElem?.1 (List.mem_reverse.1 hp)
    refine ⟨i, ?_⟩
    by_contra hnot
    rw [not_sends_iff.1 hnot p hi] at hsome
    cases hsome
  · rintro ⟨i, hi⟩
    by_contra hnone
    refine not_sends_iff.2 ?_ hi
    intro p hp
    by_contra hsome
    exact hnone ⟨p, List.mem_reverse.2 (List.mem_of_getElem? hp), Option.isSome_iff_ne_none.2 hsome⟩

end Relation

namespace Session

/-- The event of a row change of a registered relation. -/
theorem createAction_projects {s : Session} {id : RelationId} {r : Relation}
    (h : s.relations.get? id = some r) (kind : ActionKind) (old new : List Cell) (u : Uuid)
    (time : Timestamp) :
    ∃ a, s.createAction id kind old new = .ok a ∧
      let e := Event.blank.fill u a time
      e.schema = r.schema ∧ e.table = r.table ∧ e.action = kind.name ∧ e.time = time ∧
      e.data = r.row new ∧ e.dataOld = r.row old ∧
      ∀ cells, Keyed.Sorted (r.row cells) ∧ ∀ name,
        ((Keyed.find? name (r.row cells)).isSome ↔ ∃ i, r.Sends cells name i) ∧
        ∀ i cell column, cells[i]? = some cell → r.columns[i]? = some column →
          column.name = name → cell ≠ .unchanged → (∀ j, i < j → ¬ r.Sends cells name j) →
          Keyed.find? name (r.row cells) = cell.decode? column.typeId := by
  refine ⟨⟨r.schema, r.table, kind, r.decodeRow old, r.decodeRow new⟩, ?_, rfl, rfl, ?_, rfl, rfl,
    rfl, ?_⟩
  · rw [createAction, h]
  · exact String.empty_append
  · intro cells
    refine ⟨Event.sorted_addColumns List.Pairwise.nil _, fun name =>
      ⟨Relation.isSome_find?_row_iff, ?_⟩⟩
    intro i cell column hcell hcolumn hname hsent hlast
    obtain ⟨v, hv⟩ := Option.ne_none_iff_exists'.1 (mt Cell.decode?_eq_none_iff.1 hsent)
    rw [hv]
    exact Relation.find?_row_eq_some_iff.2 ⟨i, ⟨cell, column, hcell, hcolumn, hname, hv⟩, hlast⟩

def repeated : Relation :=
  ⟨"public", "docs", [⟨"a", 23, -1, true⟩, ⟨"b", 25, -1, false⟩, ⟨"a", 25, -1, false⟩]⟩

def repeatedCells : List Cell := [.text "1", .text "x", .unchanged, .text "y"]

/-- The second value of the name did not change and the fourth cell has no column, so the first
value stays. -/
theorem createAction_projects_repeated :
    let s := (Session.new ⟨.empty, .silent, 0⟩).register 1 repeated
    s.relations.get? 1 = some repeated ∧
      ∃ a, s.createAction 1 .update [.null] repeatedCells = .ok a ∧
        Keyed.find? "a" (Event.blank.fill .nil a .epoch).data = some (.int 1) := by
  intro s
  have hget : s.relations.get? 1 = some repeated := RelationCache.get?_update_self ..
  obtain ⟨a, ha, -, -, -, -, hdata, -, hrow⟩ :=
    createAction_projects hget .update [.null] repeatedCells .nil .epoch
  refine ⟨hget, a, ha, ?_⟩
  have hlast : ∀ j, 0 < j → ¬ repeated.Sends repeatedCells "a" j := by
    rintro j hj ⟨cell, column, hcell, hcolumn, hname, hsent⟩
    match j with
    | 1 =>
      cases hcolumn
      exact absurd hname (by decide)
    | 2 =>
      cases hcell
      exact hsent rfl
    | n + 3 => cases hcolumn
  rw [hdata, ((hrow repeatedCells).2 "a").2 0 _ _ rfl rfl rfl (by decide) hlast]
  rfl

end Session

end Changefeed
