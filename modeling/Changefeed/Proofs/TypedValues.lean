import Changefeed.Proofs.RowProjection

/-!
# Values of the declared type

A text either stands for one value of the column's type, which is then the value of the cell, or is
kept as it is (`Cell.decode?_text_iff`). Infinite dates and times are among the texts that are kept,
and so are numbers that no double can hold: whatever a cell holds, no number of its value is
infinite or undefined.
-/

namespace Changefeed

theorem TypeId.element?_eq_none {id : TypeId} (h : id.scalar ≠ .text) : id.element? = none := by
  rw [Option.eq_none_iff_forall_ne_some]
  intro element helement
  have hnone := List.all_eq_true.1 arrays_scalars _ (mem_arrays helement)
  simp only [Bool.and_eq_true, Option.isNone_iff_eq_none] at hnone
  exact h (by rw [scalar, hnone.1]; rfl)

namespace Column

inductive IsTyped (id : TypeId) (raw : String) : Value → Prop
  | scalar {v : Value} (h : IsScalar raw id.scalar v) : IsTyped id raw v
  | array {element : TypeId} {items : List Value} (h : id.element? = some element)
    (hitems : IsArray element raw items) : IsTyped id raw (.arr items)

variable {raw : String} {v : Value}

theorem parse_of_scalar {id : TypeId} (h : id.scalar ≠ .text) (raw : String) :
    parse id raw = parseScalar id.scalar raw := by
  rw [parse, TypeId.element?_eq_none h]

theorem IsTyped.parse_eq {id : TypeId} (h : IsTyped id raw v) : parse id raw = .ok v := by
  cases h with
  | scalar h =>
    rw [parse_of_scalar h.type_ne_text]
    exact h.parseScalar_eq
  | array h hitems => exact (parse_eq_ok_iff h).2 ⟨_, hitems, rfl⟩

theorem isTyped_of_parse {id : TypeId} (h : parse id raw = .ok v) :
    IsTyped id raw v ∨ v = .str raw := by
  cases helement : id.element? with
  | none =>
    rw [parse, helement] at h
    exact (isScalar_of_parseScalar h).imp_left .scalar
  | some element =>
    obtain ⟨items, hitems, rfl⟩ := (parse_eq_ok_iff helement).1 h
    exact .inl (.array helement hitems)

end Column

namespace Cell

variable {id : TypeId} {raw : String} {v : Value}

theorem decode?_of_parse (h : Column.parse id raw = .ok v) : decode? id (.text raw) = some v := by
  rw [decode?, h]

theorem isTyped_of_decode? (h : decode? id (.text raw) = some v) :
    Column.IsTyped id raw v ∨ v = .str raw := by
  cases hparse : Column.parse id raw with
  | ok w =>
    rw [decode?_of_parse hparse] at h
    exact Option.some.inj h ▸ Column.isTyped_of_parse hparse
  | error fault =>
    rw [decode?, hparse] at h
    exact .inr (Option.some.inj h).symm

theorem decode?_text_iff :
    decode? id (.text raw) = some v ↔
      Column.IsTyped id raw v ∨ v = .str raw ∧ ∀ w, ¬ Column.IsTyped id raw w := by
  constructor
  · intro h
    by_cases hany : ∃ w, Column.IsTyped id raw w
    · obtain ⟨w, hw⟩ := hany
      rw [decode?_of_parse hw.parse_eq] at h
      exact .inl (Option.some.inj h ▸ hw)
    · rw [not_exists] at hany
      exact .inr ⟨(isTyped_of_decode? h).resolve_left (hany v), hany⟩
  · rintro (h | ⟨rfl, hnone⟩)
    · exact decode?_of_parse h.parse_eq
    · have hsent : decode? id (.text raw) ≠ none := by
        intro h
        cases decode?_eq_none_iff.1 h
      obtain ⟨w, hw⟩ := Option.ne_none_iff_exists'.1 hsent
      rw [hw, (isTyped_of_decode? hw).resolve_left (hnone w)]

end Cell
end Changefeed
