import Changefeed.Proofs.FilterMeaning
import Changefeed.Proofs.Legibility
import Changefeed.Proofs.TypedValues
import Changefeed.Proofs.ValueWriting
import Mathlib

/-!
# The text that filters compare

An array or an object that a column of documents holds is rendered as a document, and reading that
document gives the same value again if its numbers are legible (`Cell.decode?_render`). So the text
that column filters compare tells just as much as the value, and a filter that lists it accepts the
value however it is spelled.
-/

namespace Changefeed

namespace Value

def HasParts : Value → Prop
  | .arr _ => True
  | .obj _ => True
  | _ => False

theorem HasParts.render_eq {v : Value} (h : v.HasParts) : v.render = v.toJson.text := by
  cases v with
  | arr | obj => rfl
  | _ => cases h

end Value

namespace TypeId

theorem scalar_eq_json {id : TypeId} (h : id = 114 ∨ id = 3802) : id.scalar = .json := by
  rcases h with rfl | rfl <;> rfl

end TypeId

namespace Column

theorem parseJson?_text {v : Value} (h : v.IsProper) (hlegible : v.All Value.IsLegible)
    (hdepth : v.depth ≤ Json.depthLimit) : parseJson? v.toJson.text = some v := by
  have hread : Json.ofText? v.toJson.text = some v.toJson :=
    Json.ofText?_text (v.hasDocument_toJson.isNormal hlegible)
  refine parseJson?_eq_some_iff.2 ⟨v.toJson, hread, hdepth, ?_⟩
  rw [(v.hasDocument_toJson).ofJson? h.ordered, Value.expressible_eq_self_iff.2 h.finite]

/-- A value that was read is nested no deeper than its text, so its own text is read too. -/
theorem parseJson?_text_of_parseJson? {raw : String} {v : Value} (h : parseJson? raw = some v)
    (hlegible : v.All Value.IsLegible) : parseJson? v.toJson.text = some v := by
  obtain ⟨j, -, hdepth, hv⟩ := parseJson?_eq_some_iff.1 h
  obtain ⟨hproper, hle⟩ := Value.isProper_of_ofJson? hv
  exact parseJson?_text hproper hlegible (hle.trans hdepth)

end Column

namespace Filter

theorem evaluate_ne_skipColumn {calls : List Call} {e : Event} {column : String} {v : Value}
    (hvalue : columnValue? column e.data = some v)
    (haccepts : Accepts calls e.table column v.render) (text : String) :
    (ofCalls calls).evaluate e ≠ .skipColumn column text := by
  have hsorted : Keyed.Sorted (rulesUnder (Fold.fold e.table) (ofCalls calls)) :=
    sorted_rulesUnder_foldl _ calls empty List.Pairwise.nil
  rw [evaluate_ofCalls]
  split
  next =>
    intro hskip
    obtain ⟨⟨values, hmem, hviolated⟩, -⟩ := (checkColumns_eq_skipColumn_iff hsorted).1 hskip
    obtain ⟨-, rfl⟩ := (mem_rulesUnder_iff calls ..).1 hmem
    rw [← elem_valuesUnder] at haccepts
    simp [violation?, hvalue, haccepts] at hviolated
  next => simp

end Filter

namespace Cell

variable {id : TypeId} {raw : String} {v : Value}

theorem decode?_json_iff (hid : id = 114 ∨ id = 3802) (hv : v.HasParts) :
    decode? id (.text raw) = some v ↔ Column.parseJson? raw = some v := by
  have hparse : Column.parse id raw = Column.parseScalar .json raw := by
    have hscalar := TypeId.scalar_eq_json hid
    rw [Column.parse_of_scalar (by rw [hscalar]; decide), hscalar]
  rw [decode?, hparse, Column.parseScalar]
  cases Column.parseJson? raw with
  | some w => rfl
  | none =>
    have hne : Value.str raw ≠ v := by
      rintro rfl
      exact hv
    simpa using hne

/-- The rendered text of an array or an object stands for it, and for nothing else. -/
theorem decode?_render (hid : id = 114 ∨ id = 3802) (hv : v.HasParts)
    (h : decode? id (.text raw) = some v) (hlegible : v.All Value.IsLegible) :
    decode? 3802 (.text v.render) = some v ∧
    (∀ id' raw' v', (id' = 114 ∨ id' = 3802) → v'.HasParts → decode? id' (.text raw') = some v' →
      v'.All Value.IsLegible → (v'.render = v.render ↔ v' = v)) ∧
    ∀ (calls : List Filter.Call) (e : Event) (table column : String) (values : List String),
      .withColumn table column values ∈ calls → Fold.fold table = Fold.fold e.table →
      v.render ∈ values → Filter.columnValue? column e.data = some v →
      ∀ text, (Filter.ofCalls calls).evaluate e ≠ .skipColumn column text := by
  have hback {raw' : String} {v' : Value} (hv' : v'.HasParts)
      (h' : Column.parseJson? raw' = some v') (hlegible' : v'.All Value.IsLegible) :
      Column.parseJson? v'.render = some v' := by
    rw [hv'.render_eq]
    exact Column.parseJson?_text_of_parseJson? h' hlegible'
  rw [decode?_json_iff hid hv] at h
  refine ⟨(decode?_json_iff (.inr rfl) hv).2 (hback hv h hlegible), ?_, ?_⟩
  · intro id' raw' v' hid' hv' h' hlegible'
    rw [decode?_json_iff hid' hv'] at h'
    refine ⟨fun hrender => ?_, congrArg Value.render⟩
    have hsame := hback hv' h' hlegible'
    rw [hrender, hback hv h hlegible] at hsame
    exact (Option.some.inj hsame).symm
  · intro calls e table column values hcall htable hmem hvalue
    exact Filter.evaluate_ne_skipColumn hvalue ⟨table, values, hcall, htable, v.render, hmem, rfl⟩

/-- Blanks, a zero with an exponent, and a name that is written twice, once with an escape. -/
def respelled : String := " \x7b\"b\" : [1, 0], \"a\": \x7b \x7d, \"\\u0062\" :\n[1, -0.0e5] \x7d"

def respelledValue : Value := .obj [("a", .obj []), ("b", .arr [.int 1, .float (.zero true)])]

theorem decode?_render_respelled :
    respelledValue.HasParts ∧ decode? 114 (.text respelled) = some respelledValue ∧
      respelledValue.All Value.IsLegible ∧
      decode? 3802 (.text respelledValue.render) = some respelledValue := by
  have hdecode : decode? 114 (.text respelled) = some respelledValue := by cbv
  have hparts : respelledValue.HasParts := trivial
  have hlegible : respelledValue.All Value.IsLegible := by
    simp [respelledValue, Value.All, Value.AllItems, Value.AllMembers, Value.IsLegible,
      Double.isLegible_zero]
  exact ⟨hparts, hdecode, hlegible, (decode?_render (.inl rfl) hparts hdecode hlegible).1⟩

end Cell
end Changefeed
