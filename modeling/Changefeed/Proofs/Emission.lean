import Changefeed.Proofs.ArrayGrammar
import Changefeed.Proofs.Payloads
import Changefeed.Proofs.ScalarValues
import Changefeed.Session
import Mathlib.Data.Option.Basic

/-!
# Emitted events read back

Whatever a cell holds, its value has finite numbers and ordered objects, and it is nested no more
deeply than the document in the cell or, if the cell holds none, than an array
(`Cell.isWithin_of_decode?`). So the event of a row change with legible numbers is read back from
its payload unless a document in it is nested more than 125 deep: a column accepts two levels more
than a payload has room for.
-/

namespace Changefeed

structure Value.IsWithin (n : Nat) (v : Value) : Prop where
  proper : v.IsProper
  depth_le : v.depth ≤ n

namespace Value

variable {n : Nat}

theorem IsWithin.mono {m : Nat} {v : Value} (h : v.IsWithin m) (hle : m ≤ n) : v.IsWithin n :=
  ⟨h.proper, h.depth_le.trans hle⟩

theorem isWithin_null : Value.null.IsWithin n := ⟨⟨trivial, trivial⟩, Nat.zero_le n⟩

theorem isWithin_bool (b : Bool) : (Value.bool b).IsWithin n := ⟨⟨trivial, trivial⟩, Nat.zero_le n⟩

theorem isWithin_int (i : Int64) : (Value.int i).IsWithin n := ⟨⟨trivial, trivial⟩, Nat.zero_le n⟩

theorem isWithin_str (s : String) : (Value.str s).IsWithin n := ⟨⟨trivial, trivial⟩, Nat.zero_le n⟩

theorem isWithin_float {x : Double} (h : x.isFinite = true) : (Value.float x).IsWithin n := by
  refine ⟨⟨h, trivial⟩, ?_⟩
  cases x <;> exact Nat.zero_le n

theorem isWithin_arr {items : List Value} (h : ∀ v ∈ items, v.IsWithin n) :
    (Value.arr items).IsWithin (n + 1) := by
  have hitems : AllItems IsFinite items ∧ AllItems IsOrdered items ∧
      Json.depthItems (itemsToJson items) ≤ n := by
    induction items with
    | nil => exact ⟨trivial, trivial, Nat.zero_le n⟩
    | cons v items ih =>
      have hv := h v List.mem_cons_self
      obtain ⟨hfinite, hordered, hdepth⟩ := ih fun w hw => h w (List.mem_cons_of_mem v hw)
      exact ⟨⟨hv.proper.finite, hfinite⟩, ⟨hv.proper.ordered, hordered⟩,
        max_le hv.depth_le hdepth⟩
  refine ⟨⟨⟨trivial, hitems.1⟩, ⟨trivial, hitems.2.1⟩⟩, ?_⟩
  rw [depth, toJson, Json.depth, Nat.add_comm]
  exact Nat.succ_le_succ hitems.2.2

end Value

namespace Column

/-- If the text is a document that a column accepts, that one is nested at most `n` deep. -/
def IsShallow (n : Nat) (raw : String) : Prop :=
  ∀ j, Json.ofText? raw = some j → j.depth ≤ Json.depthLimit → j.depth ≤ n

theorem isShallow_depthLimit (raw : String) : IsShallow Json.depthLimit raw := fun _ _ h => h

variable {raw : String} {v : Value}

theorem IsScalar.isWithin {type : Scalar} {n : Nat} (hraw : type = .json → IsShallow n raw)
    (h : IsScalar raw type v) : v.IsWithin n := by
  cases h with
  | isTrue | isFalse => exact Value.isWithin_bool _
  | integer => exact Value.isWithin_int _
  | float _ hfinite | numeric _ hfinite => exact Value.isWithin_float hfinite
  | json h hdepth hv =>
    obtain ⟨hproper, hle⟩ := Value.isProper_of_ofJson? hv
    exact ⟨hproper, hle.trans (hraw rfl _ h hdepth)⟩
  | zonedTime | localTime | date | uuid => exact Value.isWithin_str _

theorem isWithin_of_parseScalar {type : Scalar} {n : Nat} (hraw : type = .json → IsShallow n raw)
    (h : parseScalar type raw = .ok v) : v.IsWithin n := by
  rcases isScalar_of_parseScalar h with h | rfl
  · exact h.isWithin hraw
  · exact Value.isWithin_str raw

theorem isWithin_of_parseElement {type : Scalar} (htype : type ≠ .json)
    {e : ArrayLiteral.Element} {v : Value} (h : parseElement type e = .ok v) : v.IsWithin 0 := by
  cases e with
  | none => cases h; exact Value.isWithin_null
  | some s => exact isWithin_of_parseScalar (fun hjson => absurd hjson htype) h

theorem isWithin_of_mapM {α : Type} {f : α → Except DecodeFault Value} {n : Nat}
    (hf : ∀ {a v}, f a = .ok v → v.IsWithin n) {as : List α} {vs : List Value}
    (h : as.mapM f = .ok vs) : ∀ v ∈ vs, v.IsWithin n := by
  induction as generalizing vs with
  | nil =>
    cases h
    simp
  | cons a as ih =>
    rw [List.mapM_cons] at h
    obtain ⟨w, hfirst, h⟩ := bind_eq_ok h
    obtain ⟨ws, hrest, h⟩ := bind_eq_ok h
    cases h
    exact List.forall_mem_cons.2 ⟨hf hfirst, ih hrest⟩

theorem isWithin_of_parseArray {type : Scalar} (htype : type ≠ .json) {raw : String} {v : Value}
    (h : parseArray type raw = .ok v) : v.IsWithin 1 := by
  obtain ⟨items, hitems, h⟩ := bind_eq_ok h
  split at h
  next =>
    cases h
    exact Value.isWithin_arr (isWithin_of_mapM (isWithin_of_parseElement htype) hitems)
  next => cases h

theorem scalar_element_ne_json {id element : TypeId} (h : id.element? = some element) :
    element.scalar ≠ .json := by
  have hall : TypeId.arrays.all (fun a => a.2.scalar != .json) = true := by decide
  simpa using List.all_eq_true.1 hall _ (TypeId.mem_arrays h)

theorem isWithin_of_parse {id : TypeId} {raw : String} {v : Value} {n : Nat} (hn : 1 ≤ n)
    (hraw : IsShallow n raw) (h : parse id raw = .ok v) : v.IsWithin n := by
  unfold parse at h
  split at h
  next element helement =>
    exact (isWithin_of_parseArray (scalar_element_ne_json helement) h).mono hn
  next => exact isWithin_of_parseScalar (fun _ => hraw) h

end Column

theorem Cell.isWithin_of_decode? {id : TypeId} {c : Cell} {v : Value} {n : Nat} (hn : 1 ≤ n)
    (hc : ∀ raw, c = .text raw → Column.IsShallow n raw) (h : c.decode? id = some v) :
    v.IsWithin n := by
  cases c with
  | null => cases h; exact Value.isWithin_null
  | unchanged => cases h
  | binary bytes => cases h; exact Value.isWithin_str _
  | text raw =>
    cases hparse : Column.parse id raw with
    | ok w =>
      simp only [decode?, hparse, Option.some.injEq] at h
      exact h ▸ Column.isWithin_of_parse hn (hc raw rfl) hparse
    | error f =>
      simp only [decode?, hparse, Option.some.injEq] at h
      exact h ▸ Value.isWithin_str raw

theorem Relation.exists_of_mem_decodeRow {r : Relation} {cells : List Cell} {c : Column}
    (h : c ∈ r.decodeRow cells) :
    ∃ cell ∈ cells, ∃ id : TypeId, cell.decode? id = some c.value := by
  obtain ⟨⟨cell, column⟩, hmem, hdecode⟩ := List.mem_filterMap.1 h
  obtain ⟨v, hv, rfl⟩ := Option.map_eq_some_iff.1 hdecode
  exact ⟨cell, (List.of_mem_zip hmem).1, column.typeId, hv⟩

namespace Event

theorem sorted_addColumns {row : Row} (h : Keyed.Sorted row) (columns : List Column) :
    Keyed.Sorted (addColumns row columns) := by
  induction columns generalizing row with
  | nil => exact h
  | cons c columns ih => exact ih (h.insert c.name c.value)

theorem mem_addColumns {row : Row} {columns : List Column} {m : String × Value}
    (h : m ∈ addColumns row columns) : m ∈ row ∨ ∃ c ∈ columns, c.value = m.2 := by
  induction columns generalizing row with
  | nil => exact .inl h
  | cons c columns ih =>
    rcases ih h with h | ⟨d, hd, hvalue⟩
    · rcases Keyed.mem_insert h with rfl | h
      · exact .inr ⟨c, List.mem_cons_self, rfl⟩
      · exact .inl h
    · exact .inr ⟨d, List.mem_cons_of_mem c hd, hvalue⟩

theorem exists_of_mem_fill {u : Uuid} {a : Action} {time : Timestamp} {m : String × Value}
    (h : m ∈ (blank.fill u a time).data ++ (blank.fill u a time).dataOld) :
    ∃ c ∈ a.old ++ a.new, c.value = m.2 := by
  rcases List.mem_append.1 h with h | h
  · rcases mem_addColumns h with h | ⟨c, hc, hvalue⟩
    · cases h
    · exact ⟨c, List.mem_append_right _ hc, hvalue⟩
  · rcases mem_addColumns h with h | ⟨c, hc, hvalue⟩
    · cases h
    · exact ⟨c, List.mem_append_left _ hc, hvalue⟩

theorem isProper_fill {a : Action} (h : ∀ c ∈ a.old ++ a.new, c.value.IsProper) (u : Uuid)
    {time : Timestamp} (htime : time.isValid = true) : (blank.fill u a time).IsProper := by
  have hrows : ∀ m ∈ (blank.fill u a time).data ++ (blank.fill u a time).dataOld,
      m.2.IsProper := by
    intro m hm
    obtain ⟨c, hc, hvalue⟩ := exists_of_mem_fill hm
    exact hvalue ▸ h c hc
  exact {
    data := Value.isProper_obj (sorted_addColumns List.Pairwise.nil a.new) fun m hm =>
      hrows m (List.mem_append_left _ hm)
    dataOld := Value.isProper_obj (sorted_addColumns List.Pairwise.nil a.old) fun m hm =>
      hrows m (List.mem_append_right _ hm)
    time := htime }

theorem fits_fill {a : Action} (h : ∀ c ∈ a.old ++ a.new, c.value.depth ≤ 125) (u : Uuid)
    (time : Timestamp) : (blank.fill u a time).Fits := by
  intro m hm
  obtain ⟨c, hc, hvalue⟩ := exists_of_mem_fill hm
  exact hvalue ▸ h c hc

end Event

namespace Session

variable {s : Session} {id : RelationId} {kind : ActionKind} {old new : List Cell} {a : Action}

theorem isWithin_of_createAction (h : s.createAction id kind old new = .ok a) {n : Nat}
    (hn : 1 ≤ n) (hcells : ∀ raw, .text raw ∈ old ++ new → Column.IsShallow n raw) :
    ∀ c ∈ a.old ++ a.new, c.value.IsWithin n := by
  unfold createAction at h
  split at h
  next => cases h
  next r hr =>
    cases h
    intro c hc
    obtain ⟨cell, hcell, type, hdecode⟩ : ∃ cell ∈ old ++ new, ∃ type : TypeId,
        cell.decode? type = some c.value := by
      rcases List.mem_append.1 hc with hc | hc
      · obtain ⟨cell, hcell, hdecode⟩ := Relation.exists_of_mem_decodeRow hc
        exact ⟨cell, List.mem_append_left _ hcell, hdecode⟩
      · obtain ⟨cell, hcell, hdecode⟩ := Relation.exists_of_mem_decodeRow hc
        exact ⟨cell, List.mem_append_right _ hcell, hdecode⟩
    exact Cell.isWithin_of_decode? hn (fun raw hraw => hcells raw (hraw ▸ hcell)) hdecode

end Session

def Json.nested : Nat → Json
  | 0 => .arr []
  | n + 1 => .arr [nested n]

def Value.nested : Nat → Value
  | 0 => .arr []
  | n + 1 => .arr [nested n]

namespace Value

theorem toJson_nested (n : Nat) : (Value.nested n).toJson = Json.nested n := by
  induction n with
  | zero => rfl
  | succ n ih => rw [Value.nested, toJson, itemsToJson, itemsToJson, ih, Json.nested]

theorem depth_nested (n : Nat) : (Value.nested n).depth = n + 1 := by
  induction n with
  | zero => rfl
  | succ n ih =>
    rw [depth, toJson_nested] at ih ⊢
    simp [Json.nested, Json.depth, Json.depthItems, ih, Nat.add_comm]

theorem isLegible_nested (n : Nat) : (Value.nested n).All IsLegible := by
  induction n with
  | zero => exact ⟨trivial, trivial⟩
  | succ n ih => exact ⟨trivial, ih, trivial⟩

theorem ofJson?_nested (n : Nat) : ofJson? (Json.nested n) = some (Value.nested n) := by
  induction n with
  | zero => rfl
  | succ n ih => simp [Json.nested, ofJson?, ofItems?, ih, Value.nested]

end Value

theorem Column.parse_nested {n : Nat} (hn : n < Json.depthLimit) :
    Column.parse 3802 (Json.nested n).text = .ok (Value.nested n) := by
  have hread : Json.ofText? (Json.nested n).text = some (Json.nested n) :=
    Value.toJson_nested n ▸ Json.ofText?_text
      ((Value.hasDocument_toJson _).isNormal (Value.isLegible_nested n))
  have hdepth : (Json.nested n).depth ≤ Json.depthLimit := by
    rw [← Value.toJson_nested]
    exact (Value.depth_nested n).le.trans hn
  have hparse : parseJson? (Json.nested n).text = some (Value.nested n) := by
    simp [parseJson?, hread, hdepth, Value.ofJson?_nested, guard]
  have hscalar : Column.parse 3802 (Json.nested n).text = parseScalar .json (Json.nested n).text :=
    rfl
  rw [hscalar, parseScalar, hparse, Option.elim_some]

namespace Session

def withDocuments : Session :=
  (Session.new ⟨.empty, .silent, 0⟩).register 1 ⟨"public", "docs", [⟨"doc", 3802, -1, false⟩]⟩

def nestedAction (n : Nat) : Action :=
  ⟨"public", "docs", .insert, [], [⟨"doc", Value.nested n, false⟩]⟩

theorem createAction_nested {n : Nat} (hn : n < Json.depthLimit) :
    withDocuments.createAction 1 .insert [] [.text (Json.nested n).text] =
      .ok (nestedAction n) := by
  have hdecode : Cell.decode? 3802 (.text (Json.nested n).text) = some (Value.nested n) := by
    rw [Cell.decode?, Column.parse_nested hn]
  simp [createAction, withDocuments, register, Session.new, RelationCache.get?_update_self,
    Relation.decodeRow, hdecode, nestedAction]

theorem fits_nestedAction_iff (n : Nat) (u : Uuid) (time : Timestamp) :
    (Event.blank.fill u (nestedAction n) time).Fits ↔ n < 125 := by
  have hdepth := Value.depth_nested n
  simp [Event.Fits, Event.fill, nestedAction, Event.addColumns, Event.blank, Keyed.insert]
  omega

theorem isLegible_nestedAction (n : Nat) (u : Uuid) (time : Timestamp) :
    (Event.blank.fill u (nestedAction n) time).IsLegible := by
  have hlegible := Value.isLegible_nested n
  simp [Event.IsLegible, Event.fill, nestedAction, Event.addColumns, Event.blank, Keyed.insert,
    hlegible]

variable {s : Session} {id : RelationId} {kind : ActionKind} {old new : List Cell} {a : Action}

/-- What is emitted is read back as it is or refused, but never read as something else, in whatever
order its names are listed; it is refused only if a document in a cell is nested more than 125 deep.
That a finite number survives its text is assumed. -/
theorem ofPayload?_emitted (h : s.createAction id kind old new = .ok a) (u : Uuid)
    {time : Timestamp} (htime : time.isValid = true)
    (hlegible : (Event.blank.fill u a time).IsLegible) :
    let e := Event.blank.fill u a time
    (Event.ofPayload? e.payload = if e.Fits then some e else none) ∧
      (∀ j, e.HasDocument j → Event.ofPayload? j.text = if e.Fits then some e else none) ∧
      ((∀ raw, .text raw ∈ old ++ new → Column.IsShallow 125 raw) → e.Fits) := by
  intro e
  have hproper : e.IsProper := by
    have hlimit := isWithin_of_createAction h (n := Json.depthLimit) (by decide)
      fun raw _ => Column.isShallow_depthLimit raw
    exact Event.isProper_fill (fun c hc => (hlimit c hc).proper) u htime
  have hall := fun (j : Json) (hj : e.HasDocument j) => hj.ofPayload? hproper hlegible
  refine ⟨?_, hall, fun hcells => ?_⟩
  · rw [e.payload_eq]
    exact hall _ e.hasDocument_document
  · have hshallow := isWithin_of_createAction h (n := 125) (by decide) hcells
    exact Event.fits_fill (fun c hc => (hshallow c hc).depth_le) u time

theorem ofPayload?_nestedAction :
    Event.ofPayload? (Event.blank.fill .nil (nestedAction 124) .epoch).payload =
      some (Event.blank.fill .nil (nestedAction 124) .epoch) := by
  have hvalid : Timestamp.epoch.isValid = true := by decide
  have hemitted := (ofPayload?_emitted (createAction_nested (n := 124) (by decide)) .nil hvalid
    (isLegible_nestedAction 124 .nil .epoch)).1
  rwa [if_pos ((fits_nestedAction_iff 124 .nil .epoch).2 (by decide))] at hemitted

/-- The column accepts a document of 126 arrays, but the event cannot be read back. -/
theorem ofPayload?_deeply_nested :
    withDocuments.createAction 1 .insert [] [.text (Json.nested 125).text] =
        .ok (nestedAction 125) ∧
      Event.ofPayload? (Event.blank.fill .nil (nestedAction 125) .epoch).payload = none := by
  have hcreate := createAction_nested (n := 125) (by decide)
  refine ⟨hcreate, ?_⟩
  have hlimit := isWithin_of_createAction hcreate (n := Json.depthLimit) (by decide)
    fun raw _ => Column.isShallow_depthLimit raw
  have hvalid : Timestamp.epoch.isValid = true := by decide
  have hproper := Event.isProper_fill (fun c hc => (hlimit c hc).proper) .nil hvalid
  have hlegible := isLegible_nestedAction 125 .nil .epoch
  rw [Event.payload_eq, (Event.hasDocument_document _).ofPayload? hproper hlegible,
    if_neg (mt (fits_nestedAction_iff 125 .nil .epoch).1 (by decide))]

end Session
end Changefeed
