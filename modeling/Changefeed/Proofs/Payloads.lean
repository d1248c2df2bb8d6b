import Changefeed.Proofs.Identifiers
import Changefeed.Proofs.Instants
import Changefeed.Proofs.Legibility
import Changefeed.Proofs.ValueDocuments
import Changefeed.Publisher

/-!
# Payloads read back

A payload is the text of a document with a member for each field of the event
(`Event.payload_eq`). If its numbers are legible, all fields survive it, in whatever order the names
of a row are listed, but a row is refused if one of its values is nested in more than 125 arrays and
objects, because the row and the payload themselves are two more (`Event.HasDocument.ofPayload?`).
-/

namespace Changefeed

namespace Value

theorem HasDocument.readRow? {row : Row} {j : Json} (hj : (Value.obj row).HasDocument j)
    (h : (Value.obj row).IsProper) (outer : Nat) : Value.readRow? outer j =
      if outer + (Value.obj row).depth ≤ Json.depthLimit then some row else none := by
  rw [Value.readRow?, read?, hj.choose? h.finite h.ordered, hj.depth_eq]
  by_cases hdepth : outer + (Value.obj row).depth ≤ Json.depthLimit
  · rw [if_pos hdepth, if_pos hdepth]
  · rw [if_neg hdepth, if_neg hdepth]

end Value

namespace Event

def documentWith (e : Event) (data dataOld : Json) : Json :=
  .obj [("id", .str e.id.text), ("schema", .str e.schema), ("table", .str e.table),
    ("action", .str e.action), ("data", data), ("dataOld", dataOld),
    ("eventTime", .str e.time.instantText)]

/-- The documents of an event. The fields have their order, but the names of a row have none. -/
def HasDocument (e : Event) (j : Json) : Prop :=
  ∃ data dataOld, (Value.obj e.data).HasDocument data ∧
    (Value.obj e.dataOld).HasDocument dataOld ∧ j = e.documentWith data dataOld

def document (e : Event) : Json :=
  e.documentWith (Value.obj e.data).toJson (Value.obj e.dataOld).toJson

theorem hasDocument_document (e : Event) : e.HasDocument e.document :=
  ⟨_, _, Value.hasDocument_toJson _, Value.hasDocument_toJson _, rfl⟩

theorem payload_eq (e : Event) : e.payload = e.document.text := by
  have hwrite : e.document.write = e.writePayload := by
    simp [document, documentWith, Json.write, Json.writeMembers, writePayload, fieldTexts,
      fieldNames, Value.write_toJson]
  rw [payload, ← hwrite, Json.text]

def IsLegible (e : Event) : Prop := ∀ m ∈ e.data ++ e.dataOld, m.2.All Value.IsLegible

theorem isLegible_iff (e : Event) : e.IsLegible ↔
    (Value.obj e.data).All Value.IsLegible ∧ (Value.obj e.dataOld).All Value.IsLegible := by
  have hrow (row : Row) : (Value.obj row).All Value.IsLegible ↔
      ∀ m ∈ row, m.2.All Value.IsLegible := by
    rw [Value.All, Value.allMembers_iff]
    exact and_iff_right trivial
  simp only [IsLegible, List.mem_append, hrow, or_imp, forall_and]

theorem HasDocument.isNormal {e : Event} {j : Json} (hj : e.HasDocument j) (h : e.IsLegible) :
    j.IsNormal := by
  obtain ⟨data, dataOld, hdata, hdataOld, rfl⟩ := hj
  obtain ⟨hlegible, hlegibleOld⟩ := e.isLegible_iff.1 h
  exact ⟨trivial, trivial, trivial, trivial, hdata.isNormal hlegible,
    hdataOld.isNormal hlegibleOld, trivial, trivial⟩

structure IsProper (e : Event) : Prop where
  data : (Value.obj e.data).IsProper
  dataOld : (Value.obj e.dataOld).IsProper
  time : e.time.isValid = true

/-- No value is nested too deeply for a reader of payloads. -/
def Fits (e : Event) : Prop := ∀ m ∈ e.data ++ e.dataOld, m.2.depth ≤ 125

instance (e : Event) : Decidable e.Fits := inferInstanceAs (Decidable (∀ m ∈ _, _))

theorem fits_iff (e : Event) : e.Fits ↔
    1 + (Value.obj e.data).depth ≤ Json.depthLimit ∧
      1 + (Value.obj e.dataOld).depth ≤ Json.depthLimit := by
  have hlimit : ∀ row : Row, 1 + (Value.obj row).depth ≤ Json.depthLimit ↔
      ∀ m ∈ row, m.2.depth ≤ 125 := fun row => by
    rw [← Value.depth_obj_le_iff, Json.depthLimit]
    omega
  simp only [Fits, List.mem_append, hlimit, or_imp, forall_and]

theorem fields?_documentWith (e : Event) (data dataOld : Json) :
    Json.fields? fieldNames (e.documentWith data dataOld) =
      some [some (.str e.id.text), some (.str e.schema), some (.str e.table), some (.str e.action),
        some data, some dataOld, some (.str e.time.instantText)] := by
  simp [Json.fields?, Json.fieldsWith?, fieldNames, documentWith, Json.membersNamed]

theorem HasDocument.ofJson? {e : Event} {j : Json} (hj : e.HasDocument j) (h : e.IsProper) :
    Event.ofJson? j = if e.Fits then some e else none := by
  obtain ⟨data, dataOld, hdata, hdataOld, rfl⟩ := hj
  have hid : id? (.str e.id.text) = some e.id := by
    simp [id?, Json.text?, Uuid.text, Uuid.read?_write]
  have htime : time? (.str e.time.instantText) = some e.time := by
    simp [time?, Json.text?, Timestamp.instantText, Calendar.readInstant?_writeInstant h.time]
  have hrow := hdata.readRow? h.data 1
  have hrowOld := hdataOld.readRow? h.dataOld 1
  by_cases hfits : e.Fits
  · obtain ⟨hfirst, hsecond⟩ := e.fits_iff.1 hfits
    rw [if_pos hfirst] at hrow
    rw [if_pos hsecond] at hrowOld
    simp [Event.ofJson?, fields?_documentWith, Json.required, Json.text?, hid, htime, hrow, hrowOld,
      hfits]
  · have hnone : Value.readRow? 1 data = none ∨ Value.readRow? 1 dataOld = none := by
      rcases not_and_or.1 (mt e.fits_iff.2 hfits) with hdeep | hdeep
      · exact .inl (by rw [hrow, if_neg hdeep])
      · exact .inr (by rw [hrowOld, if_neg hdeep])
    rcases hnone with hnone | hnone <;>
      simp [Event.ofJson?, fields?_documentWith, Json.required, Json.text?, hid, htime, hnone,
        hfits]

theorem HasDocument.ofPayload? {e : Event} {j : Json} (hj : e.HasDocument j) (h : e.IsProper)
    (hlegible : e.IsLegible) : Event.ofPayload? j.text = if e.Fits then some e else none := by
  rw [Event.ofPayload?, Json.ofText?_text (hj.isNormal hlegible), Option.bind_eq_bind,
    Option.bind_some, hj.ofJson? h]

theorem isProper_of_rows {e : Event} (htime : e.time.isValid = true)
    (hordered : (Value.obj e.data).All Value.IsOrdered ∧ (Value.obj e.dataOld).All Value.IsOrdered)
    (hfinite : ∀ m ∈ e.data ++ e.dataOld, m.2.All Value.IsFinite) : e.IsProper where
  data := ⟨⟨trivial, Value.allMembers_iff.2 fun m hm =>
    hfinite m (List.mem_append_left _ hm)⟩, hordered.1⟩
  dataOld := ⟨⟨trivial, Value.allMembers_iff.2 fun m hm =>
    hfinite m (List.mem_append_right _ hm)⟩, hordered.2⟩
  time := htime

/-- Reading the payload of a message gives the event back, and so does reading any text of the event
that lists the names of rows and objects in another order. The names of rows and of the objects in
them are distinct; they are kept in order here. That a finite number survives its text is assumed.
-/
theorem ofPayload?_ofEvent (topic : String) {e : Event}
    (htime : ∃ s, Calendar.readInstant? s = some e.time)
    (hordered : (Value.obj e.data).All Value.IsOrdered ∧ (Value.obj e.dataOld).All Value.IsOrdered)
    (hfinite : ∀ m ∈ e.data ++ e.dataOld, m.2.All Value.IsFinite)
    (hdepth : ∀ m ∈ e.data ++ e.dataOld, m.2.depth ≤ 125) (hlegible : e.IsLegible) :
    ofPayload? (Message.ofEvent topic e).payload = some e ∧
      ∀ j, e.HasDocument j → ofPayload? j.text = some e := by
  obtain ⟨s, hread⟩ := htime
  have hproper := isProper_of_rows (Calendar.isValid_of_readInstant? hread) hordered hfinite
  have hfits : e.Fits := hdepth
  have hall : ∀ j, e.HasDocument j → ofPayload? j.text = some e := by
    intro j hj
    rw [hj.ofPayload? hproper hlegible, if_pos hfits]
  refine ⟨?_, hall⟩
  rw [Message.ofEvent, payload_eq]
  exact hall _ e.hasDocument_document

def wholeOne : Double := .finite false ⟨1023 * Double.fractions, by decide⟩

/-- An event with a leap second before the common era, a negative zero, a whole number with a
fraction, texts that look like other types, and characters that have to be escaped. -/
def peculiar : Event where
  id := ⟨0xA0EEBC999C0B4EF8BB6D6BB9BD380A11⟩
  schema := "a\"b\\c\n\x01 é"
  table := "null"
  action := ""
  data := [("", .float (.zero true)), ("1", .str "1"),
    ("n", .arr [.int (-1), .obj [("k", .null)], .float wholeOne])]
  dataOld := [("t", .bool true)]
  time := ⟨⟨-1, 12, 31⟩, ⟨23, 59, 60, 1000⟩⟩

theorem isLegible_peculiar : peculiar.IsLegible := by
  have hone : wholeOne.IsLegible := Double.isLegible_of_isShort (by decide +kernel)
  simp [IsLegible, peculiar, Value.All, Value.AllItems, Value.AllMembers, Value.IsLegible,
    Double.isLegible_zero, hone]

theorem ofPayload?_peculiar :
    peculiar.IsLegible ∧ ofPayload? (Message.ofEvent "t" peculiar).payload = some peculiar := by
  refine ⟨isLegible_peculiar, (ofPayload?_ofEvent "t" ?_ ?_ ?_ ?_ isLegible_peculiar).1⟩
  · exact ⟨_, Calendar.readInstant?_writeInstant (t := peculiar.time) (by decide)⟩
  · simp only [peculiar, Value.All, Value.AllItems, Value.AllMembers, Value.IsOrdered,
      Keyed.Sorted]
    decide
  · simp [peculiar, wholeOne, Value.All, Value.AllItems, Value.AllMembers, Value.IsFinite,
      Double.isFinite, Double.zero]
  · decide

end Event
end Changefeed
