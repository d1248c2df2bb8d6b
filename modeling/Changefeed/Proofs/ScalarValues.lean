import Changefeed.Proofs.ScalarTexts
import Changefeed.Proofs.TimeForms
import Changefeed.Proofs.ValueDocuments

/-!
# Values of scalar types

What a text stands for in a column of a scalar type (`Column.IsScalar`). A column yields that value
or, if there is none, either the text itself or a fault; the words for infinity are neither dates
nor times, and a number that no double can hold is no value.
-/

namespace Changefeed

namespace Column

inductive IsScalar (raw : String) : Scalar → Value → Prop
  | isTrue (h : raw = "t" ∨ raw = "true") : IsScalar raw .boolean (.bool true)
  | isFalse (h : raw = "f" ∨ raw = "false") : IsScalar raw .boolean (.bool false)
  | integer {i : Int64} (h : Integer.Denotes raw.toList i.toInt) : IsScalar raw .integer (.int i)
  | float {x : Double} (h : Double.read raw.toList = .ok x) (hfinite : x.isFinite = true) :
    IsScalar raw .float (.float x)
  | numeric {x : Double} (h : Double.read raw.toList = .ok x) (hfinite : x.isFinite = true) :
    IsScalar raw .numeric (.float x)
  | json {j : Json} {v : Value} (h : Json.ofText? raw = some j)
    (hdepth : j.depth ≤ Json.depthLimit) (hv : Value.ofJson? j = some v)
    (hfinite : v.All Value.IsFinite) : IsScalar raw .json v
  | zonedTime {t : Timestamp} (h : Calendar.readZoned? raw.toList = some t)
    (ht : t.isValid = true) : IsScalar raw .zonedTime (.str (String.ofList t.writeInstant))
  | localTime {t : Timestamp} (h : Calendar.readLocal? raw.toList = some t)
    (ht : t.isValid = true) : IsScalar raw .localTime (.str (String.ofList t.writeLocal))
  | date {d : Date} (h : Calendar.readDate? raw.toList = some d) (hd : d.isValid = true)
    (hrange : d.isInRange = true) : IsScalar raw .date (.str (String.ofList d.write))
  | uuid {u : Uuid} (h : Uuid.read? raw.toList = some u) : IsScalar raw .uuid (.str u.text)

variable {raw : String} {v : Value}

theorem parseTime_eq_ok_iff {α : Type} {type : Scalar} {read : List Char → Option α}
    {write : α → List Char} :
    parseTime type read write raw = .ok v ↔
      isInfinity raw = true ∧ v = .str raw ∨
        isInfinity raw = false ∧
          ∃ t, read raw.toList = some t ∧ v = .str (String.ofList (write t)) := by
  unfold parseTime
  cases hinf : isInfinity raw with
  | true => simp [eq_comm]
  | false => cases hread : read raw.toList <;> simp [eq_comm]

theorem parseJson?_eq_some_iff :
    parseJson? raw = some v ↔
      ∃ j, Json.ofText? raw = some j ∧ j.depth ≤ Json.depthLimit ∧ Value.ofJson? j = some v := by
  simp [parseJson?, guard, Option.bind_eq_some_iff]

theorem finiteOr_eq_iff {x : Double} :
    finiteOr raw x = v ↔ x.isFinite = true ∧ v = .float x ∨ x.isFinite = false ∧ v = .str raw := by
  unfold finiteOr
  cases x.isFinite <;> simp [eq_comm]

/-- The words for infinity are neither dates nor times. -/
theorem isInfinity_unread (h : isInfinity raw = true) :
    Calendar.readZoned? raw.toList = none ∧ Calendar.readLocal? raw.toList = none ∧
      Calendar.readDate? raw.toList = none := by
  rw [isInfinity, Bool.or_eq_true, beq_iff_eq, beq_iff_eq] at h
  rcases h with rfl | rfl <;> decide

theorem parseTime_of_read {α : Type} {type : Scalar} {read : List Char → Option α}
    {write : α → List Char} {t : α} (hword : isInfinity raw = true → read raw.toList = none)
    (h : read raw.toList = some t) :
    parseTime type read write raw = .ok (.str (String.ofList (write t))) := by
  refine parseTime_eq_ok_iff.2 (.inr ⟨?_, t, h, rfl⟩)
  rw [Bool.eq_false_iff]
  intro hinf
  rw [hword hinf] at h
  cases h

theorem IsScalar.parseScalar_eq {type : Scalar} (h : IsScalar raw type v) :
    parseScalar type raw = .ok v := by
  cases h with
  | isTrue h => exact if_pos h
  | isFalse h =>
    rcases h with rfl | rfl <;> rfl
  | integer h => simp [parseScalar, parseInteger, Integer.read_eq_ok_iff.2 h]
  | float h hfinite => simp [parseScalar, parseFloat, h, finiteOr, hfinite]
  | numeric h hfinite => simp [parseScalar, parseNumeric, h, finiteOr, hfinite]
  | json h hdepth hv => simp [parseScalar, parseJson?_eq_some_iff.2 ⟨_, h, hdepth, hv⟩]
  | zonedTime h => exact parseTime_of_read (fun hinf => (isInfinity_unread hinf).1) h
  | localTime h => exact parseTime_of_read (fun hinf => (isInfinity_unread hinf).2.1) h
  | date h => exact parseTime_of_read (fun hinf => (isInfinity_unread hinf).2.2) h
  | uuid h => simp [parseScalar, h]

theorem isScalar_of_parseScalar {type : Scalar} (h : parseScalar type raw = .ok v) :
    IsScalar raw type v ∨ v = .str raw := by
  cases type with
  | boolean =>
    simp only [parseScalar, parseBoolean] at h
    split at h
    next htrue =>
      cases h
      exact .inl (.isTrue htrue)
    next =>
      split at h
      next hfalse =>
        cases h
        exact .inl (.isFalse hfalse)
      next => cases h
  | integer =>
    simp only [parseScalar, parseInteger] at h
    split at h
    next hread =>
      cases h
      exact .inl (.integer (Integer.read_eq_ok_iff.1 hread))
    next => cases h
  | float =>
    simp only [parseScalar, parseFloat] at h
    split at h
    next hread =>
      rcases finiteOr_eq_iff.1 (Except.ok.inj h) with ⟨hfinite, rfl⟩ | ⟨-, hv⟩
      · exact .inl (.float hread hfinite)
      · exact .inr hv
    next => cases h
  | numeric =>
    have hv : parseNumeric raw = v := Except.ok.inj h
    unfold parseNumeric at hv
    split at hv
    next hread =>
      rcases finiteOr_eq_iff.1 hv with ⟨hfinite, rfl⟩ | ⟨-, hv⟩
      · exact .inl (.numeric hread hfinite)
      · exact .inr hv
    next => exact .inr hv.symm
  | json =>
    cases hparse : parseJson? raw with
    | none => simp [parseScalar, hparse] at h
    | some w =>
      simp only [parseScalar, hparse, Option.elim_some, Except.ok.injEq] at h
      subst h
      obtain ⟨j, hread, hdepth, hv⟩ := parseJson?_eq_some_iff.1 hparse
      exact .inl (.json hread hdepth hv (Value.isProper_of_ofJson? hv).1.finite)
  | zonedTime =>
    rcases parseTime_eq_ok_iff.1 h with ⟨-, hv⟩ | ⟨-, t, hread, rfl⟩
    · exact .inr hv
    · exact .inl (.zonedTime hread (Calendar.isValid_of_readZoned? hread))
  | localTime =>
    rcases parseTime_eq_ok_iff.1 h with ⟨-, hv⟩ | ⟨-, t, hread, rfl⟩
    · exact .inr hv
    · exact .inl (.localTime hread (Calendar.isValid_of_readLocal? hread))
  | date =>
    rcases parseTime_eq_ok_iff.1 h with ⟨-, hv⟩ | ⟨-, d, hread, rfl⟩
    · exact .inr hv
    · obtain ⟨hd, hrange⟩ := Calendar.isValid_of_readDate? hread
      exact .inl (.date hread hd hrange)
  | uuid =>
    cases hread : Uuid.read? raw.toList with
    | none => simp [parseScalar, hread] at h
    | some u =>
      simp only [parseScalar, hread, Option.elim_some, Except.ok.injEq] at h
      subst h
      exact .inl (.uuid hread)
  | text => exact .inr (Except.ok.inj h).symm

theorem IsScalar.type_ne_text {type : Scalar} (h : IsScalar raw type v) : type ≠ .text := by
  rintro rfl
  cases h

end Column
end Changefeed
