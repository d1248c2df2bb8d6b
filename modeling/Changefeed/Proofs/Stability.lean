import Changefeed.Proofs.Identifiers
import Changefeed.Proofs.TypedValues

/-!
# Texts that decoding leaves as they are

Outside documents, a text that is a value of a column is decoded to itself
(`Cell.decode?_str_fixed`). The normal form of an instant is read as that instant or not at all, and
the same holds of times without an offset, dates and identifiers; what is not read is kept.
-/

namespace Changefeed

namespace TypeId

theorem mem_scalars {id : TypeId} {type : Scalar} (h : id.scalar = type) (htype : type ≠ .text) :
    (id, type) ∈ scalars := by
  cases hlookup : scalars.lookup id with
  | none => exact absurd (by simpa [scalar, hlookup] using h.symm) htype
  | some found =>
    obtain ⟨before, after, hsplit, -⟩ := List.lookup_eq_some_iff.1 hlookup
    obtain rfl : found = type := by simpa [scalar, hlookup] using h
    exact hsplit ▸ List.mem_append_right before List.mem_cons_self

theorem scalar_ne_json {id : TypeId} (hjson : id ≠ 114) (hjsonb : id ≠ 3802) :
    id.scalar ≠ .json := by
  intro h
  have hmem := mem_scalars h (by decide)
  simp [scalars, hjson, hjsonb] at hmem

end TypeId

namespace Calendar

variable {t u : Timestamp}

theorem eq_of_readZoned?_writeInstant (ht : t.isValid = true)
    (h : readZoned? t.writeInstant = some u) : u = t := by
  rw [readZoned?_writeInstant ht] at h
  split at h
  next => exact (Option.some.inj h).symm
  next => cases h

theorem eq_of_readLocal?_writeLocal (ht : t.isValid = true)
    (h : readLocal? t.writeLocal = some u) : u = t := by
  rw [readLocal?_writeLocal ht] at h
  cases h

theorem eq_of_readDate?_write {d e : Date} (hd : d.isValid = true) (hrange : d.isInRange = true)
    (h : readDate? d.write = some e) : e = d := by
  rw [readDate?_write hd hrange] at h
  exact (Option.some.inj h).symm

end Calendar

namespace Column

section Agreement

variable {α : Type} {read : List Char → Option α} {raw s : String}

/-- The second text is read as nothing else than the first. -/
def ReadAlike (read : List Char → Option α) (raw s : String) : Prop :=
  ∀ a b, read raw.toList = some a → read s.toList = some b → b = a

theorem readAlike_self (read : List Char → Option α) (raw : String) : ReadAlike read raw raw := by
  intro a b ha hb
  exact Option.some.inj (hb.symm.trans ha)

theorem readAlike_of_read {t : List Char} {a : α} (h : read raw.toList = some a)
    (ht : ∀ b, read t = some b → b = a) : ReadAlike read raw (String.ofList t) := by
  intro a' b ha hb
  rw [String.toList_ofList] at hb
  rw [ht b hb]
  exact Option.some.inj (h.symm.trans ha)

/-- A date, a time or an identifier may be spelled in another way, but any other text is the same
(of documents nothing is said). -/
def Agree (raw s : String) : Scalar → Prop
  | .zonedTime => ReadAlike Calendar.readZoned? raw s
  | .localTime => ReadAlike Calendar.readLocal? raw s
  | .date => ReadAlike Calendar.readDate? raw s
  | .uuid => ReadAlike Uuid.read? raw s
  | .json => True
  | _ => s = raw

theorem agree_self (raw : String) (type : Scalar) : Agree raw raw type := by
  cases type with
  | zonedTime | localTime | date | uuid => exact readAlike_self _ raw
  | json => trivial
  | _ => rfl

end Agreement

end Column

namespace Cell

variable {id : TypeId} {raw s : String}

theorem decode?_ofList_write {α : Type} {type : Scalar} {read : List Char → Option α}
    {write : α → List Char} {a : α}
    (hparse : ∀ raw, Column.parse id raw = Column.parseTime type read write raw)
    (hread : ∀ b, read (write a) = some b → b = a) :
    decode? id (.text (String.ofList (write a))) = some (.str (String.ofList (write a))) := by
  rw [decode?, hparse, Column.parseTime, String.toList_ofList]
  cases Column.isInfinity (String.ofList (write a)) with
  | true => rfl
  | false =>
    cases hb : read (write a) with
    | none => rfl
    | some b =>
      rw [hread b hb]
      rfl

theorem decode?_of_isScalar {type : Scalar} (hjson : type ≠ .json)
    (hparse : ∀ raw, Column.parse id raw = Column.parseScalar type raw)
    (h : Column.IsScalar raw type (.str s)) :
    decode? id (.text s) = some (.str s) ∧ Column.Agree raw s type := by
  -- the text is a variable here, so that it is not unfolded to be compared with others
  generalize hv : Value.str s = v at h
  cases h with
  | json => exact absurd rfl hjson
  | @zonedTime t hread ht =>
    have hback := fun u => Calendar.eq_of_readZoned?_writeInstant (u := u) ht
    obtain rfl := Value.str.inj hv
    exact ⟨decode?_ofList_write hparse hback, Column.readAlike_of_read hread hback⟩
  | @localTime t hread ht =>
    have hback := fun u => Calendar.eq_of_readLocal?_writeLocal (u := u) ht
    obtain rfl := Value.str.inj hv
    exact ⟨decode?_ofList_write hparse hback, Column.readAlike_of_read hread hback⟩
  | @date d hread hd hrange =>
    have hback := fun e => Calendar.eq_of_readDate?_write (e := e) hd hrange
    obtain rfl := Value.str.inj hv
    exact ⟨decode?_ofList_write hparse hback, Column.readAlike_of_read hread hback⟩
  | @uuid u hread =>
    have hback : ∀ v, Uuid.read? u.write = some v → v = u := fun v hv =>
      Option.some.inj (hv.symm.trans u.read?_write)
    obtain rfl := Value.str.inj hv
    refine ⟨?_, Column.readAlike_of_read hread hback⟩
    rw [decode?, hparse, Column.parseScalar, Uuid.text, String.toList_ofList, u.read?_write]
    rfl
  | _ => cases hv

/-- A text that is a value is decoded to itself, and not because it is read as another value. -/
theorem decode?_str_fixed (hjson : id ≠ 114) (hjsonb : id ≠ 3802)
    (h : decode? id (.text raw) = some (.str s)) :
    decode? id (.text s) = some (.str s) ∧ Column.Agree raw s id.scalar := by
  rcases decode?_text_iff.1 h with htyped | ⟨hkept, -⟩
  · cases htyped with
    | scalar hscalar =>
      exact decode?_of_isScalar (TypeId.scalar_ne_json hjson hjsonb)
        (Column.parse_of_scalar hscalar.type_ne_text) hscalar
  · obtain rfl : s = raw := Value.str.inj hkept
    exact ⟨h, Column.agree_self s id.scalar⟩

/-- A leap second in a year of five digits: the normal form of the instant is not read at all. -/
theorem decode?_str_fixed_leap :
    decode? 1184 (.text "+12024-06-30 23:59:60.5-00:30") =
        some (.str "+12024-07-01T00:29:60.500Z") ∧
      decode? 1184 (.text "+12024-07-01T00:29:60.500Z") =
        some (.str "+12024-07-01T00:29:60.500Z") ∧
      Column.Agree "+12024-06-30 23:59:60.5-00:30" "+12024-07-01T00:29:60.500Z" .zonedTime := by
  have hdecode : decode? 1184 (.text "+12024-06-30 23:59:60.5-00:30") =
      some (.str "+12024-07-01T00:29:60.500Z") := rfl
  exact ⟨hdecode, decode?_str_fixed (by decide) (by decide) hdecode⟩

end Cell
end Changefeed
