import Changefeed.Recording.Replay

/-!
# What a recording means

A recorded transaction means a time and a list of actions, or nothing when it has a flaw: a kind or
a cell that cannot be read, a relation that is not in the recording, or no commit time. Nothing else
that a session remembers plays a part. Loading the transaction into a session comes to the same.
-/

namespace Changefeed

def lastRelation (relations : List (RelationId × Relation)) (id : RelationId) : Option Relation :=
  relations.reverse.lookup id

theorem RelationCache.get?_update_of_ne (c : RelationCache) {id other : RelationId} (r : Relation)
    (h : other ≠ id) : (c.update id r).get? other = c.get? other := by
  obtain ⟨entries⟩ := c
  have hne : (other == id) = false := by simp [h]
  simp only [get?, update, remove, List.lookup_cons, hne]
  induction entries with
  | nil => rfl
  | cons p entries ih =>
    obtain ⟨k, v⟩ := p
    by_cases hk : k = id
    · subst hk
      simp [List.lookup_cons, hne, ih]
    · simp [List.lookup_cons, hk, ih]

theorem Session.get?_registerAll (s : Session) (relations : List (RelationId × Relation))
    (id : RelationId) : (s.registerAll relations).relations.get? id =
      (lastRelation relations id).or (s.relations.get? id) := by
  induction relations generalizing s with
  | nil => rfl
  | cons p relations ih =>
    obtain ⟨k, v⟩ := p
    -- What is registered later stands earlier in the reversed list, as a look-up wants it.
    have hcons : s.registerAll ((k, v) :: relations) = (s.register k v).registerAll relations := rfl
    rw [hcons, ih, lastRelation, lastRelation, List.reverse_cons, List.lookup_append,
      Option.or_assoc]
    congr 1
    by_cases hk : id = k
    · subst hk
      simp [register, RelationCache.get?_update_self]
    · have hne : (id == k) = false := by simp [hk]
      simp [register, RelationCache.get?_update_of_ne _ _ hk, List.lookup_cons, hne]

theorem Session.registerAll_eq (s : Session) (relations : List (RelationId × Relation)) :
    s.registerAll relations = { s with relations := (s.registerAll relations).relations } := by
  induction relations generalizing s with
  | nil => rfl
  | cons p relations ih => exact ih (s.register p.1 p.2)

namespace RecordedCell

def read? : RecordedCell → Option Cell
  | .null => some .null
  | .text s => some (.text s)
  | .binary digits => (Hex.decode digits).toOption.map .binary
  | .unchanged mark => if mark then some .unchanged else none

theorem toOption_toCell (c : RecordedCell) : c.toCell.toOption = c.read? := by
  cases c with
  | null => rfl
  | text s => rfl
  | binary digits =>
    simp only [toCell, read?]
    cases Hex.decode digits <;> rfl
  | unchanged mark => cases mark <;> rfl

theorem toOption_toCells (cells : List RecordedCell) :
    (toCells cells).toOption = cells.mapM read? := by
  induction cells with
  | nil => rfl
  | cons c cells ih =>
    rw [List.mapM_cons, ← ih, ← toOption_toCell, toCells]
    cases c.toCell with
    | error e => rfl
    | ok x => cases toCells cells <;> rfl

end RecordedCell

def RecordedAction.read? (relations : List (RelationId × Relation)) (a : RecordedAction) :
    Option Action := do
  let kind ← ActionKind.ofText? a.kind
  let old ← a.old.mapM RecordedCell.read?
  let new ← a.new.mapM RecordedCell.read?
  let r ← lastRelation relations a.relation
  return ⟨r.schema, r.table, kind, r.decodeRow old, r.decodeRow new⟩

def RecordedTransaction.read? (relations : List (RelationId × Relation))
    (t : RecordedTransaction) : Option (Timestamp × List Action) := do
  let actions ← t.actions.mapM (RecordedAction.read? relations)
  let time ← t.commitTime
  return (time, actions)

inductive RecordedTransaction.Flaw (relations : List (RelationId × Relation))
    (t : RecordedTransaction) : Prop
  | kind {a : RecordedAction} (ha : a ∈ t.actions) (h : ActionKind.ofText? a.kind = none)
  | cell {a : RecordedAction} (ha : a ∈ t.actions) {c : RecordedCell} (hc : c ∈ a.old ++ a.new)
    (h : c.read? = none)
  | relation {a : RecordedAction} (ha : a ∈ t.actions) (h : ∀ p ∈ relations, p.1 ≠ a.relation)
  | time (h : t.commitTime = none)

theorem mapM_eq_none_iff {α β : Type} {f : α → Option β} {xs : List α} :
    xs.mapM f = none ↔ ∃ x ∈ xs, f x = none := by
  induction xs with
  | nil => simp
  | cons x xs ih =>
    rw [List.mapM_cons]
    cases hx : f x with
    | none => simp [hx]
    | some y =>
      cases hxs : xs.mapM f <;> simp_all

theorem lastRelation_eq_none_iff {relations : List (RelationId × Relation)} {id : RelationId} :
    lastRelation relations id = none ↔ ∀ p ∈ relations, p.1 ≠ id := by
  simp only [lastRelation, List.lookup_eq_none_iff, List.mem_reverse, bne_iff_ne]
  exact ⟨fun h p hp => (h p hp).symm, fun h p hp => (h p hp).symm⟩

theorem RecordedAction.read?_eq_none_iff {relations : List (RelationId × Relation)}
    {a : RecordedAction} : a.read? relations = none ↔ ActionKind.ofText? a.kind = none ∨
      (∃ c ∈ a.old ++ a.new, c.read? = none) ∨ ∀ p ∈ relations, p.1 ≠ a.relation := by
  simp only [List.mem_append, or_and_right, exists_or]
  rw [← mapM_eq_none_iff, ← mapM_eq_none_iff, ← lastRelation_eq_none_iff]
  unfold read?
  cases ActionKind.ofText? a.kind with
  | none => simp
  | some kind =>
    cases a.old.mapM RecordedCell.read? with
    | none => simp
    | some old =>
      cases a.new.mapM RecordedCell.read? with
      | none => simp
      | some new => cases lastRelation relations a.relation <;> simp

theorem RecordedTransaction.read?_eq_none_iff {relations : List (RelationId × Relation)}
    {t : RecordedTransaction} : t.read? relations = none ↔ t.Flaw relations := by
  have hnone : t.read? relations = none ↔
      (∃ a ∈ t.actions, a.read? relations = none) ∨ t.commitTime = none := by
    rw [← mapM_eq_none_iff]
    unfold read?
    cases t.actions.mapM (RecordedAction.read? relations) with
    | none => simp
    | some actions => cases t.commitTime <;> simp
  rw [hnone]
  constructor
  · intro hread
    rcases hread with ⟨a, ha, h⟩ | h
    · rcases RecordedAction.read?_eq_none_iff.1 h with h | ⟨c, hc, h⟩ | h
      · exact .kind ha h
      · exact .cell ha hc h
      · exact .relation ha h
    · exact .time h
  · intro hflaw
    rcases hflaw with ⟨ha, h⟩ | ⟨ha, hc, h⟩ | ⟨ha, h⟩ | h
    · exact .inl ⟨_, ha, RecordedAction.read?_eq_none_iff.2 (.inl h)⟩
    · exact .inl ⟨_, ha, RecordedAction.read?_eq_none_iff.2 (.inr (.inl ⟨_, hc, h⟩))⟩
    · exact .inl ⟨_, ha, RecordedAction.read?_eq_none_iff.2 (.inr (.inr h))⟩
    · exact .inr h

theorem toOption_map {ε α β : Type} (f : α → β) (x : Except ε α) :
    (x.map f).toOption = x.toOption.map f := by
  cases x <;> rfl

theorem toOption_eq_some_iff {ε α : Type} {x : Except ε α} {y : α} :
    x.toOption = some y ↔ x = .ok y := by
  cases x <;> simp [Except.toOption]

namespace Session

def Knows (s : Session) (relations : List (RelationId × Relation)) : Prop :=
  ∀ id, s.relations.get? id = lastRelation relations id

variable {s : Session} {relations : List (RelationId × Relation)}

theorem knows_registerAll (resources : Resources) (relations : List (RelationId × Relation)) :
    ((new resources).registerAll relations).Knows relations := by
  intro id
  rw [get?_registerAll]
  exact Option.or_none

theorem toOption_load (h : s.Knows relations) (a : RecordedAction) :
    (s.load a).toOption = (a.read? relations).map s.push := by
  unfold load RecordedAction.read? createAction ActionKind.read
  rw [h, ← RecordedCell.toOption_toCells, ← RecordedCell.toOption_toCells]
  cases ActionKind.ofText? a.kind with
  | none => rfl
  | some kind =>
    cases RecordedCell.toCells a.old with
    | error e => rfl
    | ok old =>
      cases RecordedCell.toCells a.new with
      | error e => rfl
      | ok new => cases lastRelation relations a.relation <;> rfl

theorem toOption_loadAll (h : s.Knows relations) (actions : List RecordedAction) :
    (s.loadAll actions).toOption = (actions.mapM (RecordedAction.read? relations)).map fun more =>
      { s with actions := s.actions ++ more } := by
  induction actions generalizing s with
  | nil =>
    have hnil : s.loadAll [] = .ok s := rfl
    rw [hnil]
    simp [Except.toOption]
  | cons a actions ih =>
    have hload := toOption_load h a
    rw [List.mapM_cons]
    unfold loadAll
    cases hs : s.load a with
    | error e =>
      rw [hs] at hload
      cases hread : a.read? relations with
      | none => rfl
      | some x => simp [hread, Except.toOption] at hload
    | ok s' =>
      rw [hs] at hload
      cases hread : a.read? relations with
      | none => simp [hread, Except.toOption] at hload
      | some x =>
        have hpush : s' = s.push x := by simpa [hread, Except.toOption] using hload
        subst hpush
        have hrest := ih (show (s.push x).Knows relations from h)
        dsimp only
        rw [hrest]
        cases actions.mapM (RecordedAction.read? relations) with
        | none => rfl
        | some more => simp [push]

theorem commitRecorded_beginRecorded (s : Session) (t : RecordedTransaction) (more : List Action) :
    let s' := { s.beginRecorded t with actions := s.actions ++ more }.commitRecorded t
    s'.resources = s.resources ∧ s'.relations = s.relations ∧
      s'.commitTime = t.commitTime.or s.commitTime ∧ s'.actions = s.actions ++ more := by
  unfold beginRecorded commitRecorded
  cases t.beginTime <;> cases t.commitTime <;> exact ⟨rfl, rfl, rfl, rfl⟩

theorem knows_beginRecorded (h : s.Knows relations) (t : RecordedTransaction) :
    (s.beginRecorded t).Knows relations := by
  unfold beginRecorded
  split <;> exact h

theorem actions_beginRecorded (s : Session) (t : RecordedTransaction) :
    (s.beginRecorded t).actions = s.actions := by
  unfold beginRecorded
  split <;> rfl

theorem toOption_loadTransaction (h : s.Knows relations) (t : RecordedTransaction) :
    (s.loadTransaction t).toOption = (t.actions.mapM (RecordedAction.read? relations)).map
      fun more => { s.beginRecorded t with actions := s.actions ++ more }.commitRecorded t := by
  have hload := toOption_loadAll (knows_beginRecorded h t) t.actions
  rw [actions_beginRecorded] at hload
  unfold loadTransaction
  rw [toOption_map, hload, Option.map_map]
  rfl

def Idle (s : Session) : Prop := s.commitTime = none ∧ s.actions = []

theorem loadTransaction_of_read (h : s.Knows relations) (hidle : s.Idle)
    {t : RecordedTransaction} {time : Timestamp} {actions : List Action}
    (hread : t.read? relations = some (time, actions)) :
    ∃ s', s.loadTransaction t = .ok s' ∧ s'.resources = s.resources ∧
      s'.relations = s.relations ∧ s'.commitTime = some time ∧ s'.actions = actions := by
  have hload := toOption_loadTransaction h t
  unfold RecordedTransaction.read? at hread
  cases hm : t.actions.mapM (RecordedAction.read? relations) with
  | none => simp [hm] at hread
  | some more =>
    cases ht : t.commitTime with
    | none => simp [hm, ht] at hread
    | some time' =>
      obtain ⟨rfl, rfl⟩ : time' = time ∧ more = actions := by simpa [hm, ht] using hread
      rw [hm, Option.map_some, toOption_eq_some_iff] at hload
      obtain ⟨hresources, hrelations, htime, hactions⟩ := commitRecorded_beginRecorded s t more
      refine ⟨_, hload, hresources, hrelations, ?_, ?_⟩
      · rw [htime, ht]
        rfl
      · rw [hactions, hidle.2, List.nil_append]

/-- A session that takes a transaction with a flaw has no commit time for it. -/
theorem commitTime_of_read (h : s.Knows relations) (hidle : s.Idle) {t : RecordedTransaction}
    (hread : t.read? relations = none) {s' : Session} (hs : s.loadTransaction t = .ok s') :
    s'.resources = s.resources ∧ s'.relations = s.relations ∧ s'.commitTime = none := by
  have hload := toOption_loadTransaction h t
  rw [hs] at hload
  unfold RecordedTransaction.read? at hread
  cases hm : t.actions.mapM (RecordedAction.read? relations) with
  | none => simp [hm, Except.toOption] at hload
  | some more =>
    cases ht : t.commitTime with
    | some time => simp [hm, ht] at hread
    | none =>
      rw [hm, Option.map_some, toOption_eq_some_iff] at hload
      obtain ⟨hresources, hrelations, htime, -⟩ := commitRecorded_beginRecorded s t more
      cases hload
      exact ⟨hresources, hrelations, by rw [htime, ht, hidle.1]; rfl⟩

end Session
end Changefeed
