import Changefeed.Proofs.FilterMeaning
import Mathlib.Data.List.Forall2
import Mathlib.Data.List.Nodup

/-!
# Filters in another spelling

Two lists of calls that differ only in the case of their words allow the same actions. They pass the
same rows if the same restrictions fall together in both (`Filter.passed_respelled`). A column stays
under the name by which it was restricted: one name given twice is a single restriction with all the
values, but two spellings of one column are two restrictions, and a row has to meet each of them. So
a spelling that keeps more names apart never passes more, and it can pass less
(`Filter.passed_apart`).
-/

namespace Changefeed.Filter

deriving instance DecidableEq for Call

def Call.folded : Call → Call
  | .allow table actions => .allow (Fold.fold table) (actions.map Fold.fold)
  | .withColumn table column values =>
    .withColumn (Fold.fold table) (Fold.fold column) (values.map Fold.fold)

/-- The table and the column under which the values of a call are kept. -/
def Call.place? : Call → Option (String × String)
  | .allow .. => none
  | .withColumn table column _ => some (Fold.fold table, column)

/-- Calls whose values are kept together in `calls'` are so in `calls`. -/
def Merges (calls calls' : List Call) : Prop :=
  ∀ p ∈ calls.zip calls', ∀ q ∈ calls.zip calls',
    p.2.place? = q.2.place? → p.1.place? = q.1.place?

instance (calls calls' : List Call) : Decidable (Merges calls calls') :=
  inferInstanceAs (Decidable (∀ p ∈ calls.zip calls', ∀ q ∈ calls.zip calls', _))

section Rows

variable {row : Row} (hrow : (row.map fun m => Fold.fold m.1).Nodup)
include hrow

theorem unambiguous_of_nodup (column : String) : Unambiguous row column := by
  intro _ name hname other hother hn ho
  obtain ⟨m, hm, rfl⟩ := List.mem_map.1 hname
  obtain ⟨n, hn', rfl⟩ := List.mem_map.1 hother
  exact congrArg Prod.fst (List.inj_on_of_nodup_map hrow hm hn' (hn.trans ho.symm))

theorem holds_iff (column : String) (v : Value) :
    Holds row column v ↔
      ∃ name, Fold.fold name = Fold.fold column ∧ Keyed.find? name row = some v := by
  constructor
  · rintro (hexact | ⟨-, hother⟩)
    · exact ⟨column, rfl, hexact⟩
    · exact hother
  · rintro ⟨name, hname, hv⟩
    cases hexact : Keyed.find? column row with
    | none => exact .inr ⟨hexact, name, hname, hv⟩
    | some w =>
      have heq : (name, v) = (column, w) := List.inj_on_of_nodup_map hrow
        (Keyed.mem_of_find? hv) (Keyed.mem_of_find? hexact) hname
      exact .inl (by rw [hexact, (Prod.mk.inj heq).2])

end Rows

section Passing

variable {calls : List Call} {e : Event} (hkeys : (e.data.map fun m => Fold.fold m.1).Nodup)
include hkeys

theorem forall_violation?_eq_none_iff :
    (∀ rule ∈ rulesUnder (Fold.fold e.table) (ofCalls calls), violation? e.data rule = none) ↔
      ∀ column v, ¬ Violates calls e column v := by
  have hviolated : ∀ column text,
      (∃ values, (column, values) ∈ rulesUnder (Fold.fold e.table) (ofCalls calls) ∧
        violation? e.data (column, values) = some text) ↔
      ∃ v, Violates calls e column v ∧ text = v.render :=
    exists_violation_iff fun column _ => unambiguous_of_nodup hkeys column
  constructor
  · intro hnone column v hv
    obtain ⟨values, hmem, hvalue⟩ := (hviolated column v.render).2 ⟨v, hv, rfl⟩
    rw [hnone _ hmem] at hvalue
    cases hvalue
  · intro hno rule hrule
    rw [Option.eq_none_iff_forall_ne_some]
    intro text htext
    obtain ⟨v, hv, -⟩ := (hviolated rule.1 text).1 ⟨rule.2, hrule, htext⟩
    exact hno _ v hv

theorem passed_iff : ((ofCalls calls).evaluate e).passed = true ↔
    Allows calls e.table e.action ∧ ∀ column v, ¬ Violates calls e column v := by
  have hpassed : ∀ verdict : Verdict, verdict.passed = true ↔ verdict = .pass := by
    intro verdict
    cases verdict <;> simp [Verdict.passed]
  rw [hpassed, evaluate_ofCalls, ← allows_iff, ← forall_violation?_eq_none_iff hkeys,
    ← checkColumns_eq_pass_iff]
  by_cases hallows : (ofCalls calls).allows e.table e.action = true
  · simp [hallows]
  · simp [hallows]

end Passing

section Partners

variable {calls calls' : List Call} (halike : calls.map Call.folded = calls'.map Call.folded)
include halike

theorem folded_eq_of_mem_zip {c c' : Call} (h : (c, c') ∈ calls.zip calls') :
    c.folded = c'.folded := by
  rw [← List.forall₂_eq_eq_eq, List.forall₂_map_left_iff, List.forall₂_map_right_iff,
    List.forall₂_iff_zip] at halike
  exact halike.2 h

theorem exists_mem_zip_left {c : Call} (h : c ∈ calls) : ∃ c', (c, c') ∈ calls.zip calls' := by
  have hlen : calls.length = calls'.length := by simpa using congrArg List.length halike
  rw [← List.map_fst_zip (Nat.le_of_eq hlen)] at h
  obtain ⟨p, hp, rfl⟩ := List.mem_map.1 h
  exact ⟨p.2, hp⟩

theorem exists_mem_zip_right {c' : Call} (h : c' ∈ calls') : ∃ c, (c, c') ∈ calls.zip calls' := by
  have hlen : calls.length = calls'.length := by simpa using congrArg List.length halike
  rw [← List.map_snd_zip (Nat.le_of_eq hlen.symm)] at h
  obtain ⟨p, hp, rfl⟩ := List.mem_map.1 h
  exact ⟨p.1, hp⟩

theorem Allows.of_alike {table action : String} (h : Allows calls table action) :
    Allows calls' table action := by
  obtain ⟨t, actions, hcall, htable, hallowed⟩ := h
  obtain ⟨c', hmem⟩ := exists_mem_zip_left halike hcall
  have hfolded := folded_eq_of_mem_zip halike hmem
  cases c' with
  | withColumn => cases hfolded
  | allow t' actions' =>
    obtain ⟨ht, hactions⟩ := Call.allow.inj hfolded
    rw [← List.mem_map, hactions, List.mem_map] at hallowed
    exact ⟨t', actions', (List.of_mem_zip hmem).2, ht ▸ htable, hallowed⟩

theorem Accepts.of_merges (hmerges : Merges calls calls') {t t' table column column' text : String}
    {values values' : List String} (ht : Fold.fold t = Fold.fold table)
    (hmem : (.withColumn t column values, .withColumn t' column' values') ∈ calls.zip calls')
    (h : Accepts calls' table column' text) : Accepts calls table column text := by
  obtain ⟨u', others', hcall, hu', hvalue⟩ := h
  obtain ⟨c, hpartner⟩ := exists_mem_zip_right halike hcall
  have hfolded := folded_eq_of_mem_zip halike hpartner
  cases c with
  | allow => cases hfolded
  | withColumn u other others =>
    obtain ⟨hu, -, hothers⟩ := Call.withColumn.inj hfolded
    have ht' : Fold.fold t = Fold.fold t' :=
      (Call.withColumn.inj (folded_eq_of_mem_zip halike hmem)).1
    have hplace : some (Fold.fold u, other) = some (Fold.fold t, column) := by
      apply hmerges _ hpartner _ hmem
      rw [Call.place?, Call.place?, hu', ← ht, ht']
    obtain ⟨-, rfl⟩ := Prod.mk.inj (Option.some.inj hplace)
    rw [← List.mem_map, ← hothers, List.mem_map] at hvalue
    exact ⟨u, others, (List.of_mem_zip hpartner).1, hu.trans hu', hvalue⟩

theorem passed_of_merges {e : Event} (hkeys : (e.data.map fun m => Fold.fold m.1).Nodup)
    (hmerges : Merges calls calls') (h : ((ofCalls calls').evaluate e).passed = true) :
    ((ofCalls calls).evaluate e).passed = true := by
  rw [passed_iff hkeys] at h ⊢
  obtain ⟨hallows, hno⟩ := h
  refine ⟨hallows.of_alike halike.symm, ?_⟩
  rintro column v ⟨⟨t, values, hcall, ht⟩, hholds, hrefused⟩
  obtain ⟨c', hmem⟩ := exists_mem_zip_left halike hcall
  have hfolded := folded_eq_of_mem_zip halike hmem
  cases c' with
  | allow => cases hfolded
  | withColumn t' column' values' =>
    obtain ⟨ht', hcolumn, -⟩ := Call.withColumn.inj hfolded
    apply hno column' v
    refine ⟨⟨t', values', (List.of_mem_zip hmem).2, ht' ▸ ht⟩, ?_, ?_⟩
    · rw [holds_iff hkeys] at hholds ⊢
      rwa [← hcolumn]
    · intro haccepted
      exact hrefused (haccepted.of_merges halike hmerges ht hmem)

/-- Case in a configuration matters at most for which restrictions fall together. -/
theorem passed_respelled :
    (∀ table action, (ofCalls calls).allows table action = (ofCalls calls').allows table action) ∧
    ∀ e : Event, (e.data.map fun m => Fold.fold m.1).Nodup →
      (Merges calls calls' → ((ofCalls calls').evaluate e).passed = true →
        ((ofCalls calls).evaluate e).passed = true) ∧
      (Merges calls calls' → Merges calls' calls →
        ((ofCalls calls).evaluate e).passed = ((ofCalls calls').evaluate e).passed) := by
  refine ⟨?_, ?_⟩
  · intro table action
    rw [Bool.eq_iff_iff, allows_iff, allows_iff]
    exact ⟨Allows.of_alike halike, Allows.of_alike halike.symm⟩
  · intro e hkeys
    have hcoarser := fun hmerges => passed_of_merges halike hkeys hmerges
    have hfiner := fun hmerges => passed_of_merges halike.symm hkeys hmerges
    exact ⟨hcoarser, fun hmerges hmerges' =>
      Bool.eq_iff_iff.2 ⟨hfiner hmerges', hcoarser hmerges⟩⟩

end Partners

def otherCalls : List Call :=
  [.allow "USERS" ["insert"], .withColumn "Users" "STATUS" ["ACTIVE"],
    .withColumn "users" "region" ["EU", "Ch"]]

theorem passed_respelled_mixed :
    mixedCalls.map Call.folded = otherCalls.map Call.folded ∧
      (mixedEvent.data.map fun m => Fold.fold m.1).Nodup ∧
      Merges mixedCalls otherCalls ∧ Merges otherCalls mixedCalls ∧
      ((ofCalls mixedCalls).evaluate mixedEvent).passed =
        ((ofCalls otherCalls).evaluate mixedEvent).passed := by
  have halike : mixedCalls.map Call.folded = otherCalls.map Call.folded := by decide +kernel
  have hkeys : (mixedEvent.data.map fun m => Fold.fold m.1).Nodup := by decide +kernel
  have hmerges : Merges mixedCalls otherCalls ∧ Merges otherCalls mixedCalls := by decide +kernel
  exact ⟨halike, hkeys, hmerges.1, hmerges.2,
    ((passed_respelled halike).2 mixedEvent hkeys).2 hmerges.1 hmerges.2⟩

/-- Two values for a column, the second of them given under the name `column`. -/
def statusCalls (column : String) : List Call :=
  [.allow "users" ["insert"], .withColumn "users" "status" ["active"],
    .withColumn "users" column ["pending"]]

def activeEvent : Event :=
  { Event.blank with table := "users", action := "insert", data := [("status", .str "active")] }

theorem passed_apart :
    (statusCalls "status").map Call.folded = (statusCalls "Status").map Call.folded ∧
      (activeEvent.data.map fun m => Fold.fold m.1).Nodup ∧
      ((ofCalls (statusCalls "status")).evaluate activeEvent).passed = true ∧
      ((ofCalls (statusCalls "Status")).evaluate activeEvent).passed = false := by
  decide +kernel

end Changefeed.Filter
