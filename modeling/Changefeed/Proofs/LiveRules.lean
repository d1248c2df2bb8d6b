import Changefeed.Proofs.ActionNames
import Mathlib.Data.Finset.Basic
import Mathlib.Data.Fintype.EquivFin

/-!
# Rules that can apply

A valid configuration restricts columns of listed tables only, and each to some values. So a rule
applies to some change, unless no action is allowed for its table under any spelling of it: such a
table is listed, but all its changes are dropped before their columns are looked at
(`FilterSection.rule_applies_iff`).
-/

namespace Changefeed

namespace Keyed

variable {α β : Type}

theorem find?_mapValues (f : α → β) (key : String) (l : List (String × α)) :
    find? key (mapValues f l) = (find? key l).map f := by
  induction l with
  | nil => rfl
  | cons p l ih =>
    have ih' : find? key (l.map fun p => (p.1, f p.2)) = (find? key l).map f := ih
    rw [mapValues, List.map_cons, find?, find?, ih', apply_ite (Option.map f)]
    rfl

theorem Sorted.mapValues {l : List (String × α)} (h : Sorted l) (f : α → β) :
    Sorted (mapValues f l) :=
  List.pairwise_map.2 h

end Keyed

namespace Filter

theorem exists_notElem (values : List String) : ∃ text, Fold.elem text values = false := by
  obtain ⟨n, hn⟩ := Infinite.exists_notMem_finset
    (values.map fun v => (Fold.fold v).length).toFinset
  have hfold : Fold.fold (String.ofList (List.replicate n 'x')) =
      String.ofList (List.replicate n 'x') := by
    have hletter : Fold.ofChar 'x' = ['x'] := by decide +kernel
    rw [Fold.fold, String.toList_ofList, Fold.ofList, List.flatMap_replicate, hletter,
      List.flatten_replicate_singleton]
  refine ⟨String.ofList (List.replicate n 'x'), Bool.eq_false_iff.2 ?_⟩
  rw [Ne, elem_iff, hfold]
  rintro ⟨v, hv, heq⟩
  refine hn (List.mem_toFinset.2 (List.mem_map.2 ⟨v, hv, ?_⟩))
  rw [heq, String.length_ofList, List.length_replicate]

section Rows

variable {row : Row} {column : String} {values : List String} {text : String}

theorem violation?_str (h : Keyed.find? column row = some (.str text)) :
    violation? row (column, values) = if Fold.elem text values then none else some text := by
  have hvalue : columnValue? column row = some (.str text) := by
    rw [columnValue?, h, Option.some_or]
  rw [violation?, hvalue]
  rfl

theorem violation?_head (h : Keyed.find? column row = some (.str (values.headD "")))
    (hvalues : values ≠ []) : violation? row (column, values) = none := by
  obtain ⟨v, values, rfl⟩ := List.exists_cons_of_ne_nil hvalues
  exact (violation?_str h).trans (if_pos ((elem_iff ..).2 ⟨v, List.mem_cons_self, rfl⟩))

/-- The row that meets all rules by their first values, except for one column. -/
def rowAgainst (rules : ColumnRules) (column text : String) : Row :=
  Keyed.insert column (.str text) (Keyed.mapValues (fun values => .str (values.headD "")) rules)

theorem checkColumns_rowAgainst {rules : ColumnRules} (hsorted : Keyed.Sorted rules)
    (hvalues : ∀ rule ∈ rules, rule.2 ≠ []) (hrule : (column, values) ∈ rules)
    (htext : Fold.elem text values = false) :
    checkColumns (rowAgainst rules column text) rules = .skipColumn column text := by
  have hown : Keyed.find? column (rowAgainst rules column text) = some (.str text) :=
    Keyed.find?_insert_self ..
  rw [checkColumns_eq_skipColumn_iff hsorted]
  refine ⟨⟨values, hrule, ?_⟩, ?_⟩
  · rw [violation?_str hown, htext]
    rfl
  · intro other hother hviolated
    by_cases hcolumn : column = other.1
    · exact hcolumn ▸ String.le_refl _
    · have hfind : Keyed.find? other.1 (rowAgainst rules column text) =
          some (.str (other.2.headD "")) := by
        rw [rowAgainst, Keyed.find?_insert_of_ne hcolumn, Keyed.find?_mapValues,
          hsorted.find?_eq_some_iff.2 hother]
        rfl
      rw [violation?_head hfind (hvalues other hother)] at hviolated
      cases hviolated

end Rows

/-- Some change of the table gets past the allowed actions, and the filter drops it because the
column has a value that the rule does not list. -/
def Applies (f : Filter) (table column : String) (values : List String) : Prop :=
  ∃ (e : Event) (kind : ActionKind) (text : String), e.table = table ∧ e.action = kind.name ∧
    Keyed.Sorted e.data ∧ f.allows e.table e.action = true ∧
    f.evaluate e = .skipColumn column text ∧ Fold.elem text values = false

end Filter

namespace FilterSection

open Changefeed.Filter

variable {f : FilterSection} {g : Filter}

theorem mem_calls {t column : String} {values : List String} :
    .withColumn t column values ∈ Call.ofSections f.tables f.columns ↔
      ∃ columns, (t, columns) ∈ f.columns ∧ (column, values) ∈ columns := by
  simp [Call.ofSections]

theorem mem_calls_allow {t : String} {actions : List String} :
    .allow t actions ∈ Call.ofSections f.tables f.columns ↔ (t, actions) ∈ f.tables := by
  simp [Call.ofSections]

structure Checked (f : FilterSection) (g : Filter) : Prop where
  filter : g = ofCalls (Call.ofSections f.tables f.columns)
  actions : ∀ t ∈ f.tables, ∀ word ∈ t.2, isActionName word = true
  values : ∀ t ∈ f.columns, ∀ rule ∈ t.2, rule.2 ≠ []

theorem checkColumns_eq_ok_iff (t : String) (columns : List (String × List String)) :
    f.checkColumns t columns = .ok () ↔ f.lists t = true ∧ ∀ rule ∈ columns, rule.2 ≠ [] := by
  rw [checkColumns]
  by_cases hlists : f.lists t = true
  · rw [if_pos hlists]
    cases hfind : columns.find? (·.2.isEmpty) with
    | none =>
      have hall : ∀ rule ∈ columns, rule.2 ≠ [] := by simpa using hfind
      exact iff_of_true rfl ⟨hlists, hall⟩
    | some rule =>
      have hempty : rule.2 = [] := by simpa using List.find?_some hfind
      refine iff_of_false (fun hok => by cases hok) fun hall => ?_
      exact hall.2 rule (List.mem_of_find?_eq_some hfind) hempty
  · rw [if_neg hlists]
    exact iff_of_false (fun hok => by cases hok) fun hall => hlists hall.1

theorem checked_of_toFilter (h : f.toFilter = .ok g) : Checked f g := by
  have htoFilter : f.toFilter = f.validate >>= fun _ => .ok (.ofSections f.tables f.columns) := rfl
  rw [htoFilter] at h
  cases hvalid : f.validate with
  | error e =>
    rw [hvalid] at h
    cases h
  | ok u =>
    rw [hvalid] at h
    have hactions : ∀ t ∈ f.tables, ∀ word ∈ t.2, isActionName word = true := by
      rw [← validate_ne_invalidAction_iff, hvalid]
      exact fun _ _ => nofun
    refine ⟨(Except.ok.inj h).symm.trans (ofSections_eq_ofCalls ..), hactions, ?_⟩
    intro t ht
    rw [validate_eq] at hvalid
    cases htables : f.tables.forM fun t => checkActions t.1 t.2 with
    | error e =>
      rw [htables] at hvalid
      cases hvalid
    | ok u =>
      rw [htables] at hvalid
      exact ((checkColumns_eq_ok_iff t.1 t.2).1 (forM_eq_ok_iff.1 hvalid t ht)).2

theorem Checked.exists_kind (h : Checked f g) {t : String} {actions : List String}
    (ht : (t, actions) ∈ f.tables) (hactions : actions ≠ []) :
    ∃ kind : ActionKind, ∃ word ∈ actions, Fold.fold word = Fold.fold kind.name := by
  obtain ⟨word, rest, rfl⟩ := List.exists_cons_of_ne_nil hactions
  have hvalid := h.actions _ ht word List.mem_cons_self
  obtain ⟨kind, hkind⟩ := ((isActionName_iff word).1 hvalid).1
  rw [elem_iff] at hkind
  obtain ⟨other, hother, hfold⟩ := hkind
  obtain rfl := List.mem_singleton.1 hother
  exact ⟨kind, other, List.mem_cons_self, hfold⟩

theorem Checked.values_ne_nil (h : Checked f g) {table : String} :
    ∀ rule ∈ rulesUnder (Fold.fold table) g, rule.2 ≠ [] := by
  rintro ⟨column, values⟩ hrule
  rw [h.filter] at hrule
  obtain ⟨⟨t, listed, hcall, ht⟩, rfl⟩ := (mem_rulesUnder_iff _ _ _ _).1 hrule
  obtain ⟨columns, hcolumns, hmem⟩ := mem_calls.1 hcall
  obtain ⟨v, rest, rfl⟩ := List.exists_cons_of_ne_nil (h.values _ hcolumns _ hmem)
  have hv : v ∈ valuesUnder (Fold.fold table) column (Call.ofSections f.tables f.columns) :=
    List.mem_flatMap.2 ⟨_, hcall, by simp [ht]⟩
  exact List.ne_nil_of_mem hv

theorem rule_applies_iff (h : f.toFilter = .ok g) : ∀ t ∈ f.columns, ∀ rule ∈ t.2,
    Applies g t.1 rule.1 rule.2 ↔
      ∃ listed ∈ f.tables, Fold.fold listed.1 = Fold.fold t.1 ∧ listed.2 ≠ [] := by
  rintro ⟨table, columns⟩ ht ⟨column, values⟩ hrule
  have hchecked := checked_of_toFilter h
  obtain rfl := hchecked.filter
  dsimp only at hrule ⊢
  constructor
  · rintro ⟨e, kind, text, rfl, -, -, hallows, -, -⟩
    obtain ⟨t, actions, hcall, ht, a, ha, -⟩ := (allows_iff _ _ _).1 hallows
    exact ⟨(t, actions), mem_calls_allow.1 hcall, ht, List.ne_nil_of_mem ha⟩
  · rintro ⟨⟨t, actions⟩, hlisted, hfold, hactions⟩
    obtain ⟨kind, word, hword, hkind⟩ := hchecked.exists_kind hlisted hactions
    have hcall : .withColumn table column values ∈ Call.ofSections f.tables f.columns :=
      mem_calls.2 ⟨columns, ht, hrule⟩
    let rules := rulesUnder (Fold.fold table) (ofCalls (Call.ofSections f.tables f.columns))
    have hsorted : Keyed.Sorted rules := sorted_rulesUnder_foldl _ _ Filter.empty List.Pairwise.nil
    -- All values that are listed for the column count, under any spelling of the table.
    obtain ⟨text, htext⟩ := exists_notElem
      (valuesUnder (Fold.fold table) column (Call.ofSections f.tables f.columns))
    have hmem := (mem_rulesUnder_iff _ table column _).2 ⟨⟨table, values, hcall, rfl⟩, rfl⟩
    let e : Event := { Event.blank with
      table := table, action := kind.name, data := rowAgainst rules column text }
    have hallows : (ofCalls (Call.ofSections f.tables f.columns)).allows table kind.name = true :=
      (allows_iff _ _ _).2 ⟨t, actions, mem_calls_allow.2 hlisted, hfold, word, hword, hkind⟩
    refine ⟨e, kind, text, rfl, rfl, (hsorted.mapValues _).insert .., hallows, ?_, ?_⟩
    · rw [evaluate_ofCalls, if_pos hallows]
      exact checkColumns_rowAgainst hsorted hchecked.values_ne_nil hmem htext
    · rw [Bool.eq_false_iff, Ne, elem_valuesUnder] at htext
      rw [Bool.eq_false_iff, Ne, elem_iff]
      exact fun haccepted => htext ⟨table, values, hcall, rfl, haccepted⟩

def respelledSection : FilterSection :=
  ⟨[("Users", ["Insert"]), ("users", [])],
    [("USERS", [("Status", ["active", "new"]), ("status", ["active"])])]⟩

theorem rule_applies_respelled :
    ∃ g, respelledSection.toFilter = .ok g ∧ Applies g "USERS" "status" ["active"] := by
  refine ⟨_, rfl, ?_⟩
  refine (rule_applies_iff (f := respelledSection) rfl _ List.mem_cons_self ("status", ["active"])
    (by decide)).2 ⟨("Users", ["Insert"]), List.mem_cons_self, ?_, by decide⟩
  decide +kernel

/-- The table of the rule is listed, but none of its changes gets as far as the rule. -/
theorem rule_never_applies :
    ∃ g, FilterSection.toFilter ⟨[("users", [])], [("users", [("status", ["active"])])]⟩ = .ok g ∧
      ∀ (e : Event) (text : String), ¬ (g.allows e.table e.action = true ∧
        g.evaluate e = .skipColumn "status" text) := by
  refine ⟨_, rfl, fun e text h => ?_⟩
  have hallows := h.1
  rw [ofSections_eq_ofCalls, allows_iff] at hallows
  obtain ⟨t, actions, hcall, -, a, ha, -⟩ := hallows
  have hlisted : (t, actions) ∈ [("users", ([] : List String))] :=
    (mem_calls_allow (f := ⟨[("users", [])], [("users", [("status", ["active"])])]⟩)).1 hcall
  obtain ⟨-, rfl⟩ := Prod.mk.inj (List.mem_singleton.1 hlisted)
  cases ha

end FilterSection
end Changefeed
