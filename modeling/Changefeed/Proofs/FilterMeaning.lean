import Changefeed.Filter
import Changefeed.Proofs.Folding
import Changefeed.Proofs.Lookup

/-!
# What a filter means

A filter is built by calls that allow actions and restrict columns. Its verdict depends on nothing
but which calls were made: an action has to be allowed for the table, and the verdict on a row names
the first restricted column, in the order of code points, whose value no call accepts. Tables are
looked up as they are before they are folded, which is sound because the keys are folds and folding
is stable.
-/

namespace Changefeed.Filter

inductive Call
  | allow (table : String) (actions : List String)
  | withColumn (table column : String) (values : List String)

def call (f : Filter) : Call → Filter
  | .allow table actions => f.allow table actions
  | .withColumn table column values => f.withColumn table column values

def ofCalls (calls : List Call) : Filter := calls.foldl call empty

def Call.ofSections (tables : List (String × List String))
    (columns : List (String × ColumnRules)) : List Call :=
  tables.map (fun t => .allow t.1 t.2) ++
    columns.flatMap fun t => t.2.map fun c => .withColumn t.1 c.1 c.2

def Allows (calls : List Call) (table action : String) : Prop :=
  ∃ t actions, .allow t actions ∈ calls ∧ Fold.fold t = Fold.fold table ∧
    ∃ a ∈ actions, Fold.fold a = Fold.fold action

def Restricts (calls : List Call) (table column : String) : Prop :=
  ∃ t values, .withColumn t column values ∈ calls ∧ Fold.fold t = Fold.fold table

def Accepts (calls : List Call) (table column text : String) : Prop :=
  ∃ t values, .withColumn t column values ∈ calls ∧ Fold.fold t = Fold.fold table ∧
    ∃ v ∈ values, Fold.fold v = Fold.fold text

def Holds (row : Row) (column : String) (v : Value) : Prop :=
  Keyed.find? column row = some v ∨
    Keyed.find? column row = none ∧
      ∃ name, Fold.fold name = Fold.fold column ∧ Keyed.find? name row = some v

/-- At most one name in the row is equal to the column's but for case, unless the name itself is
there. -/
def Unambiguous (row : Row) (column : String) : Prop :=
  column ∉ row.map Prod.fst → ∀ name ∈ row.map Prod.fst, ∀ other ∈ row.map Prod.fst,
    Fold.fold name = Fold.fold column → Fold.fold other = Fold.fold column → name = other

def Violates (calls : List Call) (e : Event) (column : String) (v : Value) : Prop :=
  Restricts calls e.table column ∧ Holds e.data column v ∧ ¬ Accepts calls e.table column v.render

theorem ofSections_eq_ofCalls (tables : List (String × List String))
    (columns : List (String × ColumnRules)) :
    ofSections tables columns = ofCalls (Call.ofSections tables columns) := by
  simp only [ofSections, ofCalls, Call.ofSections, List.foldl_append, List.foldl_map,
    List.foldl_flatMap, call]

section Keys

variable (key : String → String)

/-- A call on a filter whose entries stand under some key of the table, not always its fold. -/
def callUnder (f : Filter) : Call → Filter
  | .allow table actions =>
    { f with tables := Keyed.alter (key table) [] (· ++ actions) f.tables }
  | .withColumn table column values =>
    { f with
      columns := Keyed.alter (key table) [] (Keyed.alter column [] (· ++ values)) f.columns }

def ofCallsUnder (calls : List Call) : Filter := calls.foldl (callUnder key) empty

def underKey? {α : Type} (table : String) (entries : List (String × α)) : Option α :=
  (Keyed.find? table entries).or (Keyed.find? (key table) entries)

def KeyedBy {α : Type} (entries : List (String × α)) : Prop := ∀ p ∈ entries, ∃ t, p.1 = key t

/-- Whatever the calls were, looking a table up as it is first finds what its key has. -/
def FindsTables : Prop := ∀ calls table,
  underKey? key table (ofCallsUnder key calls).tables =
    Keyed.find? (key table) (ofCallsUnder key calls).tables ∧
  underKey? key table (ofCallsUnder key calls).columns =
    Keyed.find? (key table) (ofCallsUnder key calls).columns

theorem ofCallsUnder_fold (calls : List Call) : ofCallsUnder Fold.fold calls = ofCalls calls := by
  have hcall : callUnder Fold.fold = call := by
    funext f c
    cases c <;> rfl
  rw [ofCallsUnder, hcall, ofCalls]

variable {key}

theorem KeyedBy.alter {α : Type} {entries : List (String × α)} (h : KeyedBy key entries)
    (table : String) (start : α) (f : α → α) :
    KeyedBy key (Keyed.alter (key table) start f entries) := by
  intro p hp
  rcases Keyed.mem_insert hp with rfl | hp
  · exact ⟨table, rfl⟩
  · exact h p hp

theorem keyedBy_callUnder {f : Filter} (h : KeyedBy key f.tables ∧ KeyedBy key f.columns)
    (c : Call) :
    KeyedBy key (callUnder key f c).tables ∧ KeyedBy key (callUnder key f c).columns := by
  cases c with
  | allow t actions => exact ⟨h.1.alter t [] (· ++ actions), h.2⟩
  | withColumn t column values => exact ⟨h.1, h.2.alter t [] (Keyed.alter column [] (· ++ values))⟩

theorem keyedBy_ofCallsUnder (key : String → String) (calls : List Call) :
    KeyedBy key (ofCallsUnder key calls).tables ∧
      KeyedBy key (ofCallsUnder key calls).columns := by
  have hfoldl : ∀ f : Filter, KeyedBy key f.tables ∧ KeyedBy key f.columns →
      KeyedBy key (calls.foldl (callUnder key) f).tables ∧
        KeyedBy key (calls.foldl (callUnder key) f).columns := by
    induction calls with
    | nil => exact fun _ h => h
    | cons c calls ih => exact fun f h => ih _ (keyedBy_callUnder h c)
  exact hfoldl empty ⟨by simp [KeyedBy, empty], by simp [KeyedBy, empty]⟩

theorem underKey?_eq_find? {α : Type} {entries : List (String × α)}
    (hkey : ∀ s, key (key s) = key s) (h : KeyedBy key entries) (table : String) :
    underKey? key table entries = Keyed.find? (key table) entries := by
  cases hfind : Keyed.find? table entries with
  | none => simp [underKey?, hfind]
  | some x =>
    obtain ⟨t, ht⟩ := h _ (Keyed.mem_of_find? hfind)
    have hown : key table = table := by
      rw [show table = key t from ht, hkey]
    simp [underKey?, hown, hfind]

theorem findsTables_iff : FindsTables key ↔ ∀ s, key (key s) = key s := by
  constructor
  · intro h s
    refine Decidable.byContradiction fun hne => ?_
    -- The name that is the key of `s` is found as it is, but not under its own key.
    obtain ⟨hfound, -⟩ := h [.allow s []] (key s)
    have htables : (ofCallsUnder key [.allow s []]).tables = [(key s, [])] := rfl
    rw [htables] at hfound
    simp [underKey?, Keyed.find?, Ne.symm hne] at hfound
  · intro hkey calls table
    have hkeyed := keyedBy_ofCallsUnder key calls
    exact ⟨underKey?_eq_find? hkey hkeyed.1 table, underKey?_eq_find? hkey hkeyed.2 table⟩

/-- Folding is stable, and looking a table up as it is would be wrong of a filter whose keys were
not. -/
theorem fold_stable :
    (∀ s, Fold.fold (Fold.fold s) = Fold.fold s) ∧
    (∀ calls, ofCallsUnder Fold.fold calls = ofCalls calls ∧
      ∀ table, underTable? table (ofCalls calls).tables =
          Keyed.find? (Fold.fold table) (ofCalls calls).tables ∧
        underTable? table (ofCalls calls).columns =
          Keyed.find? (Fold.fold table) (ofCalls calls).columns) ∧
    ∀ key, FindsTables key ↔ ∀ s, key (key s) = key s := by
  refine ⟨Fold.fold_fold, fun calls => ⟨ofCallsUnder_fold calls, ?_⟩, fun _ => findsTables_iff⟩
  rw [← ofCallsUnder_fold]
  exact findsTables_iff.2 Fold.fold_fold calls

/-- The small form of the first letter is two characters, and that of the second is not its fold. -/
example : Fold.fold "\u0130\u017f" = "i\u0307s" := by decide +kernel

end Keys

section Entries

def actionsUnder (key : String) (calls : List Call) : List String :=
  calls.flatMap fun
    | .allow t actions => if Fold.fold t = key then actions else []
    | .withColumn .. => []

def valuesUnder (key column : String) (calls : List Call) : List String :=
  calls.flatMap fun
    | .allow .. => []
    | .withColumn t c values => if Fold.fold t = key ∧ c = column then values else []

def rulesUnder (key : String) (f : Filter) : ColumnRules := (Keyed.find? key f.columns).getD []

theorem elem_iff (word : String) (set : List String) :
    Fold.elem word set = true ↔ ∃ x ∈ set, Fold.fold x = Fold.fold word := by
  simp [Fold.elem, Fold.same]

theorem elem_actionsUnder (calls : List Call) (table action : String) :
    Fold.elem action (actionsUnder (Fold.fold table) calls) = true ↔ Allows calls table action := by
  rw [elem_iff]
  constructor
  · intro h
    obtain ⟨a, ha, heq⟩ := h
    obtain ⟨c, hc, ha⟩ := List.mem_flatMap.1 ha
    cases c with
    | allow t actions =>
      by_cases ht : Fold.fold t = Fold.fold table
      · exact ⟨t, actions, hc, ht, a, by simpa [ht] using ha, heq⟩
      · simp [ht] at ha
    | withColumn => simp at ha
  · intro h
    obtain ⟨t, actions, hc, ht, a, ha, heq⟩ := h
    exact ⟨a, List.mem_flatMap.2 ⟨_, hc, by simpa [ht] using ha⟩, heq⟩

theorem elem_valuesUnder (calls : List Call) (table column text : String) :
    Fold.elem text (valuesUnder (Fold.fold table) column calls) = true ↔
      Accepts calls table column text := by
  rw [elem_iff]
  constructor
  · intro h
    obtain ⟨v, hv, heq⟩ := h
    obtain ⟨c, hc, hv⟩ := List.mem_flatMap.1 hv
    cases c with
    | allow => simp at hv
    | withColumn t c values =>
      by_cases ht : Fold.fold t = Fold.fold table ∧ c = column
      · obtain ⟨ht, rfl⟩ := ht
        exact ⟨t, values, hc, ht, v, by simpa [ht] using hv, heq⟩
      · simp [ht] at hv
  · intro h
    obtain ⟨t, values, hc, ht, v, hv, heq⟩ := h
    exact ⟨v, List.mem_flatMap.2 ⟨_, hc, by simpa [ht] using hv⟩, heq⟩

theorem find?_tables_foldl (key : String) (calls : List Call) (f : Filter) :
    (Keyed.find? key (calls.foldl call f).tables).getD [] =
      (Keyed.find? key f.tables).getD [] ++ actionsUnder key calls := by
  induction calls generalizing f with
  | nil => simp [actionsUnder]
  | cons c calls ih =>
    rw [List.foldl_cons, ih]
    cases c with
    | allow t actions =>
      simp only [call, allow, Keyed.find?_alter, actionsUnder, List.flatMap_cons]
      split
      next ht => subst ht; simp
      next => simp
    | withColumn t c values => simp [call, withColumn, actionsUnder]

theorem rulesUnder_call (key : String) (f : Filter) (c : Call) :
    rulesUnder key (f.call c) = match c with
      | .allow .. => rulesUnder key f
      | .withColumn t column values =>
        if Fold.fold t = key then Keyed.alter column [] (· ++ values) (rulesUnder key f)
        else rulesUnder key f := by
  cases c with
  | allow => rfl
  | withColumn t column values =>
    simp only [rulesUnder, call, withColumn, Keyed.find?_alter]
    split
    next ht => subst ht; rfl
    next => rfl

theorem find?_rulesUnder_foldl (key column : String) (calls : List Call) (f : Filter) :
    (Keyed.find? column (rulesUnder key (calls.foldl call f))).getD [] =
      (Keyed.find? column (rulesUnder key f)).getD [] ++ valuesUnder key column calls := by
  induction calls generalizing f with
  | nil => simp [valuesUnder]
  | cons c calls ih =>
    rw [List.foldl_cons, ih, rulesUnder_call]
    cases c with
    | allow => simp [valuesUnder]
    | withColumn t c values =>
      by_cases ht : Fold.fold t = key
      · by_cases hc : c = column
        · simp [ht, hc, Keyed.find?_alter, valuesUnder]
        · simp [ht, hc, Keyed.find?_alter, valuesUnder]
      · simp [ht, valuesUnder]

theorem isSome_rulesUnder_foldl (key column : String) (calls : List Call) (f : Filter) :
    (Keyed.find? column (rulesUnder key (calls.foldl call f))).isSome ↔
      (Keyed.find? column (rulesUnder key f)).isSome ∨
        ∃ t values, .withColumn t column values ∈ calls ∧ Fold.fold t = key := by
  induction calls generalizing f with
  | nil => simp
  | cons c calls ih =>
    rw [List.foldl_cons, ih, rulesUnder_call]
    cases c with
    | allow => simp
    | withColumn t c values =>
      by_cases ht : Fold.fold t = key
      · by_cases hc : c = column
        · subst hc
          simp only [ht, if_true, Keyed.find?_alter]
          exact iff_of_true (.inl rfl) (.inr ⟨t, values, List.mem_cons_self, ht⟩)
        · simp [ht, hc, Keyed.find?_alter]
          grind
      · simp [ht]
        grind

theorem sorted_rulesUnder_foldl (key : String) (calls : List Call) (f : Filter)
    (h : Keyed.Sorted (rulesUnder key f)) : Keyed.Sorted (rulesUnder key (calls.foldl call f)) := by
  induction calls generalizing f with
  | nil => exact h
  | cons c calls ih =>
    refine ih (f.call c) ?_
    rw [rulesUnder_call]
    cases c with
    | allow => exact h
    | withColumn t c values =>
      dsimp only
      split
      · exact h.alter ..
      · exact h

def Folded {α : Type} (entries : List (String × α)) : Prop := ∀ p ∈ entries, Fold.fold p.1 = p.1

theorem folded_iff {α : Type} {entries : List (String × α)} :
    Folded entries ↔ KeyedBy Fold.fold entries := by
  refine forall₂_congr fun p _ => ⟨fun h => ⟨p.1, h.symm⟩, ?_⟩
  rintro ⟨table, htable⟩
  rw [htable, Fold.fold_fold]

theorem folded_ofCalls (calls : List Call) :
    Folded (ofCalls calls).tables ∧ Folded (ofCalls calls).columns := by
  rw [folded_iff, folded_iff, ← ofCallsUnder_fold]
  exact keyedBy_ofCallsUnder Fold.fold calls

theorem underTable?_eq_find? {α : Type} {entries : List (String × α)} (h : Folded entries)
    (table : String) : underTable? table entries = Keyed.find? (Fold.fold table) entries :=
  underKey?_eq_find? Fold.fold_fold (folded_iff.1 h) table

end Entries

section Tiers

theorem allows_iff (calls : List Call) (table action : String) :
    (ofCalls calls).allows table action = true ↔ Allows calls table action := by
  have hfind := find?_tables_foldl (Fold.fold table) calls empty
  have hempty : (Keyed.find? (Fold.fold table) empty.tables).getD [] = [] := rfl
  rw [hempty, List.nil_append] at hfind
  rw [← elem_actionsUnder, ← hfind, allows, underTable?_eq_find? (folded_ofCalls calls).1, ofCalls]
  cases Keyed.find? (Fold.fold table) (calls.foldl call empty).tables with
  | none => simp [Fold.elem]
  | some actions => rfl

theorem columnValue?_eq_some_iff {row : Row} {column : String} (h : Unambiguous row column)
    {v : Value} : columnValue? column row = some v ↔ Holds row column v := by
  cases hexact : Keyed.find? column row with
  | some w => simp [columnValue?, Holds, hexact]
  | none =>
    have hno : column ∉ row.map Prod.fst := by
      rw [← Keyed.isSome_find?_iff, hexact]
      simp
    simp only [columnValue?, Holds, hexact, Option.none_or, reduceCtorEq, false_or, true_and]
    constructor
    · intro hfind
      obtain ⟨⟨name, w⟩, hfirst, rfl⟩ := Option.map_eq_some_iff.1 hfind
      have hsame : Fold.fold name = Fold.fold column := by
        simpa [Fold.same] using List.find?_some hfirst
      exact ⟨name, hsame, Keyed.find?_of_first (Fold.same · column) hfirst⟩
    · intro hother
      obtain ⟨name, hsame, hname⟩ := hother
      have hsome : (row.find? fun p => Fold.same p.1 column).isSome := by
        rw [List.find?_isSome]
        exact ⟨_, Keyed.mem_of_find? hname, by simpa [Fold.same] using hsame⟩
      obtain ⟨⟨other, w⟩, hfirst⟩ := Option.isSome_iff_exists.1 hsome
      have hother : Fold.fold other = Fold.fold column := by
        simpa [Fold.same] using List.find?_some hfirst
      have hw := Keyed.find?_of_first (Fold.same · column) hfirst
      have heq : other = name :=
        h hno other (Keyed.isSome_find?_iff.1 (by simp [hw])) name
          (Keyed.isSome_find?_iff.1 (by simp [hname])) hother hsame
      rw [heq, hname] at hw
      rw [hfirst, hw]
      rfl

def violation? (row : Row) (rule : String × List String) : Option String :=
  match columnValue? rule.1 row with
  | none => none
  | some v => if Fold.elem v.render rule.2 then none else some v.render

theorem checkColumns_cons (row : Row) (rule : String × List String) (rules : ColumnRules) :
    checkColumns row (rule :: rules) = match violation? row rule with
      | none => checkColumns row rules
      | some text => .skipColumn rule.1 text := by
  obtain ⟨column, values⟩ := rule
  rw [checkColumns, violation?]
  cases columnValue? column row with
  | none => rfl
  | some v => by_cases hv : Fold.elem v.render values = true <;> simp [hv]

theorem checkColumns_ne_skipTable (row : Row) (rules : ColumnRules) :
    checkColumns row rules ≠ .skipTable := by
  induction rules with
  | nil => simp [checkColumns]
  | cons rule rules ih =>
    rw [checkColumns_cons]
    split
    · exact ih
    · simp

theorem checkColumns_eq_pass_iff (row : Row) (rules : ColumnRules) :
    checkColumns row rules = .pass ↔ ∀ rule ∈ rules, violation? row rule = none := by
  induction rules with
  | nil => simp [checkColumns]
  | cons rule rules ih =>
    rw [checkColumns_cons]
    cases hrule : violation? row rule with
    | none => simp [hrule, ih]
    | some text => simp [hrule]

/-- Rules are tried in the order of their columns, so the first violated one is the least. -/
theorem checkColumns_eq_skipColumn_iff {row : Row} {rules : ColumnRules}
    (hsorted : Keyed.Sorted rules) {column text : String} :
    checkColumns row rules = .skipColumn column text ↔
      (∃ values, (column, values) ∈ rules ∧ violation? row (column, values) = some text) ∧
        ∀ rule ∈ rules, (violation? row rule).isSome → column ≤ rule.1 := by
  induction rules with
  | nil => simp [checkColumns]
  | cons rule rules ih =>
    have hleast : ∀ q ∈ rules, rule.1 < q.1 := fun q hq => List.rel_of_pairwise_cons hsorted hq
    rw [checkColumns_cons]
    cases hrule : violation? row rule with
    | none =>
      dsimp only
      rw [ih (List.Pairwise.of_cons hsorted)]
      constructor
      · intro hleast
        obtain ⟨⟨values, hmem, hv⟩, hmin⟩ := hleast
        refine ⟨⟨values, List.mem_cons_of_mem _ hmem, hv⟩, fun q hq hq' => ?_⟩
        rcases List.mem_cons.1 hq with rfl | hq
        · simp [hrule] at hq'
        · exact hmin q hq hq'
      · intro hleast
        obtain ⟨⟨values, hmem, hv⟩, hmin⟩ := hleast
        refine ⟨⟨values, ?_, hv⟩, fun q hq => hmin q (List.mem_cons_of_mem _ hq)⟩
        refine (List.mem_cons.1 hmem).resolve_left ?_
        intro heq
        subst heq
        simp [hrule] at hv
    | some text' =>
      simp only [Verdict.skipColumn.injEq]
      constructor
      · intro heq
        obtain ⟨rfl, rfl⟩ := heq
        refine ⟨⟨rule.2, List.mem_cons_self, hrule⟩, fun q hq _ => String.not_lt.1 fun hlt => ?_⟩
        rcases List.mem_cons.1 hq with rfl | hq
        · exact String.lt_irrefl _ hlt
        · exact String.lt_irrefl _ (String.lt_trans hlt (hleast q hq))
      · intro hleast
        obtain ⟨⟨values, hmem, hv⟩, hmin⟩ := hleast
        have hle : column ≤ rule.1 := hmin rule List.mem_cons_self (by simp [hrule])
        rcases List.mem_cons.1 hmem with rfl | hmem
        · rw [hrule] at hv
          exact ⟨rfl, Option.some.inj hv⟩
        · exact absurd (hleast _ hmem) (String.not_lt.2 hle)

end Tiers

section Meaning

variable (calls : List Call)

theorem mem_rulesUnder_iff (table column : String) (values : List String) :
    (column, values) ∈ rulesUnder (Fold.fold table) (ofCalls calls) ↔
      Restricts calls table column ∧ values = valuesUnder (Fold.fold table) column calls := by
  have hsorted : Keyed.Sorted (rulesUnder (Fold.fold table) (ofCalls calls)) :=
    sorted_rulesUnder_foldl _ calls empty List.Pairwise.nil
  have hsome : (Keyed.find? column (rulesUnder (Fold.fold table) (ofCalls calls))).isSome ↔
      Restricts calls table column :=
    (isSome_rulesUnder_foldl _ column calls empty).trans (or_iff_right Bool.false_ne_true)
  have hvalues : (Keyed.find? column (rulesUnder (Fold.fold table) (ofCalls calls))).getD [] =
      valuesUnder (Fold.fold table) column calls :=
    find?_rulesUnder_foldl _ column calls empty
  rw [← hsorted.find?_eq_some_iff, ← hsome, ← hvalues]
  cases Keyed.find? column (rulesUnder (Fold.fold table) (ofCalls calls)) with
  | none => simp
  | some x => simp [eq_comm]

theorem evaluate_ofCalls (e : Event) :
    (ofCalls calls).evaluate e = if (ofCalls calls).allows e.table e.action then
      checkColumns e.data (rulesUnder (Fold.fold e.table) (ofCalls calls)) else .skipTable := by
  rw [evaluate, underTable?_eq_find? (folded_ofCalls calls).2]
  rfl

variable {calls}

theorem exists_violation_iff {e : Event}
    (h : ∀ column, Restricts calls e.table column → Unambiguous e.data column)
    (column text : String) :
    (∃ values, (column, values) ∈ rulesUnder (Fold.fold e.table) (ofCalls calls) ∧
        violation? e.data (column, values) = some text) ↔
      ∃ v, Violates calls e column v ∧ text = v.render := by
  constructor
  · intro hex
    obtain ⟨values, hmem, hv⟩ := hex
    obtain ⟨hrestricts, rfl⟩ := (mem_rulesUnder_iff calls ..).1 hmem
    rw [violation?] at hv
    split at hv
    next => simp at hv
    next v hvalue =>
      split at hv
      next => simp at hv
      next helem =>
        rw [elem_valuesUnder] at helem
        exact ⟨v, ⟨hrestricts, (columnValue?_eq_some_iff (h _ hrestricts)).1 hvalue, helem⟩,
          (Option.some.inj hv).symm⟩
  · intro hex
    obtain ⟨v, ⟨hrestricts, hholds, haccepts⟩, rfl⟩ := hex
    refine ⟨_, (mem_rulesUnder_iff calls ..).2 ⟨hrestricts, rfl⟩, ?_⟩
    rw [← elem_valuesUnder] at haccepts
    rw [violation?, (columnValue?_eq_some_iff (h _ hrestricts)).2 hholds]
    exact if_neg haccepts

/-- The verdict of a filter, said without its maps. It holds of every filter that is made of the
sections of a configuration, whatever the order of their entries. -/
theorem evaluate_meaning (calls : List Call) (e : Event)
    (h : ∀ column, Restricts calls e.table column → Unambiguous e.data column) :
    ((ofCalls calls).evaluate e = .skipTable ↔ ¬ Allows calls e.table e.action) ∧
    (∀ column text, (ofCalls calls).evaluate e = .skipColumn column text ↔
      Allows calls e.table e.action ∧ (∃ v, Violates calls e column v ∧ text = v.render) ∧
        ∀ other w, Violates calls e other w → column ≤ other) ∧
    ((ofCalls calls).evaluate e = .pass ↔
      Allows calls e.table e.action ∧ ∀ column v, ¬ Violates calls e column v) ∧
    (∀ table, underTable? table (ofCalls calls).tables =
        Keyed.find? (Fold.fold table) (ofCalls calls).tables ∧
      underTable? table (ofCalls calls).columns =
        Keyed.find? (Fold.fold table) (ofCalls calls).columns) ∧
    ∀ tables columns, ofSections tables columns = ofCalls (Call.ofSections tables columns) := by
  have hsorted : Keyed.Sorted (rulesUnder (Fold.fold e.table) (ofCalls calls)) :=
    sorted_rulesUnder_foldl _ calls empty List.Pairwise.nil
  have hviolated : ∀ column text,
      (∃ values, (column, values) ∈ rulesUnder (Fold.fold e.table) (ofCalls calls) ∧
        violation? e.data (column, values) = some text) ↔
      ∃ v, Violates calls e column v ∧ text = v.render := exists_violation_iff h
  have hfolded := folded_ofCalls calls
  rw [evaluate_ofCalls]
  refine ⟨?_, ?_, ?_, fun table => ⟨underTable?_eq_find? hfolded.1 table,
    underTable?_eq_find? hfolded.2 table⟩, ofSections_eq_ofCalls⟩
  · rw [← allows_iff]
    split
    next hallows => simp [hallows, checkColumns_ne_skipTable]
    next hallows => simp [hallows]
  · intro column text
    rw [← allows_iff]
    split
    next hallows =>
      rw [checkColumns_eq_skipColumn_iff hsorted, hviolated]
      refine ⟨fun ⟨hv, hmin⟩ => ⟨hallows, hv, fun other w hw => ?_⟩,
        fun ⟨_, hv, hmin⟩ => ⟨hv, fun rule hrule hsome => ?_⟩⟩
      · obtain ⟨values, hmem, hvalue⟩ := (hviolated other w.render).2 ⟨w, hw, rfl⟩
        exact hmin _ hmem (by simp [hvalue])
      · obtain ⟨text', htext⟩ := Option.isSome_iff_exists.1 hsome
        obtain ⟨w, hw, -⟩ := (hviolated rule.1 text').1 ⟨rule.2, hrule, htext⟩
        exact hmin _ w hw
    next hallows => simp [hallows]
  · rw [← allows_iff]
    split
    next hallows =>
      rw [checkColumns_eq_pass_iff]
      refine ⟨fun hnone => ⟨hallows, fun column v hv => ?_⟩, fun ⟨_, hno⟩ rule hrule => ?_⟩
      · obtain ⟨values, hmem, hvalue⟩ := (hviolated column v.render).2 ⟨v, hv, rfl⟩
        rw [hnone _ hmem] at hvalue
        cases hvalue
      · rw [Option.eq_none_iff_forall_ne_some]
        intro text htext
        obtain ⟨v, hv, -⟩ := (hviolated rule.1 text).1 ⟨rule.2, hrule, htext⟩
        exact hno _ v hv
    next hallows => simp [hallows]

/-- Two spellings of a table, and a column that the row spells in another case. -/
def mixedCalls : List Call :=
  [.allow "Users" ["INSERT"], .withColumn "users" "status" ["active"],
    .withColumn "USERS" "Region" ["eu", "ch"]]

def mixedEvent : Event :=
  { Event.blank with
    table := "users"
    action := "insert"
    data := [("region", .str "us"), ("status", .str "banned")] }

theorem mixed_unambiguous (column : String) (h : Restricts mixedCalls mixedEvent.table column) :
    Unambiguous mixedEvent.data column := by
  obtain ⟨t, values, hmem, -⟩ := h
  have hcolumn : column = "status" ∨ column = "Region" := by
    simp only [mixedCalls, List.mem_cons, List.not_mem_nil, Call.withColumn.injEq, reduceCtorEq,
      false_or, or_false] at hmem
    exact hmem.imp (·.2.1) (·.2.1)
  rcases hcolumn with rfl | rfl
  · intro hno
    exact absurd (by decide) hno
  · have hstatus : Fold.fold "status" ≠ Fold.fold "Region" := by decide +kernel
    intro _ name hname other hother hn ho
    simp only [mixedEvent, List.map_cons, List.map_nil, List.mem_cons, List.not_mem_nil,
      or_false] at hname hother
    rcases hname with rfl | rfl
    · rcases hother with rfl | rfl
      · rfl
      · exact absurd ho hstatus
    · exact absurd hn hstatus

theorem evaluate_meaning_mixed :
    (∀ column, Restricts mixedCalls mixedEvent.table column →
      Unambiguous mixedEvent.data column) ∧
    ∃ v, Violates mixedCalls mixedEvent "Region" v ∧ "us" = v.render :=
  ⟨mixed_unambiguous,
    (((evaluate_meaning mixedCalls mixedEvent mixed_unambiguous).2.1 "Region" "us").1
      (by decide +kernel)).2.1⟩

end Meaning

end Changefeed.Filter
