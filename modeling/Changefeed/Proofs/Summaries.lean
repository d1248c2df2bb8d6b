import Changefeed.CommandLine.Run
import Changefeed.Proofs.LiveRules
import Changefeed.Proofs.References
import Changefeed.Proofs.ValueDocuments

/-!
# What a summary shows

The summary of a configuration has a line for each listed table, with the lines of its columns
beneath. A rule is looked for under the name of the table as it is listed, although the filter
applies it whatever the case of that name. So a rule is shown just if its table, or one that is
equal but for case and has a rule with the same line, is spelled as it is listed (`rule_shown_iff`).
-/

namespace Changefeed

namespace Json

variable {α : Type} {x : α}

theorem withDefault_cases {start : α} {read : Json → Option α} {o : Option Json}
    (h : withDefault start read o = some x) : x = start ∨ ∃ j, read j = some x := by
  cases o with
  | none => exact .inl (Option.some.inj h).symm
  | some j => exact .inr ⟨j, h⟩

theorem sorted_of_dictionary? {read : Json → Option α} {j : Json} {l : List (String × α)}
    (h : dictionary? read j = some l) : Keyed.Sorted l := by
  cases j with
  | obj members =>
    obtain ⟨named, -, rfl⟩ := Option.map_eq_some_iff.1 h
    exact Keyed.sorted_ofList named
  | _ => cases h

theorem sorted_of_withDefault {read : Json → Option α} {o : Option Json}
    {l : List (String × α)} (h : withDefault [] (dictionary? read) o = some l) :
    Keyed.Sorted l := by
  rcases withDefault_cases h with rfl | ⟨j, hj⟩
  · exact .nil
  · exact sorted_of_dictionary? hj

end Json

structure FilterSection.IsKeyed (f : FilterSection) : Prop where
  tables : Keyed.Sorted f.tables
  columns : Keyed.Sorted f.columns

section Reading

variable {surplus : Json.Surplus} {j : Json}

theorem FilterSection.isKeyed_empty : FilterSection.empty.IsKeyed := ⟨.nil, .nil⟩

theorem FilterSection.isKeyed_of_ofJson? {f : FilterSection} (h : ofJson? surplus j = some f) :
    f.IsKeyed := by
  simp only [ofJson?, Option.bind_eq_bind, Option.bind_eq_some_iff] at h
  obtain ⟨fields, -, h⟩ := h
  split at h
  next =>
    simp only [Option.bind_eq_some_iff, Option.pure_def, Option.some.injEq] at h
    obtain ⟨tables, htables, columns, hcolumns, rfl⟩ := h
    exact ⟨Json.sorted_of_withDefault htables, Json.sorted_of_withDefault hcolumns⟩
  next => cases h

theorem ListenerSection.isKeyed_of_ofJson? {l : ListenerSection} (h : ofJson? surplus j = some l) :
    l.filter.IsKeyed := by
  simp only [ofJson?, Option.bind_eq_bind, Option.bind_eq_some_iff] at h
  obtain ⟨fields, -, h⟩ := h
  split at h
  next =>
    simp only [Option.bind_eq_some_iff, Option.pure_def, Option.some.injEq] at h
    obtain ⟨topics, -, filter, hfilter, rfl⟩ := h
    rcases Json.withDefault_cases hfilter with rfl | ⟨j, hj⟩
    · exact FilterSection.isKeyed_empty
    · exact FilterSection.isKeyed_of_ofJson? hj
  next => cases h

theorem Config.isKeyed_of_ofJson? {c : Config} (h : ofJson? surplus j = some c) :
    c.listener.filter.IsKeyed := by
  simp only [ofJson?, Option.bind_eq_bind, Option.bind_eq_some_iff] at h
  obtain ⟨fields, -, h⟩ := h
  split at h
  next =>
    simp only [Option.bind_eq_some_iff, Option.pure_def, Option.some.injEq] at h
    obtain ⟨listener, hlistener, publisher, -, logger, -, rfl⟩ := h
    rcases Json.withDefault_cases hlistener with rfl | ⟨j, hj⟩
    · exact FilterSection.isKeyed_empty
    · exact ListenerSection.isKeyed_of_ofJson? hj
  next => cases h

theorem Config.listener_resolve (c : Config) (env : Environment) :
    (c.resolve env).2.listener = c.listener := by
  rw [resolve]
  split
  · rfl
  · split <;> rfl

end Reading

theorem Config.isKeyed_of_read {text : String} {c : Config} (h : read text = .ok c) :
    c.listener.filter.IsKeyed := by
  rw [read] at h
  split at h
  next c' hc =>
    obtain rfl := Except.ok.inj h
    obtain ⟨j, -, hj⟩ := Option.bind_eq_some_iff.1 hc
    exact isKeyed_of_ofJson? hj
  next => cases h

theorem Config.toFilter_of_validate {c : Config} (h : c.validate = .ok ()) :
    ∃ g, c.listener.filter.toFilter = .ok g := by
  have hvalidate : c.validate = c.listener.filter.validate >>= fun _ =>
    validatePublisher c.publisher >>= fun _ => validateLogger c.logger := rfl
  have htoFilter : c.listener.filter.toFilter = c.listener.filter.validate >>= fun _ =>
    .ok (.ofSections c.listener.filter.tables c.listener.filter.columns) := rfl
  cases hfilter : c.listener.filter.validate with
  | ok u =>
    rw [htoFilter, hfilter]
    exact ⟨_, rfl⟩
  | error e =>
    rw [hvalidate, hfilter] at h
    cases h

namespace CommandLine

theorem loadConfig_eq_ok_iff {read : String → Option String} {env : Environment} {path : String}
    {c : Config} : loadConfig read env path = .ok c ↔
      ∃ text written, read path = some text ∧ Config.read text = .ok written ∧
        written.resolve env = (.ok (), c) ∧ c.validate = .ok () := by
  constructor
  · intro h
    rw [loadConfig] at h
    split at h
    next => cases h
    next text htext =>
      split at h
      next => cases h
      next written hread =>
        split at h
        next => cases h
        next resolved hresolve =>
          split at h
          next => cases h
          next hvalid =>
            obtain rfl := Except.ok.inj h
            exact ⟨text, written, htext, hread, hresolve, hvalid⟩
  · rintro ⟨text, written, htext, hread, hresolve, hvalid⟩
    simp only [loadConfig, htext, hread, hresolve, hvalid]

section Blocks

variable {α β : Type} {heading : α → String} {rows : α → List β} {row : β → String}
  {xs : List α} {before after : List String} {between : List β} {top : String} {y : β}

theorem ne_row_of_flatMap_eq (hheading : ∀ x ∈ xs, ∀ z, heading x ≠ row z) {line : String}
    (h : xs.flatMap (fun x => heading x :: (rows x).map row) = line :: after) : line ≠ row y := by
  cases xs with
  | nil => cases h
  | cons x xs => exact (List.cons.inj h).1 ▸ hheading x List.mem_cons_self y

/-- In lines that are made of headings and their rows, the rows below a heading are its own. -/
theorem exists_of_flatMap_eq (hheading : ∀ x ∈ xs, ∀ z, heading x ≠ row z)
    (htop : ∀ z, top ≠ row z)
    (h : xs.flatMap (fun x => heading x :: (rows x).map row) =
      before ++ top :: (between.map row ++ row y :: after)) :
    ∃ x ∈ xs, heading x = top ∧ ∃ z ∈ rows x, row z = row y := by
  induction xs generalizing before with
  | nil => simp at h
  | cons x xs ih =>
    have hheading' : ∀ x' ∈ xs, ∀ z, heading x' ≠ row z := fun x' hx' =>
      hheading x' (List.mem_cons_of_mem x hx')
    have hlater (before : List String) (h : xs.flatMap (fun x => heading x :: (rows x).map row) =
        before ++ top :: (between.map row ++ row y :: after)) :
        ∃ x' ∈ x :: xs, heading x' = top ∧ ∃ z ∈ rows x', row z = row y := by
      obtain ⟨x', hx', hfound⟩ := ih hheading' h
      exact ⟨x', List.mem_cons_of_mem x hx', hfound⟩
    rw [List.flatMap_cons, List.cons_append] at h
    cases before with
    | nil =>
      obtain ⟨hx, h⟩ := List.cons.inj h
      refine ⟨x, List.mem_cons_self, hx, ?_⟩
      -- Otherwise the next heading would be one of the rows between or the row itself.
      have hmem : row y ∈ (rows x).map row := by
        rcases List.append_eq_append_iff.1 h with ⟨more, hmore, hnext⟩ | ⟨more, hmore, hnext⟩
        · cases more with
          | nil => exact absurd rfl (ne_row_of_flatMap_eq (y := y) hheading' hnext)
          | cons line more =>
            obtain ⟨z, -, hz⟩ := List.mem_map.1 (show line ∈ between.map row by simp [hmore])
            exact absurd hz.symm (ne_row_of_flatMap_eq hheading' hnext)
        · cases more with
          | nil => exact absurd rfl (ne_row_of_flatMap_eq (y := y) hheading' hnext.symm)
          | cons line more => simp [hmore, (List.cons.inj hnext).1]
      exact List.mem_map.1 hmem
    | cons line before =>
      obtain ⟨-, h⟩ := List.cons.inj h
      rcases List.append_eq_append_iff.1 h with ⟨more, -, hnext⟩ | ⟨more, hmore, hnext⟩
      · exact hlater _ hnext
      · cases more with
        | nil => exact hlater [] hnext.symm
        | cons line more =>
          obtain ⟨z, -, hz⟩ := List.mem_map.1 (show line ∈ (rows x).map row by simp [hmore])
          exact absurd (hz.trans (List.cons.inj hnext).1.symm).symm (htop z)

end Blocks

section Lines

variable {words : List String} {t u : String × List String}

theorem mem_commaWords {c : Char} (h : c ∈ (commaWords words).toList) :
    c = ',' ∨ c = ' ' ∨ ∃ w ∈ words, c ∈ w.toList := by
  induction words with
  | nil => cases h
  | cons w words ih =>
    cases words with
    | nil => exact .inr (.inr ⟨w, List.mem_cons_self, by simpa [commaWords] using h⟩)
    | cons v words =>
      have hcons : commaWords (w :: v :: words) = w ++ ", " ++ commaWords (v :: words) :=
        String.intercalate_cons_cons
      rw [hcons, String.toList_append, String.toList_append, List.mem_append, List.mem_append] at h
      rcases h with (hw | hcomma) | hrest
      · exact .inr (.inr ⟨w, List.mem_cons_self, hw⟩)
      · have hchars : c = ',' ∨ c = ' ' := by simpa using hcomma
        exact hchars.imp_right .inl
      · rcases ih hrest with rfl | rfl | ⟨x, hx, hc⟩
        · exact .inl rfl
        · exact .inr (.inl rfl)
        · exact .inr (.inr ⟨x, List.mem_cons_of_mem w hx, hc⟩)

theorem notMem_commaWords (hwords : ∀ w ∈ words, FilterSection.isActionName w = true) {c : Char}
    (hc : c = ':' ∨ c = ']') : c ∉ (commaWords words).toList := by
  intro h
  rcases mem_commaWords h with rfl | rfl | ⟨w, hw, hmem⟩
  · exact absurd hc (by decide)
  · exact absurd hc (by decide)
  · obtain ⟨kind, hkind⟩ := (FilterSection.isActionName_iff_lower w).1 (hwords w hw)
    have hname : c.toLower ∈ kind.name.toList := hkind ▸ List.mem_map_of_mem hmem
    have hletter := (kind.isLower_of_mem_name _ hname).1
    rcases hc with rfl | rfl <;> exact absurd hletter (by decide)

theorem toList_tableLine (t : String × List String) : (tableLine t).toList =
    ' ' :: ' ' :: t.1.toList ++ ':' :: ' ' :: (commaWords t.2).toList := by
  simp [tableLine]

theorem toList_columnLine (rule : String × List String) :
    ∃ s, (columnLine rule).toList = s ++ [']'] :=
  ⟨_, by rw [columnLine, String.toList_append]; rfl⟩

theorem tableLine_ne_columnLine (ht : ∀ w ∈ t.2, FilterSection.isActionName w = true)
    (rule : String × List String) : tableLine t ≠ columnLine rule := by
  intro h
  obtain ⟨s, hs⟩ := toList_columnLine rule
  have hlast : (tableLine t).toList.getLast? = some ']' := by
    rw [h, hs, List.getLast?_concat]
  rw [toList_tableLine, List.getLast?_append_cons, List.getLast?_cons_cons] at hlast
  rcases List.mem_cons.1 (List.mem_of_getLast? hlast) with hspace | hmem
  · exact absurd hspace (by decide)
  · exact notMem_commaWords ht (.inr rfl) hmem

theorem eq_of_append_cons_eq {α : Type} {x : α} {a b r s : List α} (hr : x ∉ r) (hs : x ∉ s)
    (h : a ++ x :: r = b ++ x :: s) : a = b := by
  rcases List.append_eq_append_iff.1 h with ⟨more, hmore, hnext⟩ | ⟨more, hmore, hnext⟩
  · cases more with
    | nil => simpa using hmore.symm
    | cons y more => exact absurd (by simp [(List.cons.inj hnext).2]) hr
  · cases more with
    | nil => simpa using hmore
    | cons y more => exact absurd (by simp [(List.cons.inj hnext).2]) hs

/-- The line of a table tells its name, since what follows the last colon are its actions. -/
theorem tableLine_inj (ht : ∀ w ∈ t.2, FilterSection.isActionName w = true)
    (hu : ∀ w ∈ u.2, FilterSection.isActionName w = true) (h : tableLine t = tableLine u) :
    t.1 = u.1 := by
  have hcolon {words : List String} (hw : ∀ w ∈ words, FilterSection.isActionName w = true) :
      ':' ∉ ' ' :: (commaWords words).toList := by
    rw [List.mem_cons, not_or]
    exact ⟨by decide, notMem_commaWords hw (.inl rfl)⟩
  have hlists := congrArg String.toList h
  rw [toList_tableLine, toList_tableLine] at hlists
  have hnames := eq_of_append_cons_eq (hcolon ht) (hcolon hu) hlists
  exact String.toList_inj.1 (by simpa using hnames)

end Lines

section Summaries

def Beneath (heading : String) (rule : String × List String) (lines : List String) : Prop :=
  ∃ (before : List String) (rules : ColumnRules) (after : List String),
    lines = before ++ heading :: (rules.map columnLine ++ columnLine rule :: after)

theorem Beneath.append {heading : String} {rule : String × List String} {lines : List String}
    (h : Beneath heading rule lines) (first last : List String) :
    Beneath heading rule (first ++ lines ++ last) := by
  obtain ⟨before, rules, after, rfl⟩ := h
  exact ⟨first ++ before, rules, after ++ last, by simp⟩

theorem Beneath.mem {heading : String} {rule : String × List String} {lines : List String}
    (h : Beneath heading rule lines) : columnLine rule ∈ lines := by
  obtain ⟨before, rules, after, rfl⟩ := h
  simp

/-- The lines show a rule for a table, under some spelling of its name that is listed. -/
def Shows (f : FilterSection) (table : String) (rule : String × List String)
    (lines : List String) : Prop :=
  ∃ listed ∈ f.tables, Fold.fold listed.1 = Fold.fold table ∧
    Beneath (tableLine listed) rule lines

variable {f : FilterSection}

theorem filterLines_eq (h : f.tables ≠ []) : filterLines f = f.tables.flatMap (tableLines f) :=
  if_neg (by simpa using h)

theorem beneath_filterLines_iff (hkeyed : f.IsKeyed)
    (hactions : ∀ t ∈ f.tables, ∀ w ∈ t.2, FilterSection.isActionName w = true)
    {listed : String × List String} (hlisted : listed ∈ f.tables)
    {rule : String × List String} : Beneath (tableLine listed) rule (filterLines f) ↔
      ∃ columns, (listed.1, columns) ∈ f.columns ∧
        ∃ other ∈ columns, columnLine other = columnLine rule := by
  have hfilterLines := filterLines_eq (List.ne_nil_of_mem hlisted)
  constructor
  · rintro ⟨before, rules, after, h⟩
    rw [hfilterLines] at h
    change f.tables.flatMap (fun t =>
      tableLine t :: ((Keyed.find? t.1 f.columns).getD []).map columnLine) = _ at h
    obtain ⟨t, ht, htop, other, hother, hline⟩ := exists_of_flatMap_eq
      (fun t ht => tableLine_ne_columnLine (hactions t ht))
      (tableLine_ne_columnLine (hactions _ hlisted)) h
    rw [tableLine_inj (hactions t ht) (hactions _ hlisted) htop] at hother
    cases hfind : Keyed.find? listed.1 f.columns with
    | none => simp [hfind] at hother
    | some columns =>
      rw [hfind] at hother
      exact ⟨columns, Keyed.mem_of_find? hfind, other, hother, hline⟩
  · rintro ⟨columns, hcolumns, other, hother, hline⟩
    have hfind := hkeyed.columns.find?_eq_some_iff.2 hcolumns
    obtain ⟨ts, us, htables⟩ := List.append_of_mem hlisted
    obtain ⟨rules, rest, rfl⟩ := List.append_of_mem hother
    refine ⟨ts.flatMap (tableLines f), rules, rest.map columnLine ++ us.flatMap (tableLines f), ?_⟩
    rw [hfilterLines, htables, ← hline]
    simp [tableLines, hfind]

/-- A rule is shown under the name of its table as it is listed, although the filter takes all
spellings of a name for the same. That no other rule is shown is said of the lines of the filter: a
topic with a strange name may read like a rule in the lines that follow. -/
theorem rule_shown_iff {s : Surroundings} {env : Environment} {path : String} {c : Config}
    (h : loadConfig s.read env path = .ok c) :
    (runTask s path c .check).output = unlines (summaryLines path c) ∧
    (∀ t ∈ c.listener.filter.columns, t.1 ∈ c.listener.filter.tables.map Prod.fst →
      ∀ rule ∈ t.2, Shows c.listener.filter t.1 rule (summaryLines path c)) ∧
    ∀ table rule, Shows c.listener.filter table rule (filterLines c.listener.filter) ↔
      ∃ t ∈ c.listener.filter.columns, t.1 ∈ c.listener.filter.tables.map Prod.fst ∧
        Fold.fold t.1 = Fold.fold table ∧ ∃ other ∈ t.2, columnLine other = columnLine rule := by
  obtain ⟨text, written, -, hread, hresolve, hvalid⟩ := loadConfig_eq_ok_iff.1 h
  have hkeyed : c.listener.filter.IsKeyed := by
    have hlistener := written.listener_resolve env
    rw [hresolve] at hlistener
    rw [hlistener]
    exact Config.isKeyed_of_read hread
  obtain ⟨g, hg⟩ := Config.toFilter_of_validate hvalid
  have hactions := (FilterSection.checked_of_toFilter hg).actions
  refine ⟨rfl, ?_, ?_⟩
  · intro t ht hlisted rule hrule
    obtain ⟨listed, hmem, hname⟩ := List.mem_map.1 hlisted
    have hbeneath := (beneath_filterLines_iff hkeyed hactions hmem).2
      ⟨t.2, hname ▸ ht, rule, hrule, rfl⟩
    exact ⟨listed, hmem, by rw [hname], hbeneath.append ..⟩
  · intro table rule
    constructor
    · rintro ⟨listed, hmem, hfold, hbeneath⟩
      obtain ⟨columns, hcolumns, hother⟩ :=
        (beneath_filterLines_iff hkeyed hactions hmem).1 hbeneath
      exact ⟨_, hcolumns, List.mem_map_of_mem hmem, hfold, hother⟩
    · rintro ⟨t, ht, hlisted, hfold, hother⟩
      obtain ⟨listed, hmem, hname⟩ := List.mem_map.1 hlisted
      refine ⟨listed, hmem, by rw [hname, hfold], ?_⟩
      exact (beneath_filterLines_iff hkeyed hactions hmem).2 ⟨t.2, hname ▸ ht, hother⟩

def respelledFilter : FilterSection :=
  ⟨[("Users", ["insert"])],
    [("Users", [("region", ["eu"])]), ("users", [("status", ["active"])])]⟩

def respelledConfig : Config := ⟨⟨[], respelledFilter⟩, ⟨"wal", ""⟩, ⟨"info"⟩⟩

def respelledText : String :=
  "[publisher]\ntopic = \"wal\"\n[listener.filter.tables]\nUsers = [\"insert\"]\n" ++
  "[listener.filter.column_filter]\nUsers.region = [\"eu\"]\nusers.status = [\"active\"]\n"

def respelledSurroundings : Surroundings := ⟨[], none, fun _ => some respelledText, 0⟩

theorem ofToml?_respelled : Config.ofToml? respelledText = some respelledConfig := by
  decide +kernel

theorem resolve_respelled : respelledConfig.resolve [] = (.ok (), respelledConfig) := by
  have hplain {text : String} (h : Reference.first? text.toList = none) :
      Config.resolveText [] text = .ok text := by
    rw [Config.resolveText, Reference.resolve_of_none _ h]
    exact congrArg Except.ok text.ofList_toList
  rw [Config.resolve, hplain (by decide)]
  dsimp only
  rw [hplain (by decide)]
  rfl

theorem loadConfig_respelled :
    loadConfig respelledSurroundings.read [] "relay.toml" = .ok respelledConfig := by
  have hread : Config.read respelledText = .ok respelledConfig := by
    rw [Config.read, ofToml?_respelled]
  have hvalid : respelledConfig.validate = .ok () := by
    have hok : respelledConfig.validate.isOk = true := by decide +kernel
    cases h : respelledConfig.validate with
    | ok u => rfl
    | error e =>
      rw [h] at hok
      cases hok
  exact loadConfig_eq_ok_iff.2 ⟨_, _, rfl, hread, resolve_respelled, hvalid⟩

theorem rule_shown_respelled :
    loadConfig respelledSurroundings.read [] "relay.toml" = .ok respelledConfig ∧
    Shows respelledFilter "Users" ("region", ["eu"]) (summaryLines "relay.toml" respelledConfig) ∧
    ¬ Shows respelledFilter "users" ("status", ["active"]) (filterLines respelledFilter) := by
  obtain ⟨-, hshown, hiff⟩ := rule_shown_iff loadConfig_respelled
  refine ⟨loadConfig_respelled, hshown _ List.mem_cons_self ?_ _ ?_, fun h => ?_⟩
  · exact List.mem_cons_self
  · exact List.mem_cons_self
  · have hnone : ¬ ∃ t ∈ respelledFilter.columns, t.1 ∈ respelledFilter.tables.map Prod.fst ∧
        Fold.fold t.1 = Fold.fold "users" ∧
          ∃ other ∈ t.2, columnLine other = columnLine ("status", ["active"]) := by
      decide +kernel
    exact hnone ((hiff _ _).1 h)

/-- The filter drops a change because of a rule that the summary leaves out. -/
theorem rule_in_force_not_shown :
    loadConfig respelledSurroundings.read [] "relay.toml" = .ok respelledConfig ∧
    (∃ g, respelledFilter.toFilter = .ok g ∧ g.Applies "users" "status" ["active"]) ∧
    ¬ Shows respelledFilter "users" ("status", ["active"])
      (summaryLines "relay.toml" respelledConfig) := by
  refine ⟨loadConfig_respelled, ⟨_, rfl, ?_⟩, ?_⟩
  · let e : Event := { Event.blank with
      table := "users", action := "insert",
      data := [("region", .str "eu"), ("status", .str "pending")] }
    have hsorted : Keyed.Sorted e.data := List.pairwise_pair.2 (by decide)
    refine ⟨e, .insert, "pending", rfl, rfl, hsorted, ?_, ?_, ?_⟩
    · decide +kernel
    · decide +kernel
    · decide +kernel
  · rintro ⟨listed, -, -, hbeneath⟩
    exact absurd hbeneath.mem (by decide +kernel)

end Summaries

end CommandLine
end Changefeed
