import Changefeed.Config.Validation
import Changefeed.Proofs.CaseClasses
import Changefeed.Proofs.FilterMeaning

/-!
# Which action names are valid

A configuration may allow an action under its name in any mix of ASCII case. The filter compares
words by their folds, and the only characters outside ASCII that are folded to an ASCII letter are
the long s and the sign of the kelvin (`Fold.ascii_of_letter`). No name has a k in it, so the words
that the filter takes for a name are those that are valid and the word insert with a long s, which
is refused (`FilterSection.validate_actions`).
-/

namespace Changefeed

section Checks

variable {ε α : Type} {f : α → Except ε Unit} {xs : List α}

theorem forM_cons_eq (x : α) : (x :: xs).forM f = (f x >>= fun _ => xs.forM f) := rfl

theorem forM_eq_ok_iff : xs.forM f = .ok () ↔ ∀ x ∈ xs, f x = .ok () := by
  induction xs with
  | nil => simp [List.forM, pure, Except.pure]
  | cons x xs ih =>
    rw [forM_cons_eq, List.forall_mem_cons, ← ih]
    cases f x with
    | error e => simp [bind, Except.bind]
    | ok u => simp [bind, Except.bind]

theorem exists_of_forM_eq_error {e : ε} (h : xs.forM f = .error e) : ∃ x ∈ xs, f x = .error e := by
  induction xs with
  | nil => cases h
  | cons x xs ih =>
    rw [forM_cons_eq] at h
    cases hx : f x with
    | error e' =>
      rw [hx] at h
      cases h
      exact ⟨x, List.mem_cons_self, hx⟩
    | ok u =>
      rw [hx] at h
      obtain ⟨y, hy, hfail⟩ := ih h
      exact ⟨y, List.mem_cons_of_mem x hy, hfail⟩

end Checks

namespace Fold

theorem ofChar_ascii {c : Char} (h : c.toNat < 128) : ofChar c = [c.toLower] := by
  have hall : (List.range 128).all
      (fun n => ofChar (Char.ofNat n) == [(Char.ofNat n).toLower]) = true := by
    decide +kernel
  have hc := List.all_eq_true.1 hall c.toNat (List.mem_range.2 h)
  rwa [Char.ofNat_toNat, beq_iff_eq] at hc

theorem isLower_iff (c : Char) : c.isLower = true ↔ 97 ≤ c.toNat ∧ c.toNat ≤ 122 := by
  have hbounds : c.isLower = (decide ('a'.val ≤ c.val) && decide (c.val ≤ 'z'.val)) := rfl
  rw [hbounds, Bool.and_eq_true, decide_eq_true_eq, decide_eq_true_eq, UInt32.le_iff_toNat_le,
    UInt32.le_iff_toNat_le]
  rfl

theorem ascii_of_toLower {c : Char} (h : c.toLower.isLower = true) : c.toNat < 128 := by
  by_contra hlarge
  have hcapital : ¬ (c.val ≥ 'A'.val ∧ c.val ≤ 'Z'.val) := by
    rintro ⟨-, hle⟩
    have hle' : c.toNat ≤ 90 := UInt32.le_iff_toNat_le.1 hle
    omega
  have hsame : c.toLower = c := dif_neg hcapital
  rw [hsame, isLower_iff] at h
  omega

def small : Lowercase.Range := ⟨0x61, 0x7A, 1, 0⟩

def kelvin : Lowercase.Range := ⟨0x212A, 0x212A, 1, -8383⟩

theorem images_apart_small :
    (Lowercase.ranges.all fun r => Nat.blt r.last 128 || r == kelvin || r.image.apart small) =
      true := by
  decide

theorem variants_apart_small :
    (variants.all fun v => v == 'ſ' || !(variant v).isLower) = true := by decide

/-- Only two characters outside ASCII have the fold of an ASCII letter. -/
theorem ascii_of_letter {c : Char} (h : (letter c).isLower = true) :
    c.toNat < 128 ∨ c = 'ſ' ∨ c = '\u212A' := by
  cases hr : Lowercase.ranges.find? (·.contains c.toNat) with
  | none =>
    have hsimple : Lowercase.simple c = c := by simp [Lowercase.simple, Lowercase.shift, hr]
    rw [letter, hsimple] at h
    by_cases hv : c ∈ variants
    · have hc := List.all_eq_true.1 variants_apart_small c hv
      simp only [h, Bool.not_true, Bool.or_false, beq_iff_eq] at hc
      exact .inr (.inl hc)
    · rw [variant_of_notMem hv, isLower_iff] at h
      exact .inl (by omega)
  | some r =>
    obtain ⟨hmem, himage⟩ := Lowercase.toNat_simple hr
    have hcontains : r.contains c.toNat = true := by simpa using List.find?_some hr
    simp only [Lowercase.Range.contains, Bool.and_eq_true, decide_eq_true_eq] at hcontains
    have hcases := List.all_eq_true.1 images_apart_small r hmem
    rw [Bool.or_eq_true, Bool.or_eq_true, Nat.blt_eq, beq_iff_eq] at hcases
    rcases hcases with (hlast | rfl) | hapart
    · exact .inl (by omega)
    · have hc : c.toNat = 0x212A := by simp only [kelvin] at hcontains; omega
      exact .inr (.inr (Char.toNat_inj.1 hc))
    · have hno := Lowercase.Range.not_contains_of_apart hapart himage
      rw [letter, variant_of_image hmem himage, isLower_iff] at h
      simp [small, Lowercase.Range.contains, h, Nat.mod_one] at hno

theorem ofList_eq_iff {s w : List Char} (hw : ∀ d ∈ w, d.isLower = true ∧ d ≠ 'k') :
    ofList s = w ∧ 'ſ' ∉ s ↔ Ascii.lower s = w := by
  induction s generalizing w with
  | nil => simp [ofList, Ascii.lower]
  | cons c s ih =>
    rw [ofList, List.flatMap_cons, ← ofList, Ascii.lower, List.map_cons, ← Ascii.lower]
    constructor
    · rintro ⟨rfl, hlong⟩
      obtain ⟨hne, hlong⟩ := not_or.1 (mt List.mem_cons.2 hlong)
      obtain ⟨hc, hs⟩ := List.forall_mem_append.1 hw
      have hdot : c ≠ '\u0130' := by
        rintro rfl
        exact absurd (hc '\u0307' (by decide)).1 (by decide)
      rw [ofChar_eq hdot, List.forall_mem_singleton] at hc
      have hascii : c.toNat < 128 := by
        rcases ascii_of_letter hc.1 with h | rfl | rfl
        · exact h
        · exact absurd rfl hne
        · exact absurd (by decide) hc.2
      rw [ofChar_ascii hascii, (ih hs).1 ⟨rfl, hlong⟩]
      rfl
    · rintro rfl
      obtain ⟨hc, hs⟩ := List.forall_mem_cons.1 hw
      have hascii := ascii_of_toLower hc.1
      obtain ⟨hfold, hlong⟩ := (ih hs).2 rfl
      rw [ofChar_ascii hascii, hfold]
      refine ⟨rfl, not_or.2 ⟨?_, hlong⟩ ∘ List.mem_cons.1⟩
      rintro rfl
      exact absurd hascii (by decide)

end Fold

theorem Filter.passed_allow_iff (table word : String) (e : Event) :
    ((empty.allow table [word]).evaluate e).passed = true ↔
      Fold.fold table = Fold.fold e.table ∧ Fold.elem e.action [word] = true := by
  have hallows : (empty.allow table [word]).allows e.table e.action = true ↔
      Allows [.allow table [word]] e.table e.action := allows_iff [.allow table [word]] _ _
  have hevaluate : (empty.allow table [word]).evaluate e =
      if (empty.allow table [word]).allows e.table e.action then
        checkColumns e.data (rulesUnder (Fold.fold e.table) (empty.allow table [word]))
      else .skipTable := evaluate_ofCalls [.allow table [word]] e
  have hrules : rulesUnder (Fold.fold e.table) (empty.allow table [word]) = [] := rfl
  have hallowed : Allows [.allow table [word]] e.table e.action ↔
      Fold.fold table = Fold.fold e.table ∧ Fold.elem e.action [word] = true := by
    simp [Allows, elem_iff]
  rw [hevaluate, hrules, ← hallowed, ← hallows]
  by_cases h : (empty.allow table [word]).allows e.table e.action = true
  · rw [if_pos h]
    exact iff_of_true rfl h
  · rw [if_neg h]
    exact iff_of_false Bool.false_ne_true h

namespace ActionKind

theorem isLower_of_mem_name (kind : ActionKind) :
    ∀ d ∈ kind.name.toList, d.isLower = true ∧ d ≠ 'k' := by
  have hall : (kind.name.toList.all fun d => d.isLower && d != 'k') = true := by
    cases kind <;> decide
  simpa using hall

theorem lower_name (kind : ActionKind) : Ascii.lower kind.name.toList = kind.name.toList := by
  cases kind <;> decide

theorem fold_name (kind : ActionKind) : Fold.fold kind.name = kind.name := by
  cases kind <;> decide

theorem ofText?_of_lower {word : String} {kind : ActionKind}
    (h : Ascii.lower word.toList = kind.name.toList) : ofText? word = some kind := by
  rw [ofText?, h, String.ofList_toList]
  cases kind <;> decide

theorem eq_insert_of_mem_name {kind : ActionKind} (h : 's' ∈ kind.name.toList) :
    kind = .insert := by
  cases kind
  · rfl
  all_goals exact absurd h (by decide)

end ActionKind

namespace FilterSection

def NamesAction (word : String) : Prop := ∃ kind : ActionKind, Fold.elem kind.name [word] = true

theorem namesAction_iff (word : String) :
    NamesAction word ↔ ∃ kind : ActionKind, Fold.ofList word.toList = kind.name.toList := by
  have hword : ∀ kind : ActionKind, Fold.elem kind.name [word] = true ↔
      Fold.ofList word.toList = kind.name.toList := by
    intro kind
    rw [Fold.elem, List.any_cons, List.any_nil, Bool.or_false, Fold.same_iff, kind.fold_name,
      Fold.fold, ← String.toList_inj, String.toList_ofList]
  exact exists_congr hword

theorem isActionName_iff_lower (word : String) :
    isActionName word = true ↔ ∃ kind : ActionKind, Ascii.lower word.toList = kind.name.toList := by
  constructor
  · intro h
    rw [isActionName] at h
    split at h
    next kind _ => exact ⟨kind, by rw [← (Ascii.sameWord_iff _ _).1 h, kind.lower_name]⟩
    next => cases h
  · rintro ⟨kind, h⟩
    rw [isActionName, ActionKind.ofText?_of_lower h]
    exact (Ascii.sameWord_iff _ _).2 (by rw [h, kind.lower_name])

theorem isActionName_iff (word : String) :
    isActionName word = true ↔ NamesAction word ∧ 'ſ' ∉ word.toList := by
  rw [isActionName_iff_lower, namesAction_iff, exists_and_right.symm]
  exact exists_congr fun kind => (Fold.ofList_eq_iff kind.isLower_of_mem_name).symm

/-- The words that the filter takes for a name and that are refused: of the names only one has an s,
which can be a long one. -/
theorem refused_iff (word : String) :
    NamesAction word ∧ isActionName word = false ↔
      Fold.fold word = "insert" ∧ 'ſ' ∈ word.toList := by
  constructor
  · rintro ⟨hname, hrefused⟩
    have hlong : 'ſ' ∈ word.toList := by
      by_contra hno
      rw [(isActionName_iff word).2 ⟨hname, hno⟩] at hrefused
      cases hrefused
    obtain ⟨kind, hkind⟩ := (namesAction_iff word).1 hname
    have hs : 's' ∈ kind.name.toList := hkind ▸ List.mem_flatMap.2 ⟨'ſ', hlong, by decide⟩
    obtain rfl := ActionKind.eq_insert_of_mem_name hs
    exact ⟨by rw [Fold.fold, hkind]; rfl, hlong⟩
  · rintro ⟨hfold, hlong⟩
    have hkind : Fold.ofList word.toList = ActionKind.insert.name.toList := by
      simpa [Fold.fold, ActionKind.name] using congrArg String.toList hfold
    refine ⟨(namesAction_iff word).2 ⟨.insert, hkind⟩, Bool.eq_false_iff.2 ?_⟩
    intro hvalid
    exact ((isActionName_iff word).1 hvalid).2 hlong

theorem exists_passed_iff (word : String) :
    NamesAction word ↔ ∃ (table : String) (kind : ActionKind) (e : Event),
      e.action = kind.name ∧ ((Filter.empty.allow table [word]).evaluate e).passed = true := by
  constructor
  · rintro ⟨kind, hkind⟩
    refine ⟨"", kind, { Event.blank with action := kind.name }, rfl, ?_⟩
    exact (Filter.passed_allow_iff _ _ _).2 ⟨rfl, hkind⟩
  · rintro ⟨table, kind, e, haction, hpassed⟩
    exact ⟨kind, haction ▸ ((Filter.passed_allow_iff _ _ _).1 hpassed).2⟩

theorem checkActions_cases (table : String) (actions : List String) :
    (checkActions table actions = .ok () ∧ ∀ word ∈ actions, isActionName word = true) ∨
      ∃ word ∈ actions, isActionName word = false ∧
        checkActions table actions = .error (.invalidAction table word) := by
  rw [checkActions]
  cases hfind : actions.find? (!isActionName ·) with
  | none => exact .inl ⟨rfl, by simpa using hfind⟩
  | some word =>
    have hword := List.find?_some hfind
    exact .inr ⟨word, List.mem_of_find?_eq_some hfind, by simpa using hword, rfl⟩

theorem checkColumns_ne_invalidAction (f : FilterSection) (t table word : String)
    (columns : List (String × List String)) :
    f.checkColumns t columns ≠ .error (.invalidAction table word) := by
  rw [checkColumns]
  repeat' split
  all_goals simp

theorem validate_eq (f : FilterSection) :
    f.validate = (f.tables.forM fun t => checkActions t.1 t.2) >>= fun _ =>
      f.columns.forM fun t => f.checkColumns t.1 t.2 := rfl

theorem validate_ne_invalidAction_iff (f : FilterSection) :
    (∀ table word, f.validate ≠ .error (.invalidAction table word)) ↔
      ∀ t ∈ f.tables, ∀ word ∈ t.2, isActionName word = true := by
  rw [validate_eq]
  cases hcheck : f.tables.forM fun t => checkActions t.1 t.2 with
  | ok u =>
    refine iff_of_true ?_ ?_
    · intro table word hfail
      obtain ⟨t, -, ht⟩ := exists_of_forM_eq_error hfail
      exact f.checkColumns_ne_invalidAction _ _ _ _ ht
    · intro t ht
      have hok := forM_eq_ok_iff.1 hcheck t ht
      rcases checkActions_cases t.1 t.2 with ⟨-, hvalid⟩ | ⟨word, -, -, herror⟩
      · exact hvalid
      · rw [hok] at herror
        cases herror
  | error e =>
    obtain ⟨t, ht, herror⟩ := exists_of_forM_eq_error hcheck
    rcases checkActions_cases t.1 t.2 with ⟨hok, -⟩ | ⟨word, hword, hrefused, hfail⟩
    · rw [hok] at herror
      cases herror
    · rw [hfail] at herror
      cases herror
      refine iff_of_false (fun hno => hno _ _ rfl) ?_
      intro hvalid
      rw [hvalid t ht word hword] at hrefused
      cases hrefused

/-- No allowed action is refused just if the filter takes each for a name and none has a long s. The
filter takes a word for a name just if some change of that kind can pass because of it. -/
theorem validate_actions :
    (∀ f : FilterSection, (∀ table word, f.validate ≠ .error (.invalidAction table word)) ↔
      ∀ t ∈ f.tables, ∀ word ∈ t.2, NamesAction word ∧ 'ſ' ∉ word.toList) ∧
    (∀ word, NamesAction word ↔ ∃ (table : String) (kind : ActionKind) (e : Event),
      e.action = kind.name ∧ ((Filter.empty.allow table [word]).evaluate e).passed = true) ∧
    ∀ word, NamesAction word ∧ isActionName word = false ↔
      Fold.fold word = "insert" ∧ 'ſ' ∈ word.toList := by
  refine ⟨?_, exists_passed_iff, refused_iff⟩
  intro f
  simp only [validate_ne_invalidAction_iff, isActionName_iff]

/-- The filter lets insertions through because of the word, but the configuration is not valid. -/
theorem validate_long_s :
    FilterSection.validate ⟨[("users", ["inſert"])], []⟩ =
        .error (.invalidAction "users" "inſert") ∧
      Fold.elem ActionKind.insert.name ["inſert"] = true ∧
      ((Filter.empty.allow "users" ["inſert"]).evaluate
        { Event.blank with table := "users", action := "insert" }).passed = true := by
  refine ⟨?_, ?_, ?_⟩
  · rfl
  · decide +kernel
  · decide +kernel

end FilterSection
end Changefeed
