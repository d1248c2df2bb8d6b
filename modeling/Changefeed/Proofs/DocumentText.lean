import Changefeed.Proofs.Numerals
import Mathlib.Data.Option.Basic

/-!
# Documents read back

The text of a document in which every number is legible and every string denotes a text is read back
as the same document (`Json.ofText?_text`), whatever its strings hold and however deep it is nested.
The bound on nested calls suffices, since two of them take at least one character.
-/

namespace Changefeed.Json

theorem hex4?_control {n : Nat} (h : n < 32) :
    hex4? '0' '0' (hexDigit (n / 16)) (hexDigit (n % 16)) = some n := by
  revert n
  decide

theorem string?_plain {c : Char} (hquote : c ≠ '"') (hslash : c ≠ '\\') (hspace : ¬ c < ' ')
    (s : List Char) : string? (c :: s) = (string? s).map (.push c) := by
  rw [string?.eq_def]
  split
  next hs => exact absurd (List.cons.inj hs).1 hquote
  next hs => exact absurd (List.cons.inj hs).1 hslash
  next hs => exact absurd (List.cons.inj hs).1 hslash
  next hs =>
    obtain ⟨rfl, rfl⟩ := List.cons.inj hs
    rw [if_neg hspace]
  next hs => cases hs

theorem string?_control {c : Char} (h : c < ' ') (s : List Char) :
    string? ('\\' :: 'u' :: '0' :: '0' :: hexDigit (c.toNat / 16) :: hexDigit (c.toNat % 16) :: s) =
      (string? s).map (.push c) := by
  have hlt : c.toNat < 32 := h
  have hhigh : isHighSurrogate c.toNat = false := by simp [isHighSurrogate]; omega
  have hlow : isLowSurrogate c.toNat = false := by simp [isLowSurrogate]; omega
  simp [string?, hex4?_control hlt, hhigh, hlow]

theorem string?_escape_append (c : Char) (s : List Char) :
    string? (escape c ++ s) = (string? s).map (.push c) := by
  by_cases hquote : c = '"'
  · subst c; simp [escape, string?, unescape?]
  by_cases hslash : c = '\\'
  · subst c; simp [escape, string?, unescape?]
  by_cases h₁ : c = '\x08'
  · subst c; simp [escape, string?, unescape?]
  by_cases h₂ : c = '\x0c'
  · subst c; simp [escape, string?, unescape?]
  by_cases h₃ : c = '\n'
  · subst c; simp [escape, string?, unescape?]
  by_cases h₄ : c = '\r'
  · subst c; simp [escape, string?, unescape?]
  by_cases h₅ : c = '\t'
  · subst c; simp [escape, string?, unescape?]
  by_cases hspace : c < ' '
  · simp [escape, hquote, hslash, h₁, h₂, h₃, h₄, h₅, hspace, string?_control]
  · simp [escape, hquote, hslash, h₁, h₂, h₃, h₄, h₅, hspace, string?_plain]

theorem string?_flatMap_escape (cs s : List Char) :
    string? (cs.flatMap escape ++ '"' :: s) = some ⟨some cs, s⟩ := by
  induction cs with
  | nil => simp [string?]
  | cons c cs ih =>
    rw [List.flatMap_cons, List.append_assoc, string?_escape_append, ih]
    rfl

mutual

def IsNormal : Json → Prop
  | .num n => n.IsNormal
  | .arr items => IsNormalItems items
  | .obj members => IsNormalMembers members
  | .unpaired => False
  | _ => True

def IsNormalItems : List Json → Prop
  | [] => True
  | x :: xs => x.IsNormal ∧ IsNormalItems xs

def IsNormalMembers : List (String × Json) → Prop
  | [] => True
  | (_, x) :: xs => x.IsNormal ∧ IsNormalMembers xs

end

theorem isNormalMembers_iff {members : List (String × Json)} :
    IsNormalMembers members ↔ ∀ m ∈ members, m.2.IsNormal := by
  induction members with
  | nil => simp [IsNormalMembers]
  | cons m members ih => simp [IsNormalMembers, ih]

theorem head_of_number? {s : List Char} {r : Number × List Char} (h : number? s = some r) :
    ∃ c t, s = c :: t ∧ (c = '-' ∨ c.isDigit = true) := by
  cases s with
  | nil => simp [number?, wholePart?, Digits.span] at h
  | cons c t =>
    refine ⟨c, t, rfl, ?_⟩
    by_contra hc
    rw [not_or, Bool.not_eq_true] at hc
    have hzero : c ≠ '0' := by
      rintro rfl
      exact absurd hc.2 (by decide)
    simp [number?, hc.1, wholePart?, hzero, Digits.span, hc.2] at h

theorem value?_of_number? {s t : List Char} {x : Number} (h : number? s = some (x, t)) (n : Nat) :
    value? (n + 1) s = some (.num x, t) := by
  obtain ⟨c, u, rfl, hc⟩ := head_of_number? h
  have hnone : ['n', 't', 'f', '"', '[', '\x7b'].all (fun d => d != '-' && !d.isDigit) = true := by
    decide
  have hother : ∀ d ∈ ['n', 't', 'f', '"', '[', '\x7b'], c ≠ d := by
    rintro d hd rfl
    rcases hc with rfl | hc
    · simpa using List.all_eq_true.1 hnone _ hd
    · simpa [hc] using List.all_eq_true.1 hnone _ hd
  simp only [value?]
  split
  all_goals simp_all

theorem commas_cons (x : List Char) (xs : List (List Char)) :
    commas (x :: xs) = x ++ xs.flatMap (',' :: ·) := by
  induction xs generalizing x with
  | nil => simp [commas]
  | cons y ys ih => simp [commas, ih]

theorem skipBlanks_cons {c : Char} (h : isBlank c = false) (s : List Char) :
    skipBlanks (c :: s) = c :: s := by
  simp [skipBlanks, h]

theorem exists_write_eq_cons {j : Json} (hj : j.IsNormal) :
    ∃ c t, j.write = c :: t ∧ isBlank c = false ∧ c ≠ ']' := by
  cases j with
  | num x =>
    have hread := number?_write hj endsNumber_nil
    obtain ⟨c, t, ht, hc⟩ := head_of_number? hread
    refine ⟨c, t, by simpa [write] using ht, ?_, ?_⟩
    · rcases hc with rfl | hc
      · rfl
      · by_contra hblank
        simp only [isBlank, Bool.not_eq_false, Bool.or_eq_true, beq_iff_eq] at hblank
        rcases hblank with ((rfl | rfl) | rfl) | rfl <;> exact absurd hc (by decide)
    · rintro rfl
      exact absurd hc (by decide)
  | bool b => cases b <;> exact ⟨_, _, rfl, rfl, by decide⟩
  | _ => exact ⟨_, _, rfl, rfl, by decide⟩

theorem length_write_pos {j : Json} (hj : j.IsNormal) : 0 < j.write.length := by
  obtain ⟨c, t, ht, -⟩ := exists_write_eq_cons hj
  simp [ht]

theorem skipBlanks_write_append {j : Json} (hj : j.IsNormal) (s : List Char) :
    skipBlanks (j.write ++ s) = j.write ++ s := by
  obtain ⟨c, t, ht, hblank, -⟩ := exists_write_eq_cons hj
  rw [ht, List.cons_append, skipBlanks_cons hblank]

theorem ofMembers_some (members : List (String × Json)) :
    ofMembers (members.map fun m => (some m.1, m.2)) = .obj members := by
  simp [ofMembers, List.map_map, Function.comp_def]

theorem skipBlanks_items {x : Json} {xs : List Json} (hx : IsNormalItems (x :: xs))
    (s : List Char) :
    skipBlanks (commas (writeItems (x :: xs)) ++ s) = commas (writeItems (x :: xs)) ++ s := by
  rw [writeItems, commas_cons, List.append_assoc, skipBlanks_write_append hx.1]

theorem skipBlanks_members (m : String × Json) (ms : List (String × Json)) (s : List Char) :
    skipBlanks (commas (writeMembers (m :: ms)) ++ s) = commas (writeMembers (m :: ms)) ++ s := by
  rw [writeMembers, commas_cons]
  exact skipBlanks_cons rfl _

theorem endsNumber_cons {c : Char} (hc : c.isDigit = false ∧ c ≠ '.' ∧ c ≠ 'e' ∧ c ≠ 'E')
    (s : List Char) : EndsNumber (c :: s) := fun d hd => by
  obtain rfl : c = d := by simpa using hd
  exact hc

theorem commas_writeItems (x y : Json) (ys : List Json) :
    commas (writeItems (x :: y :: ys)) = x.write ++ ',' :: commas (writeItems (y :: ys)) := rfl

theorem commas_writeMembers (k : String) (x : Json) (m : String × Json)
    (ms : List (String × Json)) :
    commas (writeMembers ((k, x) :: m :: ms)) =
      (writeString k ++ ':' :: x.write) ++ ',' :: commas (writeMembers (m :: ms)) := rfl

theorem members?_member (k : String) {x : Json} (hx : x.IsNormal) {n : Nat} {c : Char}
    {t v : List Char} (hvalue : value? n (x.write ++ t) = some (x, t))
    (ht : skipBlanks t = c :: v) : members? (n + 1) (writeString k ++ ':' :: (x.write ++ t)) =
      if c = ',' then (members? n (skipBlanks v)).map fun (ms, r) => ((some k, x) :: ms, r)
      else if c = '\x7d' then some ([(some k, x)], v)
      else none := by
  have hname := string?_flatMap_escape k.toList (':' :: (x.write ++ t))
  have hcolon := skipBlanks_cons (c := ':') rfl (x.write ++ t)
  have hskip := skipBlanks_write_append hx t
  simp only [members?, writeString, List.cons_append, List.append_assoc, List.nil_append, hname,
    hcolon, hskip, hvalue, ht, Option.bind_eq_bind, Option.bind_some, Option.map_some,
    String.ofList_toList]
  split
  next heq =>
    obtain ⟨rfl, rfl⟩ := List.cons.inj heq
    simp
  next heq =>
    obtain ⟨rfl, rfl⟩ := List.cons.inj heq
    simp
  next hcomma hbrace =>
    rw [if_neg, if_neg]
    · rintro rfl
      exact hbrace _ rfl
    · rintro rfl
      exact hcomma _ rfl

/-- With this bound the readers get through every text that is no longer than half of it. -/
structure ReadsBack (n : Nat) : Prop where
  value : ∀ j : Json, j.IsNormal → 2 * j.write.length ≤ n →
    ∀ s, EndsNumber s → value? n (j.write ++ s) = some (j, s)
  items : ∀ x xs, IsNormalItems (x :: xs) → 2 * (commas (writeItems (x :: xs))).length < n →
    ∀ s, items? n (commas (writeItems (x :: xs)) ++ ']' :: s) = some (x :: xs, s)
  members : ∀ m ms, IsNormalMembers (m :: ms) →
    2 * (commas (writeMembers (m :: ms))).length < n →
    ∀ s, members? n (commas (writeMembers (m :: ms)) ++ '\x7d' :: s) =
      some ((m :: ms).map fun m => (some m.1, m.2), s)

section

variable {n : Nat} (h : ReadsBack n)

include h

theorem ReadsBack.value_succ {j : Json} (hj : j.IsNormal) (hn : 2 * j.write.length ≤ n + 1)
    {s : List Char} (hs : EndsNumber s) : value? (n + 1) (j.write ++ s) = some (j, s) := by
  match j with
  | .null => rfl
  | .bool true => rfl
  | .bool false => rfl
  | .num x => exact value?_of_number? (number?_write hj hs) n
  | .str t => simp [write, writeString, value?, string?_flatMap_escape]
  | .arr [] => rfl
  | .arr (x :: xs) =>
    simp only [write, List.length_append, List.length_cons] at hn
    have hitems := h.items x xs hj (by omega) s
    have hskip := skipBlanks_items hj (']' :: s)
    have hhead : ∀ t, commas (writeItems (x :: xs)) ++ ']' :: s ≠ ']' :: t := by
      obtain ⟨c, t, ht, -, hc⟩ := exists_write_eq_cons hj.1
      simp [writeItems, commas_cons, ht, hc]
    simp [write, value?, hskip, hitems]
  | .obj [] => rfl
  | .obj (m :: ms) =>
    simp only [write, List.length_append, List.length_cons] at hn
    have hmembers := h.members m ms hj (by omega) s
    have hskip := skipBlanks_members m ms ('\x7d' :: s)
    have hhead : ∀ t, commas (writeMembers (m :: ms)) ++ '\x7d' :: s ≠ '\x7d' :: t := by
      simp [writeMembers, commas_cons, writeString]
    have hall := ofMembers_some (m :: ms)
    simp only [List.map_cons] at hmembers hall
    simp [write, value?, hskip, hmembers, hall]

theorem ReadsBack.items_succ {x : Json} {xs : List Json} (hx : IsNormalItems (x :: xs))
    (hn : 2 * (commas (writeItems (x :: xs))).length < n + 1) (s : List Char) :
    items? (n + 1) (commas (writeItems (x :: xs)) ++ ']' :: s) = some (x :: xs, s) := by
  cases xs with
  | nil =>
    simp only [writeItems, commas] at hn
    have hvalue := h.value x hx.1 (by omega) _ (endsNumber_cons (c := ']') (by decide) s)
    have hend := skipBlanks_cons (c := ']') rfl s
    simp [writeItems, commas, items?, hvalue, hend]
  | cons y ys =>
    rw [commas_writeItems] at hn ⊢
    simp only [List.length_append, List.length_cons] at hn
    have hvalue := h.value x hx.1 (by omega) _
      (endsNumber_cons (c := ',') (by decide) (commas (writeItems (y :: ys)) ++ ']' :: s))
    have hitems := h.items y ys hx.2 (by omega) s
    have hcomma := skipBlanks_cons (c := ',') rfl (commas (writeItems (y :: ys)) ++ ']' :: s)
    have hskip := skipBlanks_items hx.2 (']' :: s)
    simp [items?, hvalue, hcomma, hskip, hitems]

theorem ReadsBack.members_succ {m : String × Json} {ms : List (String × Json)}
    (hm : IsNormalMembers (m :: ms)) (hn : 2 * (commas (writeMembers (m :: ms))).length < n + 1)
    (s : List Char) :
    members? (n + 1) (commas (writeMembers (m :: ms)) ++ '\x7d' :: s) =
      some ((m :: ms).map fun m => (some m.1, m.2), s) := by
  obtain ⟨k, x⟩ := m
  cases ms with
  | nil =>
    simp only [writeMembers, commas, List.length_append, List.length_cons] at hn
    have hvalue := h.value x hm.1 (by omega) _ (endsNumber_cons (c := '\x7d') (by decide) s)
    have hmember := members?_member k hm.1 hvalue (skipBlanks_cons rfl s)
    simpa [writeMembers, commas] using hmember
  | cons m ms =>
    rw [commas_writeMembers] at hn ⊢
    simp only [List.length_append, List.length_cons] at hn
    have hvalue := h.value x hm.1 (by omega) _
      (endsNumber_cons (c := ',') (by decide) (commas (writeMembers (m :: ms)) ++ '\x7d' :: s))
    have hmember := members?_member k hm.1 hvalue (skipBlanks_cons rfl _)
    have hmembers := h.members m ms hm.2 (by omega) s
    have hskip := skipBlanks_members m ms ('\x7d' :: s)
    simpa [hskip, hmembers] using hmember

end

theorem readsBack (n : Nat) : ReadsBack n := by
  induction n with
  | zero =>
    refine ⟨fun j hj hn => ?_, fun _ _ _ hn => ?_, fun _ _ _ hn => ?_⟩
    · have := length_write_pos hj
      omega
    · omega
    · omega
  | succ n ih =>
    exact ⟨fun _ hj hn _ hs => ih.value_succ hj hn hs, fun _ _ hx hn s => ih.items_succ hx hn s,
      fun _ _ hm hn s => ih.members_succ hm hn s⟩

theorem ofText?_text {j : Json} (hj : j.IsNormal) : ofText? j.text = some j := by
  have hskip : skipBlanks j.write = j.write := by
    simpa using skipBlanks_write_append hj []
  have hvalue : value? (2 * j.write.length + 2) j.write = some (j, []) := by
    simpa using (readsBack (2 * j.write.length + 2)).value j hj (by omega) [] endsNumber_nil
  have hend : skipBlanks [] = [] := rfl
  simp [ofText?, text, hskip, hvalue, hend]

end Changefeed.Json
