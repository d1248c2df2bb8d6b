import Changefeed.Proofs.Lookup
import Changefeed.Proofs.ScalarValues
import Mathlib.Data.List.Induction
import Mathlib.Data.List.Nodup
import Mathlib.Data.Prod.Basic

/-!
# The value of a document

A value is read from a document in two ways, by the form of the document and by trying one kind of
value after the other, and both read the same (`Value.choose?_eq_ofJson?`). What they read is said
without either of them by `Json.Denotes`: an integer for a literal without fraction and exponent, if
it has 64 bits and is no negative zero, a double for all other numbers, and of members with one name
the last.
-/

namespace Changefeed

namespace Keyed

variable {α : Type}

theorem ofList_concat (l : List (String × α)) (p : String × α) :
    ofList (l ++ [p]) = insert p.1 p.2 (ofList l) := by
  simp [ofList]

theorem find?_ofList (key : String) (l : List (String × α)) :
    find? key (ofList l) = find? key l.reverse := by
  induction l using List.reverseRecOn with
  | nil => rfl
  | append_singleton l p ih =>
    rw [ofList_concat, List.reverse_append, List.reverse_singleton, List.singleton_append, find?]
    split
    next hp =>
      subst hp
      exact find?_insert_self ..
    next hp => rw [find?_insert_of_ne hp, ih]

theorem Sorted.ext {l l' : List (String × α)} (h : Sorted l) (h' : Sorted l')
    (hfind : ∀ key, find? key l = find? key l') : l = l' := by
  have hmem (p : String × α) : p ∈ l ↔ p ∈ l' := by
    rw [← Prod.mk.eta (p := p), ← h.find?_eq_some_iff, ← h'.find?_eq_some_iff, hfind]
  have hnodup {l : List (String × α)} (h : Sorted l) : l.Nodup := .of_map _ h.nodup_keys
  exact h.eq_of_perm h' ((List.perm_ext_iff_of_nodup (hnodup h) (hnodup h')).2 hmem)

end Keyed

theorem Integer.ofInt?_eq_some_iff {z : Int} {i : Int64} : ofInt? z = some i ↔ i.toInt = z := by
  constructor
  · exact toInt_of_ofInt?
  · rintro rfl
    exact ofInt?_toInt i

namespace Json

section Literals

/-- The text of a literal: a sign and a numeral, and in a literal that is not an integer's a point
or the letter of an exponent next. -/
inductive Number.IsSpelled : Number → List Char → Prop
  | whole {negative : Bool} {ds : List Char} (h : Digits.IsNumeral ds) :
    IsSpelled (.whole negative (Digits.toNat ds)) (Double.sign negative ++ ds)
  | double {x : Double} {negative : Bool} {ds more : List Char} {c : Char}
    (h : Digits.IsNumeral ds) (hc : c = '.' ∨ c = 'e' ∨ c = 'E') :
    IsSpelled (.double x) (Double.sign negative ++ (ds ++ c :: more))

variable {s t ds : List Char}

theorem wholePart?_spelled (h : wholePart? s = some (ds, t)) :
    s = ds ++ t ∧ Digits.IsNumeral ds := by
  unfold wholePart? at h
  split at h
  next =>
    cases h
    exact ⟨rfl, Digits.isNumeral_zero⟩
  next hzero =>
    simp only [Option.ite_none_left_eq_some, Option.some.injEq, Prod.mk.injEq] at h
    obtain ⟨hne, rfl, rfl⟩ := h
    have hs := Digits.span_append_eq s
    refine ⟨hs.symm, fun c => Digits.isDigit_of_mem_span, by simpa using hne, fun hhead => ?_⟩
    -- digits that start with a zero are the other case
    obtain ⟨ds, hds⟩ := List.head?_eq_some_iff.1 hhead
    rw [hds] at hs
    exact absurd hs.symm (hzero _)

theorem fraction?_spelled {fraction : Option (List Char)} (h : fraction? s = some (fraction, t)) :
    fraction = none ∧ s = t ∨ ∃ ds, fraction = some ds ∧ s = '.' :: (ds ++ t) := by
  unfold fraction? at h
  split at h
  next s =>
    simp only [Option.ite_none_left_eq_some, Option.some.injEq, Prod.mk.injEq] at h
    obtain ⟨-, rfl, rfl⟩ := h
    exact .inr ⟨_, rfl, by rw [Digits.span_append_eq]⟩
  next =>
    cases h
    exact .inl ⟨rfl, rfl⟩

theorem splitSign_suffix (s : List Char) : (Double.splitSign s).2 <:+ s := by
  unfold Double.splitSign
  split
  · exact List.suffix_cons _ _
  · exact List.suffix_cons _ _
  · exact List.suffix_refl _

theorem exponentPart?_spelled {e : Int} (h : Double.exponentPart? s = some (e, t)) :
    startsExponent s = false ∧ s = t ∨
      ∃ c more, (c = 'e' ∨ c = 'E') ∧ startsExponent s = true ∧ s = c :: (more ++ t) := by
  cases s with
  | nil =>
    cases h
    exact .inl ⟨rfl, rfl⟩
  | cons c s =>
    by_cases hc : c = 'e' ∨ c = 'E'
    · simp only [Double.exponentPart?, if_pos hc, Option.ite_none_left_eq_some, Option.some.injEq,
        Prod.mk.injEq] at h
      obtain ⟨-, -, rfl⟩ := h
      obtain ⟨more, hmore⟩ := (List.dropWhile_suffix Char.isDigit).trans (splitSign_suffix s)
      refine .inr ⟨c, more, hc, by simpa [startsExponent] using hc, ?_⟩
      rw [Digits.span, hmore]
    · simp only [Double.exponentPart?, if_neg hc, Option.some.injEq, Prod.mk.injEq] at h
      exact .inl ⟨by simpa [startsExponent] using hc, h.2⟩

theorem exists_number?_eq (s : List Char) : ∃ negative u, s = Double.sign negative ++ u ∧
    number? s = (wholePart? u).bind fun p => numberEnd? negative p.1 p.2 := by
  unfold number?
  split
  next negative u hsign =>
    refine ⟨negative, u, ?_, rfl⟩
    split at hsign
    all_goals
      cases hsign
      rfl

theorem number?_spelled {n : Number} (h : number? s = some (n, t)) :
    ∃ literal, s = literal ++ t ∧ n.IsSpelled literal := by
  obtain ⟨negative, u, rfl, hnumber⟩ := exists_number?_eq s
  obtain ⟨⟨ds, v⟩, hwhole, hend⟩ := Option.bind_eq_some_iff.1 (hnumber.symm.trans h)
  obtain ⟨rfl, hds⟩ := wholePart?_spelled hwhole
  obtain ⟨⟨fraction, w⟩, hfraction, hend⟩ := Option.bind_eq_some_iff.1 hend
  obtain ⟨⟨e, x⟩, hexponent, hend⟩ := Option.bind_eq_some_iff.1 hend
  rcases fraction?_spelled hfraction with ⟨rfl, rfl⟩ | ⟨fs, rfl, rfl⟩
  · rcases exponentPart?_spelled hexponent with ⟨hstart, rfl⟩ | ⟨c, more, hc, hstart, rfl⟩
    · simp only [Option.isNone_none, hstart, Bool.not_false, Bool.and_self, if_true,
        Option.pure_def, Option.some.injEq, Prod.mk.injEq] at hend
      obtain ⟨rfl, rfl⟩ := hend
      exact ⟨_, (List.append_assoc ..).symm, .whole hds⟩
    · simp only [hstart, Bool.not_true, Bool.and_false, Bool.false_eq_true, if_false,
        Option.pure_def, Option.some.injEq, Prod.mk.injEq] at hend
      obtain ⟨rfl, rfl⟩ := hend
      exact ⟨Double.sign negative ++ (ds ++ c :: more), by simp, .double hds (.inr hc)⟩
  · simp only [Option.isNone_some, Bool.false_and, Bool.false_eq_true, if_false, Option.pure_def,
      Option.some.injEq, Prod.mk.injEq] at hend
    obtain ⟨rfl, rfl⟩ := hend
    rcases exponentPart?_spelled hexponent with ⟨hstart, rfl⟩ | ⟨c, more, hc, hstart, rfl⟩
    · exact ⟨Double.sign negative ++ (ds ++ '.' :: fs), by simp, .double hds (.inl rfl)⟩
    · exact ⟨Double.sign negative ++ (ds ++ '.' :: (fs ++ c :: more)), by simp,
        .double hds (.inl rfl)⟩

end Literals

namespace Number

def IsInteger : Number → Int64 → Prop
  | .whole negative n, i =>
    ¬ (negative = true ∧ n = 0) ∧ i.toInt = if negative then -(n : Int) else n
  | .double _, _ => False

theorem toInt?_eq_some_iff {n : Number} {i : Int64} : n.toInt? = some i ↔ n.IsInteger i := by
  cases n with
  | whole negative n =>
    cases negative with
    | false => simp [toInt?, IsInteger, Integer.ofInt?_eq_some_iff]
    | true => simp [toInt?, IsInteger, Integer.ofInt?_eq_some_iff]
  | double x => simp [toInt?, IsInteger]

/-- The value of a literal: the integer that it is, and otherwise the double that it is read as. -/
def Denotes (n : Number) (v : Value) : Prop :=
  (∃ i, n.IsInteger i ∧ v = .int i) ∨
    (∀ i, ¬ n.IsInteger i) ∧ ∃ x, n.toDouble? = some x ∧ v = .float x

end Number

mutual

/-- The document stands for the value. The names of an object increase, and under each of them is
the value of the last member with that name. -/
def Denotes : Json → Value → Prop
  | .null, v => v = .null
  | .bool b, v => v = .bool b
  | .num n, v => n.Denotes v
  | .str s, v => v = .str s
  | .arr items, v => ∃ xs, DenotesItems items xs ∧ v = .arr xs
  | .obj members, v => ∃ named, DenotesMembers members named ∧ ∃ ms, v = .obj ms ∧
      Keyed.Sorted ms ∧ ∀ name, Keyed.find? name ms = Keyed.find? name named.reverse
  | .unpaired, _ => False

def DenotesItems : List Json → List Value → Prop
  | [], xs => xs = []
  | j :: js, xs => ∃ x rest, j.Denotes x ∧ DenotesItems js rest ∧ xs = x :: rest

def DenotesMembers : List (String × Json) → List (String × Value) → Prop
  | [], ms => ms = []
  | (k, j) :: js, ms => ∃ x rest, j.Denotes x ∧ DenotesMembers js rest ∧ ms = (k, x) :: rest

end

end Json

namespace Value

theorem ofNumber?_eq_some_iff {n : Json.Number} {v : Value} :
    ofNumber? n = some v ↔ n.Denotes v := by
  unfold ofNumber? Json.Number.Denotes
  simp only [← Json.Number.toInt?_eq_some_iff]
  cases n.toInt? with
  | some i => simp [eq_comm]
  | none => simp [eq_comm]

theorem ofList_eq_iff {named ms : List (String × Value)} :
    Keyed.ofList named = ms ↔
      Keyed.Sorted ms ∧ ∀ name, Keyed.find? name ms = Keyed.find? name named.reverse := by
  constructor
  · rintro rfl
    exact ⟨Keyed.sorted_ofList named, fun name => Keyed.find?_ofList name named⟩
  · rintro ⟨hsorted, hfind⟩
    refine (Keyed.sorted_ofList named).ext hsorted fun name => ?_
    rw [hfind, Keyed.find?_ofList]

mutual

theorem ofJson?_eq_some_iff : ∀ {j : Json} {v : Value}, ofJson? j = some v ↔ j.Denotes v
  | .null, _ => by simp [ofJson?, Json.Denotes, eq_comm]
  | .bool _, _ => by simp [ofJson?, Json.Denotes, eq_comm]
  | .num _, _ => ofNumber?_eq_some_iff
  | .str _, _ => by simp [ofJson?, Json.Denotes, eq_comm]
  | .arr items, v => by
    simp [ofJson?, Json.Denotes, ofItems?_eq_some_iff, eq_comm (b := v)]
  | .obj members, v => by
    simp [ofJson?, Json.Denotes, ofMembers?_eq_some_iff, ← ofList_eq_iff, eq_comm (b := v)]
  | .unpaired, _ => by simp [ofJson?, Json.Denotes]

theorem ofItems?_eq_some_iff : ∀ {items : List Json} {xs : List Value},
    ofItems? items = some xs ↔ Json.DenotesItems items xs
  | [], _ => by simp [ofItems?, Json.DenotesItems, eq_comm]
  | j :: js, xs => by
    simp [ofItems?, Json.DenotesItems, Option.bind_eq_some_iff, ofJson?_eq_some_iff,
      ofItems?_eq_some_iff, eq_comm (b := xs)]

theorem ofMembers?_eq_some_iff : ∀ {members : List (String × Json)} {ms : List (String × Value)},
    ofMembers? members = some ms ↔ Json.DenotesMembers members ms
  | [], _ => by simp [ofMembers?, Json.DenotesMembers, eq_comm]
  | (k, j) :: js, ms => by
    simp [ofMembers?, Json.DenotesMembers, Option.bind_eq_some_iff, ofJson?_eq_some_iff,
      ofMembers?_eq_some_iff, eq_comm (b := ms)]

end

/-- The negative zero is the value of a name that is written again. -/
example : ofJson? (.obj [("a", .num (.whole true 0)), ("b", .null), ("a", .num (.whole true 1))]) =
    some (.obj [("a", .int (-1)), ("b", .null)]) := by
  rfl

theorem choose?_num (n : Json.Number) : choose? (.num n) = ofNumber? n := by
  cases h : n.toInt? <;> simp [choose?, first?, null?, bool?, int?, float?, str?, ofNumber?, h]

mutual

theorem choose?_eq_ofJson? : ∀ j : Json, choose? j = ofJson? j
  | .null => rfl
  | .bool _ => rfl
  | .num n => choose?_num n
  | .str _ => rfl
  | .arr items => by
    rw [choose?, chooseItems?_eq_ofItems?, ofJson?]
    rfl
  | .obj members => by
    rw [choose?, chooseMembers?_eq_ofMembers?, ofJson?]
    rfl
  | .unpaired => rfl

theorem chooseItems?_eq_ofItems? : ∀ items : List Json, chooseItems? items = ofItems? items
  | [] => rfl
  | j :: js => by rw [chooseItems?, choose?_eq_ofJson?, chooseItems?_eq_ofItems?, ofItems?]

theorem chooseMembers?_eq_ofMembers? :
    ∀ members : List (String × Json), chooseMembers? members = ofMembers? members
  | [] => rfl
  | (_, j) :: js => by
    rw [chooseMembers?, choose?_eq_ofJson?, chooseMembers?_eq_ofMembers?, ofMembers?]

end

end Value

namespace Column

/-- The documents that are accepted, and what either way of reading makes of them. -/
theorem readings_agree (raw : String) :
    (Json.ofText? raw).bind (Value.read? 0) = parseJson? raw ∧
    (∀ v, parseJson? raw = some v ↔
      ∃ j, Json.ofText? raw = some j ∧ j.depth ≤ Json.depthLimit ∧ j.Denotes v) ∧
    ∀ s n rest, Json.number? s = some (n, rest) →
      ∃ literal, s = literal ++ rest ∧ n.IsSpelled literal := by
  refine ⟨?_, fun v => ?_, fun s n rest => Json.number?_spelled⟩
  · unfold parseJson?
    cases Json.ofText? raw with
    | none => rfl
    | some j =>
      by_cases h : j.depth ≤ Json.depthLimit <;>
        simp [Value.read?, Value.choose?_eq_ofJson?, guard, h]
  · simp only [parseJson?_eq_some_iff, Value.ofJson?_eq_some_iff]

end Column
end Changefeed
