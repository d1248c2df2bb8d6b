import Changefeed.Column.Decode
import Mathlib.Data.List.Forall2

/-!
# The grammar of array literals

An array literal is `{}` or elements in braces, with a comma between two of them and nothing else.
The reader finds the elements of exactly these texts (`ArrayLiteral.read_iff`), so a column of an
array type yields an array for exactly those literals whose elements can be read, with one item for
each element in order, and keeps any other text as a whole (`Column.parse_array_iff`).
-/

namespace Changefeed

namespace ArrayLiteral

/-- `Quoted s cs`: between double quotes the text `s` stands for the characters `cs`. -/
inductive Quoted : List Char → List Char → Prop
  | nil : Quoted [] []
  | plain {c : Char} {s cs : List Char} (hquote : c ≠ '"') (hslash : c ≠ '\\') (h : Quoted s cs) :
      Quoted (c :: s) (c :: cs)
  | escaped (c : Char) {s cs : List Char} (h : Quoted s cs) : Quoted ('\\' :: c :: s) (c :: cs)

def IsBare (s : List Char) : Prop := ∀ c ∈ s, c ≠ ',' ∧ c ≠ '{' ∧ c ≠ '}' ∧ c ≠ '"'

instance (s : List Char) : Decidable (IsBare s) :=
  List.decidableBAll (fun c => c ≠ ',' ∧ c ≠ '{' ∧ c ≠ '}' ∧ c ≠ '"') s

inductive Denotes : List Char → Element → Prop
  | quoted {s cs : List Char} (h : Quoted s cs) : Denotes ('"' :: (s ++ ['"'])) (some cs)
  | missing {s : List Char} (hnull : isNull s = true) : Denotes s none
  | bare {s : List Char} (hbare : IsBare s) (hnull : isNull s = false) : Denotes s (some s)

inductive Body : List Char → List Element → Prop
  | single {s : List Char} {e : Element} (h : Denotes s e) : Body s [e]
  | cons {s t : List Char} {e : Element} {es : List Element} (h : Denotes s e) (hrest : Body t es) :
      Body (s ++ ',' :: t) (e :: es)

/-- Nothing between the braces is no element, and not one without characters. -/
inductive Literal : List Char → List Element → Prop
  | empty : Literal ['{', '}'] []
  | body {s : List Char} {es : List Element} (hne : s ≠ []) (h : Body s es) :
      Literal ('{' :: (s ++ ['}'])) es

section Reading

variable {s t cs rest : List Char} {e : Element} {es : List Element}

theorem quoted_sound (h : quoted s = .ok (cs, rest)) :
    ∃ t, s = t ++ '"' :: rest ∧ Quoted t cs := by
  fun_induction quoted s generalizing cs rest with
  | case1 => cases h
  | case2 s =>
    cases h
    exact ⟨[], rfl, .nil⟩
  | case3 => cases h
  | case4 c s ih =>
    obtain ⟨⟨ds, r⟩, hread, heq⟩ := map_eq_ok h
    cases heq
    obtain ⟨t, rfl, ht⟩ := ih hread
    exact ⟨'\\' :: c :: t, rfl, .escaped c ht⟩
  | case5 c s hquote hlone hslash ih =>
    obtain ⟨⟨ds, r⟩, hread, heq⟩ := map_eq_ok h
    cases heq
    obtain ⟨t, rfl, ht⟩ := ih hread
    refine ⟨c :: t, rfl, .plain hquote ?_ ht⟩
    intro hc
    cases hs : t ++ '"' :: rest with
    | nil => exact hlone hc hs
    | cons d s => exact hslash d s hc hs

theorem quoted_complete (h : Quoted t cs) (rest : List Char) :
    quoted (t ++ '"' :: rest) = .ok (cs, rest) := by
  induction h with
  | nil => rfl
  | plain hquote hslash _ ih =>
    rw [List.cons_append, quoted, ih]
    · rfl
    · exact hquote
    · intro hc
      exact absurd hc hslash
    · intro _ _ hc
      exact absurd hc hslash
  | escaped c _ ih =>
    rw [List.cons_append, List.cons_append, quoted, ih]
    rfl

def EndsElement (s : List Char) : Prop := ∀ c ∈ s.head?, c = ','

theorem isBare_cons {c : Char} :
    IsBare (c :: s) ↔ (c ≠ ',' ∧ isStructural c = false) ∧ IsBare s := by
  simp [IsBare, isStructural, and_assoc]

theorem bare_sound (h : bare s = .ok (cs, rest)) :
    s = cs ++ rest ∧ IsBare cs ∧ EndsElement rest := by
  fun_induction bare s generalizing cs rest with
  | case1 =>
    cases h
    exact ⟨rfl, by simp [IsBare], by simp [EndsElement]⟩
  | case2 s =>
    cases h
    exact ⟨rfl, by simp [IsBare], by simp [EndsElement]⟩
  | case3 => cases h
  | case4 c s hcomma hstructural ih =>
    obtain ⟨⟨ds, r⟩, hread, heq⟩ := map_eq_ok h
    cases heq
    obtain ⟨rfl, hbare, hends⟩ := ih hread
    have hplain : isStructural c = false := by simpa using hstructural
    exact ⟨rfl, isBare_cons.2 ⟨⟨hcomma, hplain⟩, hbare⟩, hends⟩

theorem bare_complete (h : IsBare s) (hrest : EndsElement rest) :
    bare (s ++ rest) = .ok (s, rest) := by
  induction s with
  | nil =>
    cases rest with
    | nil => rfl
    | cons c rest => simp [bare, hrest c rfl]
  | cons c s ih =>
    obtain ⟨⟨hcomma, hplain⟩, hs⟩ := isBare_cons.1 h
    rw [List.cons_append, bare, if_neg hcomma, if_neg (by simp [hplain]), ih hs]
    rfl

theorem element_sound (h : element s = .ok (e, rest)) : ∃ t, s = t ++ rest ∧ Denotes t e := by
  unfold element at h
  split at h
  next s =>
    obtain ⟨⟨cs, r⟩, hread, heq⟩ := map_eq_ok h
    cases heq
    obtain ⟨t, rfl, ht⟩ := quoted_sound hread
    exact ⟨'"' :: (t ++ ['"']), by simp, .quoted ht⟩
  next s _ =>
    obtain ⟨⟨cs, r⟩, hread, heq⟩ := map_eq_ok h
    cases heq
    obtain ⟨rfl, hbare, -⟩ := bare_sound hread
    refine ⟨cs, rfl, ?_⟩
    by_cases hnull : isNull cs = true
    · rw [if_pos hnull]
      exact .missing hnull
    · rw [if_neg hnull]
      exact .bare hbare (by simpa using hnull)

theorem isBare_of_isNull (h : isNull s = true) : IsBare s := by
  intro c hc
  have hlower : c.toLower ∈ Ascii.lower "NULL".toList := by
    rw [← (Ascii.sameWord_iff s _).1 h]
    exact List.mem_map_of_mem hc
  have hword : Ascii.lower "NULL".toList = ['n', 'u', 'l', 'l'] := by decide
  rw [hword] at hlower
  refine ⟨?_, ?_, ?_, ?_⟩
  all_goals
    rintro rfl
    revert hlower
    decide

theorem element_bare (h : IsBare s) (hrest : EndsElement rest) :
    element (s ++ rest) = .ok (if isNull s then none else some s, rest) := by
  have hhead : ∀ t, s ++ rest = '"' :: t → False := by
    intro t ht
    cases s with
    | nil =>
      have hcomma := hrest '"' (by simpa using congrArg List.head? ht)
      exact absurd hcomma (by decide)
    | cons c s =>
      obtain rfl : c = '"' := (List.cons.inj ht).1
      exact (h '"' List.mem_cons_self).2.2.2 rfl
  rw [element.eq_2 _ hhead, bare_complete h hrest]
  rfl

theorem element_complete (h : Denotes t e) (hrest : EndsElement rest) :
    element (t ++ rest) = .ok (e, rest) := by
  cases h with
  | quoted h =>
    rw [List.cons_append, List.append_assoc, List.singleton_append, element, quoted_complete h]
    rfl
  | missing hnull => rw [element_bare (isBare_of_isNull hnull) hrest, if_pos hnull]
  | bare hbare hnull => rw [element_bare hbare hrest, if_neg (by simp [hnull])]

theorem elements_sound (h : elements s = (es, none)) : Body s es := by
  fun_induction elements s generalizing es with
  | case1 => cases h
  | case2 s e hread =>
    cases h
    obtain ⟨t, rfl, ht⟩ := element_sound hread
    rw [List.append_nil]
    exact .single ht
  | case3 s e rest ds f hrest hread ih =>
    cases h
    obtain ⟨t, rfl, ht⟩ := element_sound hread
    exact .cons ht (ih hrest)
  | case4 => cases h

theorem elements_last (h : element s = .ok (e, [])) : elements s = ([e], none) := by
  rw [elements]
  split
  all_goals simp_all

theorem elements_comma (h : element s = .ok (e, ',' :: rest)) :
    elements s = (e :: (elements rest).1, (elements rest).2) := by
  rw [elements]
  split
  all_goals simp_all

theorem elements_complete (h : Body s es) : elements s = (es, none) := by
  induction h with
  | single h =>
    apply elements_last
    rw [← element_complete h (by simp [EndsElement]), List.append_nil]
  | cons h _ ih =>
    rw [elements_comma (element_complete h (by simp [EndsElement])), ih]

theorem unbrace?_eq_some_iff : unbrace? s = some t ↔ s = '{' :: (t ++ ['}']) := by
  constructor
  · intro h
    unfold unbrace? at h
    split at h
    next s =>
      split at h
      next hlast =>
        obtain rfl := Option.some.inj h
        rw [List.dropLast_append_getLast? '}' hlast]
      next => cases h
    next => cases h
  · rintro rfl
    simp [unbrace?]

theorem read_iff {raw : String} : read raw = (es, none) ↔ Literal raw.toList es := by
  constructor
  · intro h
    unfold read at h
    split at h
    next => cases h
    next hbraces =>
      cases h
      rw [unbrace?_eq_some_iff.1 hbraces]
      exact .empty
    next s hempty hbraces =>
      rw [unbrace?_eq_some_iff.1 hbraces]
      exact .body hempty (elements_sound h)
  · intro h
    generalize hraw : raw.toList = text at h
    unfold read
    rw [hraw]
    cases h with
    | empty => rfl
    | @body s _ hne h =>
      rw [unbrace?_eq_some_iff.2 rfl]
      cases s with
      | nil => exact absurd rfl hne
      | cons c s => exact elements_complete h

end Reading

end ArrayLiteral

theorem bind_eq_ok {ε α β : Type} {x : Except ε α} {f : α → Except ε β} {y : β}
    (h : (x >>= f) = .ok y) : ∃ a, x = .ok a ∧ f a = .ok y := by
  cases x with
  | error e => cases h
  | ok a => exact ⟨a, rfl, h⟩

theorem mapM_eq_ok_iff {ε α β : Type} {f : α → Except ε β} {xs : List α} {ys : List β} :
    xs.mapM f = .ok ys ↔ List.Forall₂ (fun x y => f x = .ok y) xs ys := by
  induction xs generalizing ys with
  | nil =>
    rw [List.mapM_nil, List.forall₂_nil_left_iff]
    constructor
    · intro h
      exact (Except.ok.inj h).symm
    · rintro rfl
      rfl
  | cons x xs ih =>
    rw [List.mapM_cons, List.forall₂_cons_left_iff]
    constructor
    · intro h
      obtain ⟨y, hy, h⟩ := bind_eq_ok h
      obtain ⟨ys, hys, h⟩ := bind_eq_ok h
      cases h
      exact ⟨y, ys, hy, ih.1 hys, rfl⟩
    · rintro ⟨y, ys, hy, hys, rfl⟩
      rw [hy, ih.2 hys]
      rfl

namespace Column

theorem parseArray_eq_ok_iff {type : Scalar} {raw : String} {v : Value} :
    parseArray type raw = .ok v ↔
      ∃ es items, ArrayLiteral.Literal raw.toList es ∧
        List.Forall₂ (fun e item => parseElement type e = .ok item) es items ∧ v = .arr items := by
  constructor
  · intro h
    obtain ⟨items, hitems, h⟩ := bind_eq_ok h
    split at h
    next hfault =>
      cases h
      exact ⟨_, items, ArrayLiteral.read_iff.1 (Prod.ext rfl hfault), mapM_eq_ok_iff.1 hitems, rfl⟩
    next => cases h
  · rintro ⟨es, items, hliteral, hitems, rfl⟩
    unfold parseArray
    rw [ArrayLiteral.read_iff.2 hliteral]
    dsimp only
    rw [mapM_eq_ok_iff.2 hitems]
    rfl

theorem parse_of_element {id element : TypeId} (h : id.element? = some element) (raw : String) :
    parse element raw = parseScalar element.scalar raw := by
  have hall : TypeId.arrays.all (fun a => a.2.element?.isNone) = true := by decide
  have hnone : element.element? = none := by
    simpa using List.all_eq_true.1 hall _ (TypeId.mem_arrays h)
  rw [parse, hnone]

def IsItem (type : TypeId) : ArrayLiteral.Element → Value → Prop
  | none, v => v = .null
  | some s, v => parse type (String.ofList s) = .ok v

def IsArray (type : TypeId) (raw : String) (items : List Value) : Prop :=
  ∃ es, ArrayLiteral.Literal raw.toList es ∧ List.Forall₂ (IsItem type) es items

theorem parseElement_eq_ok_iff {id element : TypeId} (h : id.element? = some element)
    {e : ArrayLiteral.Element} {v : Value} :
    parseElement element.scalar e = .ok v ↔ IsItem element e v := by
  cases e with
  | none => exact ⟨fun heq => (Except.ok.inj heq).symm, fun heq => congrArg Except.ok heq.symm⟩
  | some s => rw [parseElement, IsItem, parse_of_element h]

theorem parse_eq_ok_iff {id element : TypeId} (h : id.element? = some element) {raw : String}
    {v : Value} :
    parse id raw = .ok v ↔ ∃ items, IsArray element raw items ∧ v = .arr items := by
  have harray : parse id raw = parseArray element.scalar raw := by rw [parse, h]
  simp only [harray, parseArray_eq_ok_iff, parseElement_eq_ok_iff h, IsArray]
  constructor
  · rintro ⟨es, items, hliteral, hitems, rfl⟩
    exact ⟨items, ⟨es, hliteral, hitems⟩, rfl⟩
  · rintro ⟨items, ⟨es, hliteral, hitems⟩, rfl⟩
    exact ⟨es, items, hliteral, hitems, rfl⟩

/-- What a column of an array type makes of a text: an array with one item for each element of a
literal, and of any other text the text itself. -/
theorem parse_array_iff {id element : TypeId} (h : id.element? = some element) (raw : String) :
    (∀ v, parse id raw = .ok v ↔ ∃ items, IsArray element raw items ∧ v = .arr items) ∧
    ((∀ items, ¬ IsArray element raw items) →
      (∃ fault, parse id raw = .error fault) ∧ Cell.decode? id (.text raw) = some (.str raw)) := by
  refine ⟨fun v => parse_eq_ok_iff h, ?_⟩
  intro hnone
  cases hparse : parse id raw with
  | error fault => exact ⟨⟨fault, rfl⟩, by rw [Cell.decode?, hparse]⟩
  | ok v =>
    obtain ⟨items, hitems, -⟩ := (parse_eq_ok_iff h).1 hparse
    exact absurd hitems (hnone items)

theorem parse_array_mixed :
    TypeId.element? 1009 = some 25 ∧
      parse 1009 "\x7b\"a,\\\"\x7d\",NuLl,b\\c,\x7d" =
        .ok (.arr [.str "a,\"\x7d", .null, .str "b\\c", .str ""]) := by
  have hraw : "\x7b\"a,\\\"\x7d\",NuLl,b\\c,\x7d".toList =
      '{' :: ('"' :: (['a', ',', '\\', '"', '}'] ++ ['"']) ++
        ',' :: (['N', 'u', 'L', 'l'] ++ ',' :: (['b', '\\', 'c'] ++ ',' :: [])) ++ ['}']) := by
    decide
  have hquoted : ArrayLiteral.Quoted ['a', ',', '\\', '"', '}'] ['a', ',', '"', '}'] :=
    .plain (by decide) (by decide) (.plain (by decide) (by decide)
      (.escaped '"' (.plain (by decide) (by decide) .nil)))
  have hmissing : ArrayLiteral.Denotes ['N', 'u', 'L', 'l'] none := .missing (by decide)
  have hslash : ArrayLiteral.Denotes ['b', '\\', 'c'] (some ['b', '\\', 'c']) :=
    .bare (by decide) (by decide)
  have hempty : ArrayLiteral.Denotes [] (some []) := .bare (by decide) (by decide)
  have hliteral := ArrayLiteral.Literal.body (by decide)
    (.cons (.quoted hquoted) (.cons hmissing (.cons hslash (.single hempty))))
  rw [← hraw] at hliteral
  have hitems : List.Forall₂ (IsItem 25)
      [some ['a', ',', '"', '}'], none, some ['b', '\\', 'c'], some []]
      [.str "a,\"\x7d", .null, .str "b\\c", .str ""] :=
    .cons rfl (.cons rfl (.cons rfl (.cons rfl .nil)))
  exact ⟨rfl, ((parse_array_iff rfl _).1 _).2 ⟨_, ⟨_, hliteral, hitems⟩, rfl⟩⟩

end Column
end Changefeed
