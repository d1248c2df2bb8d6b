import Changefeed.Config.Validation
import Changefeed.Text.Slice

/-!
# Texts with references

A text is cut at its references in one way (`Cut.IsOf`), and its meaning is the text with the value
of each variable in the place of its reference, or the first variable without a value. Values are
put in as they are and nothing else changes. The places of a reference can also be found by counting
bytes: no part that is taken of the text is outside of it or begins or ends within a character
(`byBytes?_eq`).
-/

namespace Changefeed.Reference

structure Piece where
  before : List Char
  name : List Char

structure Cut where
  pieces : List Piece
  last : List Char

def opening : List Char := ['$', '\x7b']

def written (name : List Char) : List Char := opening ++ name ++ ['\x7d']

/-- Somewhere in the text a reference is opened and, after that, closed. -/
def Refers (s : List Char) : Prop := ∃ before name after, s = before ++ written name ++ after

namespace Cut

def fill (value : List Char → List Char) (c : Cut) : List Char :=
  c.pieces.flatMap (fun p => p.before ++ value p.name) ++ c.last

/-- Each reference begins at the first opening after the one before it and ends at the next closing
brace, and none follows the last. -/
structure IsOf (c : Cut) (s : List Char) : Prop where
  text : c.fill written = s
  first : ∀ p ∈ c.pieces, ¬ opening <:+: p.before
  closed : ∀ p ∈ c.pieces, '\x7d' ∉ p.name
  done : ¬ Refers c.last

def unset? (lookup : String → Option String) (c : Cut) : Option String :=
  (c.pieces.map fun p => String.ofList p.name).find? fun name => (lookup name).isNone

def valueOf (lookup : String → Option String) (name : List Char) : List Char :=
  ((lookup (String.ofList name)).getD "").toList

theorem fill_cons (value : List Char → List Char) (p : Piece) (pieces : List Piece)
    (last : List Char) : fill value ⟨p :: pieces, last⟩ =
      p.before ++ value p.name ++ fill value ⟨pieces, last⟩ := by
  simp [fill]

theorem unset?_cons (lookup : String → Option String) (p : Piece) (pieces : List Piece)
    (last : List Char) : unset? lookup ⟨p :: pieces, last⟩ =
      match lookup (String.ofList p.name) with
      | none => some (String.ofList p.name)
      | some _ => unset? lookup ⟨pieces, last⟩ := by
  rw [unset?, List.map_cons, List.find?_cons]
  cases lookup (String.ofList p.name) <;> rfl

end Cut

section First

theorem splitClose?_append {name : List Char} (h : '\x7d' ∉ name) (rest : List Char) :
    splitClose? (name ++ '\x7d' :: rest) = some (name, rest) := by
  induction name with
  | nil => rfl
  | cons c name ih =>
    obtain ⟨hc, hname⟩ := not_or.1 (mt List.mem_cons.2 h)
    rw [List.cons_append, splitClose?, ih hname]
    · rfl
    · exact fun heq => hc heq.symm

theorem splitClose?_eq_none_iff (s : List Char) : splitClose? s = none ↔ '\x7d' ∉ s := by
  constructor
  · intro hnone hclose
    obtain ⟨name, rest, rfl, hname⟩ := List.eq_append_cons_of_mem hclose
    rw [splitClose?_append hname] at hnone
    cases hnone
  · intro hno
    cases h : splitClose? s with
    | none => rfl
    | some r => exact absurd (by simp [eq_append_of_splitClose? h]) hno

theorem notMem_of_splitClose? {s name rest : List Char} (h : splitClose? s = some (name, rest)) :
    '\x7d' ∉ name := by
  fun_induction splitClose? s generalizing name rest with
  | case1 => cases h
  | case2 s =>
    obtain ⟨rfl, rfl⟩ := Prod.mk.inj (Option.some.inj h)
    exact List.not_mem_nil
  | case3 c s hc ih =>
    obtain ⟨⟨n, r⟩, hr, he⟩ := Option.map_eq_some_iff.1 h
    obtain ⟨rfl, rfl⟩ := Prod.mk.inj he
    exact not_or.2 ⟨fun heq => hc heq.symm, ih hr⟩ ∘ List.mem_cons.1

theorem first?_append {before : List Char} (h : ¬ opening <:+: before) (s : List Char) :
    first? (before ++ opening ++ s) =
      (splitClose? s).map fun (name, rest) => ⟨before, name, rest⟩ := by
  induction before with
  | nil => rfl
  | cons c before ih =>
    obtain ⟨hinit, hinfix⟩ := not_or.1 (mt List.infix_cons_iff.2 h)
    rw [List.cons_append, List.cons_append, first?, ih hinfix, Option.map_map]
    · rfl
    · -- The brace after a dollar would come from `before`, or from the opening's own dollar.
      rintro t rfl heq
      cases before with
      | nil => cases heq
      | cons d before =>
        obtain ⟨rfl, -⟩ := List.cons.inj heq
        exact hinit (List.prefix_append opening before)

theorem first?_eq_none_iff (s : List Char) : first? s = none ↔ ¬ Refers s := by
  fun_induction first? s with
  | case1 => simp [Refers, written]
  | case2 s =>
    rw [Option.map_eq_none_iff, splitClose?_eq_none_iff, not_iff_not]
    constructor
    · intro hclose
      obtain ⟨name, rest, rfl⟩ := List.append_of_mem hclose
      exact ⟨[], name, rest, by simp [written, opening]⟩
    · rintro ⟨before, name, after, hs⟩
      have hclose : '\x7d' ∈ '$' :: '\x7b' :: s := by simp [hs, written]
      simpa using hclose
  | case3 c s hopen ih =>
    rw [Option.map_eq_none_iff, ih, not_iff_not]
    constructor
    · rintro ⟨before, name, after, rfl⟩
      exact ⟨c :: before, name, after, rfl⟩
    · rintro ⟨before, name, after, hs⟩
      cases before with
      | nil =>
        obtain ⟨rfl, rfl⟩ := List.cons.inj hs
        exact absurd rfl (hopen _ rfl)
      | cons d before =>
        obtain ⟨rfl, rfl⟩ := List.cons.inj hs
        exact ⟨before, name, after, rfl⟩

theorem first?_sound {s : List Char} {r : Split} (h : first? s = some r) :
    ¬ opening <:+: r.before ∧ '\x7d' ∉ r.name := by
  fun_induction first? s generalizing r with
  | case1 => cases h
  | case2 s =>
    obtain ⟨⟨n, t⟩, hr, rfl⟩ := Option.map_eq_some_iff.1 h
    exact ⟨by simp [opening], notMem_of_splitClose? hr⟩
  | case3 c s hopen ih =>
    obtain ⟨t, hr, rfl⟩ := Option.map_eq_some_iff.1 h
    obtain ⟨hfirst, hclosed⟩ := ih hr
    refine ⟨?_, hclosed⟩
    rw [List.infix_cons_iff]
    refine not_or.2 ⟨?_, hfirst⟩
    rintro ⟨before, hbefore⟩
    obtain ⟨rfl, hrest⟩ := List.cons.inj hbefore
    have hs := eq_append_of_first? hr
    rw [← hrest] at hs
    exact hopen _ rfl hs

end First

section Cutting

theorem exists_isOf (s : List Char) : ∃ c : Cut, c.IsOf s := by
  induction hlen : s.length using Nat.strong_induction_on generalizing s with
  | h n ih =>
    subst hlen
    cases h : first? s with
    | none => exact ⟨⟨[], s⟩, rfl, by simp, by simp, (first?_eq_none_iff s).1 h⟩
    | some r =>
      obtain ⟨⟨pieces, last⟩, hc⟩ := ih _ (length_after_lt h) r.after rfl
      obtain ⟨hfirst, hclosed⟩ := first?_sound h
      refine ⟨⟨⟨r.before, r.name⟩ :: pieces, last⟩, ?_, ?_, ?_, hc.done⟩
      · rw [Cut.fill_cons, hc.text, eq_append_of_first? h]
        simp [written, opening]
      · exact List.forall_mem_cons.2 ⟨hfirst, hc.first⟩
      · exact List.forall_mem_cons.2 ⟨hclosed, hc.closed⟩

theorem Cut.IsOf.first?_nil {s last : List Char} (h : IsOf ⟨[], last⟩ s) :
    s = last ∧ first? s = none := by
  obtain rfl : last = s := h.text
  exact ⟨rfl, (first?_eq_none_iff last).2 h.done⟩

theorem Cut.IsOf.first?_cons {s last : List Char} {p : Piece} {pieces : List Piece}
    (h : IsOf ⟨p :: pieces, last⟩ s) : ∃ after, IsOf ⟨pieces, last⟩ after ∧
      first? s = some ⟨p.before, p.name, after⟩ := by
  obtain ⟨hfirst, hfirsts⟩ := List.forall_mem_cons.1 h.first
  obtain ⟨hclosed, hcloseds⟩ := List.forall_mem_cons.1 h.closed
  refine ⟨fill written ⟨pieces, last⟩, ⟨rfl, hfirsts, hcloseds, h.done⟩, ?_⟩
  have htext : s = p.before ++ opening ++ (p.name ++ '\x7d' :: fill written ⟨pieces, last⟩) := by
    rw [← h.text, fill_cons]
    simp [written]
  rw [htext, first?_append hfirst, splitClose?_append hclosed]
  rfl

theorem Cut.IsOf.unique {c d : Cut} {s : List Char} (hc : c.IsOf s) (hd : d.IsOf s) : c = d := by
  obtain ⟨pieces, last⟩ := c
  obtain ⟨pieces', last'⟩ := d
  induction pieces generalizing s pieces' with
  | nil =>
    obtain ⟨rfl, hnone⟩ := hc.first?_nil
    cases pieces' with
    | nil => rw [← hd.first?_nil.1]
    | cons q pieces' =>
      obtain ⟨after, -, hsome⟩ := hd.first?_cons
      rw [hnone] at hsome
      cases hsome
  | cons p pieces ih =>
    obtain ⟨after, hafter, hsome⟩ := hc.first?_cons
    cases pieces' with
    | nil =>
      rw [hd.first?_nil.2] at hsome
      cases hsome
    | cons q pieces' =>
      obtain ⟨after', hafter', hsome'⟩ := hd.first?_cons
      obtain ⟨hbefore, hname, rfl⟩ := Split.mk.inj (Option.some.inj (hsome.symm.trans hsome'))
      have hpq : p = q := congr (congrArg Piece.mk hbefore) hname
      obtain ⟨rfl, rfl⟩ := Cut.mk.inj (ih hafter pieces' hafter')
      rw [hpq]

end Cutting

section Resolving

variable (lookup : String → Option String)

theorem resolve_of_none {s : List Char} (h : first? s = none) : resolve lookup s = .ok s := by
  rw [resolve]
  split
  next => rfl
  next r hr =>
    rw [h] at hr
    cases hr

theorem resolve_of_some {s : List Char} {r : Split} (h : first? s = some r) :
    resolve lookup s = match lookup (String.ofList r.name) with
      | none => .error (String.ofList r.name)
      | some value => (resolve lookup r.after).map fun t => r.before ++ value.toList ++ t := by
  rw [resolve]
  split
  next hr =>
    rw [h] at hr
    cases hr
  next r' hr =>
    obtain rfl := Option.some.inj (h.symm.trans hr)
    rfl

theorem Cut.IsOf.resolve_eq {c : Cut} {s : List Char} (h : c.IsOf s) :
    resolve lookup s = match c.unset? lookup with
      | some name => .error name
      | none => .ok (c.fill (valueOf lookup)) := by
  obtain ⟨pieces, last⟩ := c
  induction pieces generalizing s with
  | nil =>
    obtain ⟨rfl, hnone⟩ := h.first?_nil
    exact resolve_of_none lookup hnone
  | cons p pieces ih =>
    obtain ⟨after, hafter, hsome⟩ := h.first?_cons
    rw [resolve_of_some lookup hsome, ih hafter, unset?_cons, fill_cons]
    cases hvalue : lookup (String.ofList p.name) with
    | none => rfl
    | some value =>
      cases unset? lookup ⟨pieces, last⟩ with
      | some name => rfl
      | none => simp [Except.map, valueOf, hvalue]

end Resolving

section Bytes

open Slice
open String (utf8Len)

/-- The first reference of a text, found by counting bytes: the text before it, its name, and the
rest. None at all if a part is outside of the text or begins or ends within a character. -/
def byBytes? (s : String) : Option (Option Split) :=
  match byteOf? opening s.toList with
  | none => some none
  | some start => do
    let tail ← slice? s start s.utf8ByteSize
    match byteOf? ['\x7d'] tail.toList with
    | none => return none
    | some len =>
      let name ← slice? s (start + 2) (start + len)
      let before ← slice? s 0 start
      let rest ← slice? s (start + len + 1) s.utf8ByteSize
      return some ⟨before.toList, name.toList, rest.toList⟩

theorem byteOf?_close {name : List Char} (h : '\x7d' ∉ name) (after : List Char) :
    byteOf? ['\x7d'] (opening ++ (name ++ '\x7d' :: after)) = some (2 + utf8Len name) := by
  have hclose : '\x7d' ∉ opening ++ name := by simpa [opening] using h
  have hbyte := byteOf?_char hclose after
  rwa [List.append_assoc, String.utf8Len_append, show utf8Len opening = 2 from rfl] at hbyte

theorem slice?_reference (before name after : List Char) :
    let s := String.ofList (before ++ (opening ++ (name ++ '\x7d' :: after)))
    let start := utf8Len before
    let len := 2 + utf8Len name
    slice? s 0 start = some (String.ofList before) ∧
      slice? s (start + 2) (start + len) = some (String.ofList name) ∧
      slice? s (start + len + 1) s.utf8ByteSize = some (String.ofList after) := by
  have hopening : utf8Len opening = 2 := rfl
  have hclose : utf8Len ['\x7d'] = 1 := rfl
  have hbefore := slice?_append [] before (opening ++ (name ++ '\x7d' :: after))
  have hname := slice?_append (before ++ opening) name ('\x7d' :: after)
  have hafter := slice?_rest (before ++ opening ++ name ++ ['\x7d']) after
  simp only [String.utf8Len_append, String.utf8Len_nil, hopening, hclose, List.nil_append,
    List.append_assoc, List.cons_append, Nat.zero_add, Nat.add_assoc] at hbefore hname hafter ⊢
  exact ⟨hbefore, hname, hafter⟩

theorem byBytes?_eq (s : String) : byBytes? s = some (first? s.toList) := by
  rcases byteOf?_cases opening nofun s.toList with
    ⟨hnone, hno⟩ | ⟨before, tail, hs, hfirst, hstart⟩
  · rw [byBytes?, hnone, (first?_eq_none_iff _).2]
    rintro ⟨before, name, after, hs⟩
    exact hno ⟨before, name ++ ['\x7d'] ++ after, by simp [hs, written]⟩
  · obtain rfl : s = String.ofList (before ++ (opening ++ tail)) := by
      rw [← List.append_assoc, ← hs, String.ofList_toList]
    rw [hs, first?_append hfirst, byBytes?, hstart]
    simp only [slice?_rest, Option.bind_eq_bind, Option.bind_some, String.toList_ofList]
    by_cases hclose : '\x7d' ∈ tail
    · obtain ⟨name, after, rfl, hname⟩ := List.eq_append_cons_of_mem hclose
      obtain ⟨hbefore, hslice, hafter⟩ := slice?_reference before name after
      rw [byteOf?_close hname, splitClose?_append hname]
      simp only [hbefore, hslice, hafter, Option.bind_some, String.toList_ofList]
      rfl
    · have hnone : byteOf? ['\x7d'] (opening ++ tail) = none := by
        rcases byteOf?_cases ['\x7d'] nofun (opening ++ tail) with
          ⟨hnone, -⟩ | ⟨x, y, hxy, -, -⟩
        · exact hnone
        · have hmem : '\x7d' ∈ opening ++ tail := by simp [hxy]
          exact absurd (by simpa [opening] using hmem) hclose
      rw [hnone, (splitClose?_eq_none_iff tail).2 hclose]
      rfl

end Bytes

/-- What becomes of a text with references. Every text is cut in one way; then each value stands in
the place of its reference and all else as it was, or the first variable without a value is named.
What is left after a reference is always shorter. -/
theorem resolve_single_pass (s : String) :
    (∃! c : Cut, c.IsOf s.toList) ∧
    (∀ c : Cut, c.IsOf s.toList →
      (∀ lookup : String → Option String, resolve lookup s.toList =
        match c.unset? lookup with
        | some name => .error name
        | none => .ok (c.fill (Cut.valueOf lookup))) ∧
      ∀ env : Environment, Config.resolveText env s =
        match c.unset? env.value? with
        | some name => .error (.missingVariable name)
        | none => .ok (String.ofList (c.fill (Cut.valueOf env.value?)))) ∧
    ∀ rest : String, byBytes? rest = some (first? rest.toList) ∧
      ∀ r, first? rest.toList = some r → r.after.length < rest.toList.length := by
  refine ⟨?_, ?_, fun rest => ⟨byBytes?_eq rest, fun r => length_after_lt⟩⟩
  · obtain ⟨c, hc⟩ := exists_isOf s.toList
    exact ⟨c, hc, fun d hd => hd.unique hc⟩
  · intro c hc
    refine ⟨fun lookup => hc.resolve_eq lookup, fun env => ?_⟩
    rw [Config.resolveText, hc.resolve_eq]
    cases c.unset? env.value? <;> rfl

end Changefeed.Reference
