import Changefeed.Proofs.ScalarTexts
import Mathlib.Data.Option.Basic

/-!
# Arrays that the database writes

The database writes a one-dimensional array with quotes around the elements that need them. What it
writes is a literal of the elements (`ArrayLiteral.literal_write`), so a column of an array type
gives every list of texts and every list of 64-bit integers back, missing elements included.
-/

namespace Changefeed

namespace ArrayLiteral

theorem quoted_escape (s : List Char) : Quoted (s.flatMap escape) s := by
  induction s with
  | nil => exact .nil
  | cons c s ih =>
    rw [List.flatMap_cons]
    by_cases h : c = '"' ∨ c = '\\'
    · rw [escape, if_pos h]
      exact .escaped c ih
    · rw [escape, if_neg h]
      rw [not_or] at h
      exact .plain h.1 h.2 ih

theorem isBare_of_needsQuotes {s : List Char} (h : needsQuotes s = false) :
    IsBare s ∧ isNull s = false ∧ s ≠ [] := by
  simp only [needsQuotes, Bool.or_eq_false_iff, List.any_eq_false] at h
  obtain ⟨⟨hempty, hnull⟩, hplain⟩ := h
  refine ⟨?_, hnull, by simpa using hempty⟩
  intro c hc
  have hall := hplain c hc
  simp only [isStructural, Bool.or_eq_true, beq_iff_eq, not_or] at hall
  obtain ⟨⟨⟨⟨⟨hopen, hclose⟩, hquote⟩, hcomma⟩, -⟩, -⟩ := hall
  exact ⟨hcomma, hopen, hclose, hquote⟩

theorem denotes_writeElement (e : Element) : Denotes (writeElement e) e := by
  cases e with
  | none => exact .missing (by decide)
  | some s =>
    rw [writeElement]
    by_cases h : needsQuotes s = true
    · rw [if_pos h, List.cons_append]
      exact .quoted (quoted_escape s)
    · rw [if_neg h]
      obtain ⟨hbare, hnull, -⟩ := isBare_of_needsQuotes (by simpa using h)
      exact .bare hbare hnull

theorem writeElement_ne_nil (e : Element) : writeElement e ≠ [] := by
  cases e with
  | none => decide
  | some s =>
    rw [writeElement]
    by_cases h : needsQuotes s = true
    · rw [if_pos h]
      exact List.cons_ne_nil _ _
    · rw [if_neg h]
      exact (isBare_of_needsQuotes (by simpa using h)).2.2

theorem body_writeElements (e : Element) (es : List Element) :
    Body (writeElements (e :: es)) (e :: es) ∧ writeElements (e :: es) ≠ [] := by
  induction es generalizing e with
  | nil => exact ⟨.single (denotes_writeElement e), writeElement_ne_nil e⟩
  | cons f es ih => exact ⟨.cons (denotes_writeElement e) (ih f).1, by simp [writeElements]⟩

theorem literal_write (es : List Element) : Literal (write es) es := by
  cases es with
  | nil => exact .empty
  | cons e es =>
    obtain ⟨hbody, hne⟩ := body_writeElements e es
    exact .body hne hbody

end ArrayLiteral

/-- What the database writes for a list of which members may be missing. -/
def ArrayLiteral.ofList {α : Type} (text : α → List Char) (l : List (Option α)) : String :=
  String.ofList (write (l.map (Option.map text)))

example : ArrayLiteral.ofList String.toList [some "NULL", none, some "", some "a\\", some "b"] =
    "\x7b\"NULL\",NULL,\"\",\"a\\\\\",b\x7d" := by decide

def Value.ofList {α : Type} (value : α → Value) (l : List (Option α)) : Value :=
  .arr (l.map fun a => a.elim .null value)

theorem Value.ofList_injective {α : Type} {value : α → Value} (hvalue : Function.Injective value)
    (hnull : ∀ a, value a ≠ .null) : Function.Injective (Value.ofList value) := by
  intro l l' h
  refine List.map_injective_iff.2 ?_ (Value.arr.inj h)
  intro a b hab
  cases a <;> cases b
  · rfl
  · exact absurd hab.symm (hnull _)
  · exact absurd hab (hnull _)
  · exact congrArg some (hvalue hab)

namespace Cell

theorem decode?_ofList {α : Type} {id element : TypeId} (h : id.element? = some element)
    {text : α → List Char} {value : α → Value}
    (hread : ∀ a, Column.parse element (String.ofList (text a)) = .ok (value a))
    (l : List (Option α)) :
    decode? id (.text (ArrayLiteral.ofList text l)) = some (Value.ofList value l) := by
  have hitems : List.Forall₂ (Column.IsItem element) (l.map (Option.map text))
      (l.map fun a => a.elim .null value) := by
    rw [List.forall₂_map_left_iff, List.forall₂_map_right_iff, List.forall₂_same]
    intro a _
    cases a with
    | none => exact rfl
    | some a => exact hread a
  have hliteral : ArrayLiteral.Literal (ArrayLiteral.ofList text l).toList
      (l.map (Option.map text)) := by
    rw [ArrayLiteral.ofList, String.toList_ofList]
    exact ArrayLiteral.literal_write _
  have hparse := (Column.parse_eq_ok_iff h).2 ⟨_, ⟨_, hliteral, hitems⟩, rfl⟩
  rw [decode?, hparse]
  rfl

def ofTexts (texts : List (Option String)) : Cell :=
  .text (ArrayLiteral.ofList String.toList texts)

def ofInts (ints : List (Option Int64)) : Cell := .text (ArrayLiteral.ofList Integer.write ints)

theorem decode?_ofTexts {id element : TypeId} (h : id.element? = some element)
    (htext : element.element? = none ∧ element.scalar = .text) (texts : List (Option String)) :
    decode? id (ofTexts texts) = some (Value.ofList .str texts) := by
  refine decode?_ofList h ?_ texts
  intro s
  rw [String.ofList_toList, Column.parse, htext.1]
  dsimp only
  rw [htext.2]
  rfl

theorem decode?_ofInts (ints : List (Option Int64)) :
    decode? 1016 (ofInts ints) = some (Value.ofList .int ints) := by
  have hlong : TypeId.element? 1016 = some 20 := rfl
  refine decode?_ofList hlong ?_ ints
  intro i
  have hscalar := Column.parse_of_element hlong (String.ofList (Integer.write i))
  rw [hscalar]
  show Column.parseInteger (String.ofList (Integer.write i)) = _
  rw [Column.parseInteger, String.toList_ofList, Integer.read_eq_ok_iff.2 (Integer.denotes_write i)]

theorem injective_decode? {α : Type} {id : TypeId} {value : α → Value}
    {cell : List (Option α) → Cell}
    (hdecode : ∀ l, decode? id (cell l) = some (Value.ofList value l))
    (hvalue : Function.Injective value) (hnull : ∀ a, value a ≠ .null) :
    Function.Injective fun l => decode? id (cell l) := by
  intro l l' h
  simp only [hdecode] at h
  exact Value.ofList_injective hvalue hnull (Option.some.inj h)

/-- A list that the database writes is decoded to the list, so that different lists are never
decoded to one array. -/
theorem decode?_written :
    (∀ texts, decode? 1009 (ofTexts texts) = some (Value.ofList .str texts) ∧
      decode? 1015 (ofTexts texts) = some (Value.ofList .str texts)) ∧
    (∀ ints, decode? 1016 (ofInts ints) = some (Value.ofList .int ints)) ∧
    (Function.Injective fun texts => decode? 1009 (ofTexts texts)) ∧
    (Function.Injective fun texts => decode? 1015 (ofTexts texts)) ∧
    (Function.Injective fun ints => decode? 1016 (ofInts ints)) := by
  have helement : TypeId.element? 1009 = some 25 ∧ TypeId.element? 1015 = some 1043 := ⟨rfl, rfl⟩
  have htext := decode?_ofTexts helement.1 ⟨rfl, rfl⟩
  have hvarchar := decode?_ofTexts helement.2 ⟨rfl, rfl⟩
  have hstr : Function.Injective Value.str := fun _ _ h => Value.str.inj h
  have hint : Function.Injective Value.int := fun _ _ h => Value.int.inj h
  refine ⟨fun texts => ⟨htext texts, hvarchar texts⟩, decode?_ofInts, ?_, ?_, ?_⟩
  · exact injective_decode? htext hstr (by simp)
  · exact injective_decode? hvarchar hstr (by simp)
  · exact injective_decode? decode?_ofInts hint (by simp)

end Cell
end Changefeed
