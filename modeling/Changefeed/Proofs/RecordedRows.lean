import Changefeed.Proofs.ArrayGrammar
import Changefeed.Proofs.DocumentText
import Changefeed.Proofs.Loading
import Changefeed.Proofs.ScalarTexts

/-!
# Recorded rows

A row that is recorded cell by cell is replayed as the same row, whatever its texts look like
(`RecordedCell.rows_replayed`). A list of recorded cells is a row unless one of its cells makes no
sense: bytes with an odd number of digits or with a character that is no digit, or a mark that says
nothing. The row then has a cell for each recorded one, in the same place.
-/

namespace Changefeed

namespace Hex

def halves (bytes : List UInt8) : List Nat := bytes.flatMap fun b => [b.toNat / 16, b.toNat % 16]

theorem encode_eq (bytes : List UInt8) : encode bytes = (halves bytes).map digit := by
  rw [halves, List.map_flatMap]
  rfl

theorem length_halves (bytes : List UInt8) : (halves bytes).length = 2 * bytes.length := by
  rw [← length_encode, encode_eq, List.length_map]

theorem lt_of_mem_halves {bytes : List UInt8} {n : Nat} (h : n ∈ halves bytes) : n < 16 := by
  obtain ⟨b, -, hn⟩ := List.mem_flatMap.1 h
  have hb := b.toNat_lt
  simp only [List.mem_cons, List.not_mem_nil, or_false] at hn
  omega

theorem lt_of_codeValue? {b : UInt8} {n : Nat} (h : codeValue? b = some n) : n < 16 := by
  simp only [codeValue?] at h
  split_ifs at h <;> simp at h <;> omega

theorem byte_eq_iff {x y : Nat} (hx : x < 16) (hy : y < 16) (b : UInt8) :
    UInt8.ofNat (16 * x + y) = b ↔ x = b.toNat / 16 ∧ y = b.toNat % 16 := by
  have hb := b.toNat_lt
  rw [← UInt8.toNat_inj, UInt8.toNat_ofNat']
  omega

theorem decodePairs_eq_ok_iff {position : Nat} {codes bytes : List UInt8} :
    decodePairs position codes = .ok bytes ↔ codes.map codeValue? = (halves bytes).map some := by
  fun_induction decodePairs position codes generalizing bytes with
  | case1 => cases bytes <;> simp [halves]
  | case2 => cases bytes <;> simp [halves]
  | case3 _ _ _ _ ha => cases bytes <;> simp [halves, ha]
  | case4 _ _ _ _ hb => cases bytes <;> simp [halves, hb]
  | case5 position a b codes x y hb ha ih =>
    rw [List.map_cons, List.map_cons, ha, hb]
    cases bytes with
    | nil => cases decodePairs (position + 2) codes <;> simp [halves, Except.map]
    | cons byte bytes =>
      have hbyte := byte_eq_iff (lt_of_codeValue? ha) (lt_of_codeValue? hb) byte
      have hhalves : halves (byte :: bytes) =
          byte.toNat / 16 :: byte.toNat % 16 :: halves bytes := rfl
      rw [hhalves, List.map_cons, List.map_cons, List.cons.injEq, List.cons.injEq,
        Option.some.injEq, Option.some.injEq, ← and_assoc, ← hbyte, ← ih]
      cases decodePairs (position + 2) codes <;> simp [Except.map]

section Characters

theorem codeValue?_small {c : Char} (h : c.toNat < 128) {n : Nat} (hn : n < 16) :
    codeValue? c.toUInt8 = some n ↔ c.toLower = digit n := by
  have hall : ∀ m < 128, ∀ n < 16,
      codeValue? (Char.ofNat m).toUInt8 = some n ↔ (Char.ofNat m).toLower = digit n := by
    decide +kernel
  have hc := hall c.toNat h n hn
  rwa [Char.ofNat_toNat] at hc

theorem utf8Size_small {c : Char} (h : c.toNat < 128) : c.utf8Size = 1 := by
  have hval : c.val.toNat ≤ 127 := by
    rw [Char.toNat_val]
    omega
  exact if_pos (UInt32.le_iff_toNat_le.2 hval)

theorem exists_utf8EncodeChar_eq {c : Char} (h : 128 ≤ c.toNat) :
    ∃ b bs, String.utf8EncodeChar c = b :: bs ∧ codeValue? b = none := by
  have hlarge : ∀ b : UInt8, 128 ≤ b.toNat → codeValue? b = none := by
    intro b hb
    simp only [codeValue?]
    rw [if_neg (by omega), if_neg (by omega), if_neg (by omega)]
  simp only [String.utf8EncodeChar, Char.toNat_val]
  split_ifs
  · omega
  all_goals
    refine ⟨_, _, rfl, hlarge _ ?_⟩
    simp only [UInt8.toNat_ofNat']
    omega

theorem toLower_ne_digit {c : Char} (h : 128 ≤ c.toNat) {n : Nat} (hn : n < 16) :
    c.toLower ≠ digit n := by
  have hsame : c.toLower = c := by
    refine dif_neg ?_
    rintro ⟨-, hle⟩
    have hle' : c.toNat ≤ 90 := UInt32.le_iff_toNat_le.1 hle
    omega
  have hsmall : ∀ n < 16, (digit n).toNat < 128 := by decide
  intro heq
  have hc := hsmall n hn
  rw [← heq, hsame] at hc
  omega

theorem map_codeValue?_eq_iff {s : List Char} {ns : List Nat} (hns : ∀ n ∈ ns, n < 16) :
    (s.flatMap String.utf8EncodeChar).map codeValue? = ns.map some ↔
      Ascii.lower s = ns.map digit := by
  induction s generalizing ns with
  | nil => cases ns <;> simp [Ascii.lower]
  | cons c s ih =>
    rw [List.flatMap_cons, List.map_append, Ascii.lower, List.map_cons, ← Ascii.lower]
    rcases Nat.lt_or_ge c.toNat 128 with hc | hc
    · rw [String.utf8EncodeChar_eq_singleton (utf8Size_small hc)]
      cases ns with
      | nil => simp
      | cons n ns =>
        have hn : n < 16 := hns n List.mem_cons_self
        have ih' := ih fun m hm => hns m (List.mem_cons_of_mem n hm)
        simp [codeValue?_small hc hn, ih']
    · obtain ⟨b, codes, hcode, hnone⟩ := exists_utf8EncodeChar_eq hc
      rw [hcode, List.map_cons, hnone]
      cases ns with
      | nil => simp
      | cons n ns => simp [toLower_ne_digit hc (hns n List.mem_cons_self)]

end Characters

theorem toList_toUTF8_eq (s : String) :
    s.toUTF8.toList = s.toList.flatMap String.utf8EncodeChar := by
  rw [String.toUTF8_eq_toByteArray, ← s.ofList_toList, String.toByteArray_ofList, List.utf8Encode,
    toList_toByteArray, String.toList_ofList]

theorem decode_eq_ok_iff {s : String} {bytes : List UInt8} :
    decode s = .ok bytes ↔ Ascii.lower s.toList = encode bytes := by
  rw [encode_eq, ← map_codeValue?_eq_iff fun _ => lt_of_mem_halves, ← toList_toUTF8_eq, decode]
  split
  next hodd =>
    refine iff_of_false (fun hok => by cases hok) fun hcodes => ?_
    have hlength := congrArg List.length hcodes
    rw [List.length_map, List.length_map, length_halves] at hlength
    omega
  next => exact decodePairs_eq_ok_iff

theorem exists_digit {c : Char} (h : c ∈ digits) : ∃ n < 16, c = digit n := by
  have hdigits : digits = (List.range 16).map digit := by decide
  rw [hdigits] at h
  obtain ⟨n, hn, rfl⟩ := List.mem_map.1 h
  exact ⟨n, List.mem_range.1 hn, rfl⟩

theorem exists_encode : ∀ {s : List Char}, s.length % 2 = 0 → (∀ c ∈ s, c ∈ digits) →
    ∃ bytes, s = encode bytes
  | [], _, _ => ⟨[], rfl⟩
  | [_], heven, _ => absurd heven (by simp)
  | a :: b :: s, heven, hs => by
    obtain ⟨x, hx, rfl⟩ := exists_digit (hs a (by simp))
    obtain ⟨y, hy, rfl⟩ := exists_digit (hs b (by simp))
    rw [List.length_cons, List.length_cons] at heven
    obtain ⟨bytes, rfl⟩ := exists_encode (s := s) (by omega) fun c hc => hs c (by simp [hc])
    obtain ⟨hhigh, hlow⟩ := (byte_eq_iff hx hy _).1 rfl
    refine ⟨UInt8.ofNat (16 * x + y) :: bytes, ?_⟩
    have hcons (b : UInt8) : encode (b :: bytes) = ofByte b ++ encode bytes := rfl
    rw [hcons, ofByte, ← hhigh, ← hlow]
    rfl

theorem exists_encode_iff {s : List Char} :
    (∃ bytes, s = encode bytes) ↔ s.length % 2 = 0 ∧ ∀ c ∈ s, c ∈ digits := by
  refine ⟨?_, fun h => exists_encode h.1 h.2⟩
  rintro ⟨bytes, rfl⟩
  refine ⟨?_, fun _ => mem_digits_of_mem_encode⟩
  rw [length_encode]
  omega

theorem exists_decode_eq_error_iff {s : String} : (∃ fault, decode s = .error fault) ↔
    s.toList.length % 2 = 1 ∨ ∃ c ∈ s.toList, c.toLower ∉ digits := by
  have hok : (∃ bytes, decode s = .ok bytes) ↔
      s.toList.length % 2 = 0 ∧ ∀ c ∈ s.toList, c.toLower ∈ digits := by
    simp only [decode_eq_ok_iff, exists_encode_iff, Ascii.lower, List.length_map,
      List.forall_mem_map]
  have hfail : (∃ fault, decode s = .error fault) ↔ ¬ ∃ bytes, decode s = .ok bytes := by
    cases decode s <;> simp
  rw [hfail, hok, not_and_or]
  refine or_congr Nat.mod_two_ne_zero ?_
  simp

end Hex

namespace RecordedCell

/-- The ways to record a cell: bytes may have digits of either case. -/
inductive Denotes : RecordedCell → Cell → Prop
  | null : Denotes .null .null
  | text (s : String) : Denotes (.text s) (.text s)
  | binary {digits : String} {bytes : List UInt8}
    (h : Ascii.lower digits.toList = Hex.encode bytes) : Denotes (.binary digits) (.binary bytes)
  | unchanged : Denotes (.unchanged true) .unchanged

inductive IsSpoiled : RecordedCell → Prop
  | odd {digits : String} (h : digits.toList.length % 2 = 1) : IsSpoiled (.binary digits)
  | stray {digits : String} {c : Char} (hc : c ∈ digits.toList) (h : c.toLower ∉ Hex.digits) :
    IsSpoiled (.binary digits)
  | mark : IsSpoiled (.unchanged false)

section Meaning

variable {r : RecordedCell} {x : Cell} {records : List RecordedCell} {cells : List Cell}

theorem toCell_eq_ok_iff : r.toCell = .ok x ↔ Denotes r x := by
  constructor
  · intro h
    cases r with
    | null => cases h; exact .null
    | text s => cases h; exact .text s
    | binary digits =>
      rw [toCell] at h
      split at h
      next bytes hbytes =>
        cases h
        exact .binary (Hex.decode_eq_ok_iff.1 hbytes)
      next => cases h
    | unchanged mark =>
      cases mark with
      | true => cases h; exact .unchanged
      | false => cases h
  · rintro (_ | _ | hbytes | _)
    · rfl
    · rfl
    · rw [toCell, Hex.decode_eq_ok_iff.2 hbytes]
    · rfl

theorem isSpoiled_binary_iff {digits : String} : (binary digits).IsSpoiled ↔
    digits.toList.length % 2 = 1 ∨ ∃ c ∈ digits.toList, c.toLower ∉ Hex.digits := by
  constructor
  · rintro (hodd | ⟨hc, hstray⟩)
    · exact .inl hodd
    · exact .inr ⟨_, hc, hstray⟩
  · rintro (hodd | ⟨c, hc, hstray⟩)
    · exact .odd hodd
    · exact .stray hc hstray

theorem exists_toCell_eq_error_iff : (∃ e, r.toCell = .error e) ↔ r.IsSpoiled := by
  have hbinary (digits : String) :
      (∃ e, (binary digits).toCell = .error e) ↔ (binary digits).IsSpoiled := by
    rw [isSpoiled_binary_iff, ← Hex.exists_decode_eq_error_iff, toCell]
    cases Hex.decode digits <;> simp
  constructor
  · rintro ⟨e, h⟩
    cases r with
    | null => cases h
    | text s => cases h
    | binary digits => exact (hbinary digits).1 ⟨e, h⟩
    | unchanged mark =>
      cases mark with
      | true => cases h
      | false => exact .mark
  · intro h
    cases r with
    | null => cases h
    | text s => cases h
    | binary digits => exact (hbinary digits).2 h
    | unchanged mark =>
      cases h
      exact ⟨_, rfl⟩

theorem toCells_eq_mapM (records : List RecordedCell) : toCells records = records.mapM toCell := by
  induction records with
  | nil => rfl
  | cons r records ih =>
    rw [toCells, List.mapM_cons, ← ih]
    cases r.toCell with
    | error e => rfl
    | ok x => cases toCells records <;> rfl

theorem toCells_eq_ok_iff : toCells records = .ok cells ↔ List.Forall₂ Denotes records cells := by
  rw [toCells_eq_mapM, mapM_eq_ok_iff]
  simp only [toCell_eq_ok_iff]

theorem exists_toCells_eq_error_iff :
    (∃ e, toCells records = .error e) ↔ ∃ r ∈ records, r.IsSpoiled := by
  have herror {α : Type} (y : Except LoadError α) : (∃ e, y = .error e) ↔ y.toOption = none := by
    cases y <;> simp [Except.toOption]
  rw [herror, toOption_toCells, mapM_eq_none_iff]
  simp only [← toOption_toCell, ← herror, exists_toCell_eq_error_iff]

end Meaning

section Documents

def document (records : List RecordedCell) : Json := .arr (records.map toJson)

theorem ofJson?_toJson (r : RecordedCell) : ofJson? r.toJson = some r := by
  cases r <;> rfl

theorem cells?_document (records : List RecordedCell) :
    RecordedAction.cells? (document records) = some records := by
  rw [document, RecordedAction.cells?, Json.list?]
  induction records with
  | nil => rfl
  | cons r records ih => rw [List.map_cons, List.mapM_cons, ofJson?_toJson, ih]; rfl

theorem isNormal_toJson (r : RecordedCell) : r.toJson.IsNormal := by
  cases r <;> simp [toJson, Json.IsNormal, Json.IsNormalMembers]

theorem isNormal_document (records : List RecordedCell) : (document records).IsNormal := by
  rw [document, Json.IsNormal]
  induction records with
  | nil => trivial
  | cons r records ih => exact ⟨isNormal_toJson r, ih⟩

end Documents

theorem exists_denotes (x : Cell) : ∃ r, Denotes r x := by
  cases x with
  | null => exact ⟨_, .null⟩
  | unchanged => exact ⟨_, .unchanged⟩
  | text s => exact ⟨_, .text s⟩
  | binary bytes =>
    have hdecode := Hex.decode_eq_ok_iff.1 (Hex.decode_encode bytes)
    exact ⟨_, .binary hdecode⟩

theorem exists_forall₂_denotes (cells : List Cell) :
    ∃ records, List.Forall₂ Denotes records cells := by
  induction cells with
  | nil => exact ⟨[], .nil⟩
  | cons x cells ih =>
    obtain ⟨r, hr⟩ := exists_denotes x
    obtain ⟨records, hrecords⟩ := ih
    exact ⟨r :: records, .cons hr hrecords⟩

/-- Every row can be recorded, and it is replayed as it was, however its document is laid out.
Recorded cells are refused just if one of them is spoiled. -/
theorem rows_replayed :
    (∀ cells : List Cell, ∃ records, List.Forall₂ Denotes records cells) ∧
    (∀ (cells : List Cell) (records : List RecordedCell), List.Forall₂ Denotes records cells →
      Json.ofText? (document records).text = some (document records) ∧
      ∀ text, Json.ofText? text = some (document records) →
        (Json.ofText? text >>= RecordedAction.cells?).map toCells = some (.ok cells)) ∧
    ∀ records : List RecordedCell,
      ((∃ e, toCells records = .error e) ↔ ∃ r ∈ records, r.IsSpoiled) ∧
      ∀ cells, toCells records = .ok cells ↔ List.Forall₂ Denotes records cells := by
  refine ⟨exists_forall₂_denotes, ?_,
    fun _ => ⟨exists_toCells_eq_error_iff, fun _ => toCells_eq_ok_iff⟩⟩
  intro cells records h
  refine ⟨Json.ofText?_text (isNormal_document records), ?_⟩
  intro text htext
  have hcells : (Json.ofText? text >>= RecordedAction.cells?) = some records := by
    rw [htext]
    exact cells?_document records
  rw [hcells, Option.map_some, toCells_eq_ok_iff.2 h]

/-- Texts that look like other cells, and bytes whose digits are of both cases. -/
def peculiarRecords : List RecordedCell :=
  [.null, .text "null", .text "true", .binary "CaFe", .text "00ff", .binary "", .unchanged true]

def peculiarCells : List Cell :=
  [.null, .text "null", .text "true", .binary [0xCA, 0xFE], .text "00ff", .binary [], .unchanged]

theorem rows_replayed_peculiar : List.Forall₂ Denotes peculiarRecords peculiarCells ∧
    (Json.ofText? (document peculiarRecords).text >>= RecordedAction.cells?).map toCells =
      some (.ok peculiarCells) := by
  have h : List.Forall₂ Denotes peculiarRecords peculiarCells :=
    .cons .null <| .cons (.text _) <| .cons (.text _) <| .cons (.binary (by decide)) <|
      .cons (.text _) <| .cons (.binary rfl) <| .cons .unchanged .nil
  obtain ⟨htext, hread⟩ := rows_replayed.2.1 peculiarCells peculiarRecords h
  exact ⟨h, hread _ htext⟩

end RecordedCell

end Changefeed
