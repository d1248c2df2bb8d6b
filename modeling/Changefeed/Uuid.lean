import Changefeed.Text.Ascii
import Changefeed.Text.Digits

/-!
# Universally unique identifiers

An identifier is a number of 128 bits, written as 32 small hexadecimal digits in five groups. It is
read from the grouped text, from the digits alone, from the grouped text in braces, or from the
grouped text after `urn:uuid:`, with digits of either case.
-/

namespace Changefeed

structure Uuid where
  number : BitVec 128
deriving DecidableEq, Repr

namespace Uuid

def nil : Uuid := ⟨0⟩

/-- The identifier of version 4 whose 122 free bits are those of a number. -/
def version4 (n : Nat) : Uuid :=
  let x := BitVec.ofNat 122 n
  ⟨x.extractLsb' 74 48 ++ (4 : BitVec 4) ++ x.extractLsb' 62 12 ++ (2 : BitVec 2)
    ++ x.extractLsb' 0 62⟩

def isVersion4 (u : Uuid) : Bool :=
  u.number.extractLsb' 76 4 == 4 && u.number.extractLsb' 62 2 == 2

def digits : Nat → Nat → List Char
  | 0, _ => []
  | n + 1, x => digits n (x / 16) ++ [Nat.digitChar (x % 16)]

def groups : List Nat := [8, 4, 4, 4, 12]

def hyphenate : List Nat → List Char → List Char
  | [], _ => []
  | [_], s => s
  | n :: ns, s => s.take n ++ '-' :: hyphenate ns (s.drop n)

def write (u : Uuid) : List Char := hyphenate groups (digits 32 u.number.toNat)

def text (u : Uuid) : String := String.ofList u.write

def hexValue? (c : Char) : Option Nat :=
  if c.isDigit then some (c.toNat - '0'.toNat)
  else if 'a' ≤ c ∧ c ≤ 'f' then some (c.toNat - 'a'.toNat + 10)
  else if 'A' ≤ c ∧ c ≤ 'F' then some (c.toNat - 'A'.toNat + 10)
  else none

def ofDigits? (s : List Char) : Option Uuid := do
  let ds ← s.mapM hexValue?
  guard (ds.length = 32)
  return ⟨BitVec.ofNat 128 (ds.foldl (fun n d => 16 * n + d) 0)⟩

def unhyphenate? : List Nat → List Char → Option (List Char)
  | [], _ => none
  | [n], s => if s.length = n then some s else none
  | n :: ns, s =>
    match s.drop n with
    | '-' :: t => (unhyphenate? ns t).map (s.take n ++ ·)
    | _ => none

def ofGroups? (s : List Char) : Option Uuid := unhyphenate? groups s >>= ofDigits?

def read? (s : List Char) : Option Uuid :=
  match s with
  | '{' :: t => if t.getLast? = some '}' then ofGroups? t.dropLast else none
  | _ =>
    match Ascii.dropWord? "urn:uuid:".toList s with
    | some t => ofGroups? t
    | none => (ofDigits? s).or (ofGroups? s)

end Uuid
end Changefeed
