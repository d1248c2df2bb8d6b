/-!
# Hexadecimal text

Bytes are written with two small digits each and read with digits of either case. A text of odd
length is refused before its characters are looked at; the position of a character that is no
digit counts bytes, and the byte found there is shown as the character with its number, in quotes.
-/

namespace Changefeed

inductive HexFault
  | oddLength
  | invalidByte (byte : UInt8) (position : Nat)
deriving DecidableEq, Repr

namespace Hex

def digit (n : Nat) : Char := Nat.digitChar n

def ofByte (b : UInt8) : List Char := [digit (b.toNat / 16), digit (b.toNat % 16)]

/-- Whether the character with the number of a byte is neither a control nor an unusual blank nor
the soft hyphen. -/
def isVisible (b : UInt8) : Bool :=
  (0x20 ≤ b && b ≤ 0x7E) || (0xA1 ≤ b && b != 0xAD)

def quotable (b : UInt8) : List Char :=
  match Char.ofNat b.toNat with
  | '\x00' => ['\\', '0']
  | '\t' => ['\\', 't']
  | '\n' => ['\\', 'n']
  | '\r' => ['\\', 'r']
  | '\'' => ['\\', '\'']
  | '\\' => ['\\', '\\']
  | c => if isVisible b then [c] else '\\' :: 'u' :: '\x7b' :: Nat.toDigits 16 b.toNat ++ ['\x7d']

end Hex

def HexFault.message : HexFault → String
  | .oddLength => "Odd number of digits"
  | .invalidByte b n =>
    "Invalid character " ++ "'" ++ String.ofList (Hex.quotable b) ++ "' at position " ++
      Nat.repr n

namespace Hex

def encode (bytes : List UInt8) : List Char := bytes.flatMap ofByte

def codeValue? (b : UInt8) : Option Nat :=
  let n := b.toNat
  if 48 ≤ n ∧ n ≤ 57 then some (n - 48)
  else if 65 ≤ n ∧ n ≤ 70 then some (n - 55)
  else if 97 ≤ n ∧ n ≤ 102 then some (n - 87)
  else none

def decodePairs (position : Nat) : List UInt8 → Except HexFault (List UInt8)
  | [] => .ok []
  | [_] => .error .oddLength
  | a :: b :: rest =>
    match codeValue? a, codeValue? b with
    | none, _ => .error (.invalidByte a position)
    | _, none => .error (.invalidByte b (position + 1))
    | some x, some y => (decodePairs (position + 2) rest).map (UInt8.ofNat (16 * x + y) :: ·)

def decode (s : String) : Except HexFault (List UInt8) :=
  let codes := s.toUTF8.toList
  if codes.length % 2 = 1 then .error .oddLength else decodePairs 0 codes

end Hex
end Changefeed
