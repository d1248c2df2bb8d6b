import Changefeed.Json.Basic

/-!
# Writing JSON

Documents are written without blanks. In strings the quote, the backslash and the control
characters below the space are escaped, everything else stands for itself.
-/

namespace Changefeed.Json

/-- Numbers with a first digit of order `10 ^ -5` to `10 ^ 15` are written positionally, a whole
number with a fraction, and of two equally near texts the one with an even last digit is taken. -/
def numberStyle : Double.Style := ⟨some (-5, 15), true, .toEven⟩

def hexDigit (n : Nat) : Char := Nat.digitChar n

def escape (c : Char) : List Char :=
  if c = '"' then ['\\', '"']
  else if c = '\\' then ['\\', '\\']
  else if c = '\x08' then ['\\', 'b']
  else if c = '\x0c' then ['\\', 'f']
  else if c = '\n' then ['\\', 'n']
  else if c = '\r' then ['\\', 'r']
  else if c = '\t' then ['\\', 't']
  else if c < ' ' then ['\\', 'u', '0', '0', hexDigit (c.toNat / 16), hexDigit (c.toNat % 16)]
  else [c]

def writeString (s : String) : List Char := '"' :: s.toList.flatMap escape ++ ['"']

def Number.write : Number → List Char
  | .whole negative n => Double.sign negative ++ Digits.ofNat n
  | .double x => x.write numberStyle

def commas : List (List Char) → List Char
  | [] => []
  | [x] => x
  | x :: xs => x ++ ',' :: commas xs

mutual

def write : Json → List Char
  | .null => "null".toList
  | .bool b => (if b then "true" else "false").toList
  | .num n => n.write
  | .str s => writeString s
  | .arr items => '[' :: commas (writeItems items) ++ [']']
  | .obj members => '{' :: commas (writeMembers members) ++ ['}']
  | .unpaired => "null".toList

def writeItems : List Json → List (List Char)
  | [] => []
  | x :: xs => x.write :: writeItems xs

def writeMembers : List (String × Json) → List (List Char)
  | [] => []
  | (k, x) :: xs => (writeString k ++ ':' :: x.write) :: writeMembers xs

end

def text (j : Json) : String := String.ofList j.write

end Changefeed.Json
