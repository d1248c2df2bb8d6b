import Changefeed.Json.Basic

/-!
# Reading JSON

The grammar is the strict one: blanks are the space, the tab and the two line ends, numbers have no
leading zeros, a comma stands only between two items, and no raw control character occurs in a
string. The readers take the text that is left and give back what follows the document they read;
their first argument bounds the number of nested calls.
-/

namespace Changefeed.Json

def isBlank (c : Char) : Bool := c == ' ' || c == '\t' || c == '\n' || c == '\r'

def skipBlanks (s : List Char) : List Char := s.dropWhile isBlank

def hexValue? (c : Char) : Option Nat :=
  if c.isDigit then some (c.toNat - '0'.toNat)
  else if 'a' ≤ c ∧ c ≤ 'f' then some (c.toNat - 'a'.toNat + 10)
  else if 'A' ≤ c ∧ c ≤ 'F' then some (c.toNat - 'A'.toNat + 10)
  else none

def hex4? (a b c d : Char) : Option Nat := do
  return (((← hexValue? a) * 16 + (← hexValue? b)) * 16 + (← hexValue? c)) * 16 + (← hexValue? d)

def isHighSurrogate (u : Nat) : Bool := 0xD800 ≤ u && u < 0xDC00

def isLowSurrogate (u : Nat) : Bool := 0xDC00 ≤ u && u < 0xE000

def joinSurrogates (high low : Nat) : Nat := 0x10000 + (high - 0xD800) * 0x400 + (low - 0xDC00)

def unescape? : Char → Option Char
  | '"' => some '"'
  | '\\' => some '\\'
  | '/' => some '/'
  | 'b' => some '\x08'
  | 'f' => some '\x0c'
  | 'n' => some '\n'
  | 'r' => some '\r'
  | 't' => some '\t'
  | _ => none

/-- A string up to its closing quote; its content is missing if a surrogate has no partner. -/
structure StringRead where
  content : Option (List Char)
  rest : List Char

def StringRead.push (c : Char) (r : StringRead) : StringRead := ⟨r.content.map (c :: ·), r.rest⟩

def StringRead.spoil (r : StringRead) : StringRead := ⟨none, r.rest⟩

/-- The low surrogate escaped at the start of a text, if there is one. Fails if the text starts
with an escape by number that has no four hexadecimal digits. -/
def partner? : List Char → Option (Option Nat)
  | '\\' :: 'u' :: a :: b :: c :: d :: _ => do
    let u ← hex4? a b c d
    return if isLowSurrogate u then some u else none
  | _ => some none

def string? : List Char → Option StringRead
  | '"' :: s => some ⟨some [], s⟩
  | '\\' :: 'u' :: a :: b :: c :: d :: s => do
    let u ← hex4? a b c d
    if isHighSurrogate u then
      match ← partner? s with
      | some v => (string? (s.drop 6)).map (.push (Char.ofNat (joinSurrogates u v)))
      | none => (string? s).map .spoil
    else if isLowSurrogate u then (string? s).map .spoil
    else (string? s).map (.push (Char.ofNat u))
  | '\\' :: c :: s => do (string? s).map (.push (← unescape? c))
  | c :: s => if c < ' ' then none else (string? s).map (.push c)
  | [] => none
termination_by s => s.length

def wholePart? (s : List Char) : Option (List Char × List Char) :=
  match s with
  | '0' :: t => some (['0'], t)
  | _ =>
    let (ds, t) := Digits.span s
    if ds.isEmpty then none else some (ds, t)

def fraction? : List Char → Option (Option (List Char) × List Char)
  | '.' :: s =>
    let (ds, t) := Digits.span s
    if ds.isEmpty then none else some (some ds, t)
  | s => some (none, s)

def startsExponent : List Char → Bool
  | c :: _ => c == 'e' || c == 'E'
  | [] => false

def number? (s : List Char) : Option (Number × List Char) := do
  let (negative, s) := match s with
    | '-' :: t => (true, t)
    | _ => (false, s)
  let (whole, s) ← wholePart? s
  let (fraction, s) ← fraction? s
  let (exponent, t) ← Double.exponentPart? s
  if fraction.isNone && !startsExponent s then
    return (.whole negative (Digits.toNat whole), t)
  else
    return (.double (Double.ofLiteral negative whole (fraction.getD []) exponent), t)

/-- An object denotes nothing if one of its names does not. -/
def ofMembers (members : List (Option String × Json)) : Json :=
  if members.all (·.1.isSome) then .obj (members.map fun m => (m.1.getD "", m.2)) else .unpaired

mutual

def value? : Nat → List Char → Option (Json × List Char)
  | 0, _ => none
  | n + 1, s =>
    match s with
    | 'n' :: 'u' :: 'l' :: 'l' :: t => some (.null, t)
    | 't' :: 'r' :: 'u' :: 'e' :: t => some (.bool true, t)
    | 'f' :: 'a' :: 'l' :: 's' :: 'e' :: t => some (.bool false, t)
    | '"' :: t => do
      let r ← string? t
      return (r.content.elim .unpaired fun cs => .str (String.ofList cs), r.rest)
    | '[' :: t =>
      match skipBlanks t with
      | ']' :: u => some (.arr [], u)
      | u => (items? n u).map fun (xs, r) => (.arr xs, r)
    | '{' :: t =>
      match skipBlanks t with
      | '}' :: u => some (.obj [], u)
      | u => (members? n u).map fun (ms, r) => (ofMembers ms, r)
    | _ => (number? s).map fun (x, r) => (.num x, r)

def items? : Nat → List Char → Option (List Json × List Char)
  | 0, _ => none
  | n + 1, s => do
    let (x, t) ← value? n s
    match skipBlanks t with
    | ',' :: u => (items? n (skipBlanks u)).map fun (xs, r) => (x :: xs, r)
    | ']' :: u => some ([x], u)
    | _ => none

def members? : Nat → List Char → Option (List (Option String × Json) × List Char)
  | 0, _ => none
  | n + 1, s =>
    match s with
    | '"' :: t => do
      let name ← string? t
      match skipBlanks name.rest with
      | ':' :: u => do
        let (x, u) ← value? n (skipBlanks u)
        let m := (name.content.map String.ofList, x)
        match skipBlanks u with
        | ',' :: v => (members? n (skipBlanks v)).map fun (ms, r) => (m :: ms, r)
        | '}' :: v => some ([m], v)
        | _ => none
      | _ => none
    | _ => none

end

def ofText? (s : String) : Option Json := do
  let cs := s.toList
  let (j, rest) ← value? (2 * cs.length + 2) (skipBlanks cs)
  guard (skipBlanks rest).isEmpty
  return j

end Changefeed.Json
