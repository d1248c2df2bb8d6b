import Changefeed.Text.Digits

/-!
# Characters, comments and strings of TOML

Blanks are the space and the tab; a line ends with a line feed, which a carriage return may precede.
No control character but the tab occurs in a comment or a string. A string in three quotes may
contain line ends, which count as line feeds, drops a line end directly after the opening quotes,
and may contain one or two quotes next to each other, also directly before the closing quotes.
-/

namespace Changefeed.Toml

def isBlank (c : Char) : Bool := c == ' ' || c == '\t'

def skipBlanks (s : List Char) : List Char := s.dropWhile isBlank

def lineEnd? : List Char → Option (List Char)
  | '\n' :: s => some s
  | '\r' :: '\n' :: s => some s
  | _ => none

def lineOrTextEnd? : List Char → Option (List Char)
  | [] => some []
  | s => lineEnd? s

def isControl (c : Char) : Bool := (c < ' ' && c != '\t') || c == '\x7f'

def skipComment : List Char → List Char
  | '#' :: s => s.dropWhile fun c => !isControl c
  | s => s

def closeLine? (s : List Char) : Option (List Char) := lineOrTextEnd? (skipComment (skipBlanks s))

def skipLines : Nat → List Char → Option (List Char)
  | 0, _ => none
  | n + 1, s =>
    match skipBlanks s with
    | '#' :: t => lineEnd? (skipComment ('#' :: t)) >>= skipLines n
    | '\n' :: t => skipLines n t
    | '\r' :: t => lineEnd? ('\r' :: t) >>= skipLines n
    | t => some t

def skipSpace : List Char → List Char
  | '\r' :: '\n' :: s => skipSpace s
  | c :: s => if isBlank c || c == '\n' then skipSpace s else c :: s
  | [] => []

def hexValue? (c : Char) : Option Nat :=
  if c.isDigit then some (c.toNat - '0'.toNat)
  else if 'a' ≤ c ∧ c ≤ 'f' then some (c.toNat - 'a'.toNat + 10)
  else if 'A' ≤ c ∧ c ≤ 'F' then some (c.toNat - 'A'.toNat + 10)
  else none

def numbered? (digits : List Char) : Option Char := do
  let n := (← digits.mapM hexValue?).foldl (fun n d => 16 * n + d) 0
  if h : n.isValidChar then some (Char.ofNatAux n h) else none

def unescape? : Char → Option Char
  | 'b' => some '\x08'
  | 't' => some '\t'
  | 'n' => some '\n'
  | 'f' => some '\x0c'
  | 'r' => some '\r'
  | '"' => some '"'
  | '\\' => some '\\'
  | _ => none

/-- An escaped character, whose backslash has been taken. -/
def escaped? : List Char → Option (Char × List Char)
  | 'u' :: s =>
    if 4 ≤ s.length then (numbered? (s.take 4)).map (·, s.drop 4) else none
  | 'U' :: s =>
    if 8 ≤ s.length then (numbered? (s.take 8)).map (·, s.drop 8) else none
  | c :: s => (unescape? c).map (·, s)
  | [] => none

def push (c : Char) (r : List Char × List Char) : List Char × List Char := (c :: r.1, r.2)

def literal? : List Char → Option (List Char × List Char)
  | '\'' :: s => some ([], s)
  | c :: s => if isControl c then none else (literal? s).map (push c)
  | [] => none

/-- Reads a string in double quotes, whose opening quote has been taken. The number bounds the
length of the string. -/
def basic? : Nat → List Char → Option (List Char × List Char)
  | 0, _ => none
  | n + 1, s =>
    match s with
    | '"' :: t => some ([], t)
    | '\\' :: t => do
      let (c, u) ← escaped? t
      (basic? n u).map (push c)
    | c :: t => if isControl c then none else (basic? n t).map (push c)
    | [] => none

/-- At the end of a string in three quotes: the quotes that belong to the string, and the rest. -/
def closing? (quote : Char) (s : List Char) : Option (List Char × List Char) :=
  let count := (s.takeWhile (· == quote)).length
  if 3 ≤ count then
    let own := min 2 (count - 3)
    some (List.replicate own quote, s.drop (own + 3))
  else none

def longLiteral? : List Char → Option (List Char × List Char)
  | [] => none
  | '\r' :: '\n' :: s => (longLiteral? s).map (push '\n')
  | c :: s =>
    match closing? '\'' (c :: s) with
    | some r => some r
    | none => if isControl c && c != '\n' then none else (longLiteral? s).map (push c)

/-- What follows a backslash at the end of a line, the backslash taken: the next text after any
blanks and line ends. -/
def continued? (s : List Char) : Option (List Char) := (lineEnd? (skipBlanks s)).map skipSpace

def longBasic? : Nat → List Char → Option (List Char × List Char)
  | 0, _ => none
  | n + 1, s =>
    match closing? '"' s with
    | some r => some r
    | none =>
      match s with
      | '\\' :: t =>
        match continued? t with
        | some u => longBasic? n u
        | none => do
          let (c, u) ← escaped? t
          (longBasic? n u).map (push c)
      | '\r' :: '\n' :: t => (longBasic? n t).map (push '\n')
      | c :: t => if isControl c && c != '\n' then none else (longBasic? n t).map (push c)
      | [] => none

def dropLineEnd (s : List Char) : List Char := (lineEnd? s).getD s

def string? : List Char → Option (List Char × List Char)
  | '"' :: '"' :: '"' :: s => longBasic? (s.length + 1) (dropLineEnd s)
  | '"' :: s => basic? (s.length + 1) s
  | '\'' :: '\'' :: '\'' :: s => longLiteral? (dropLineEnd s)
  | '\'' :: s => literal? s
  | _ => none

def isBare (c : Char) : Bool := c.isAlphanum || c == '-' || c == '_'

def keyPart? : List Char → Option (String × List Char)
  | '"' :: s => (basic? (s.length + 1) s).map fun (k, r) => (String.ofList k, r)
  | '\'' :: s => (literal? s).map fun (k, r) => (String.ofList k, r)
  | s =>
    let k := s.takeWhile isBare
    if k.isEmpty then none else some (String.ofList k, s.dropWhile isBare)

def keyParts? : Nat → List Char → Option (List String × List Char)
  | 0, _ => none
  | n + 1, s => do
    let (part, s) ← keyPart? (skipBlanks s)
    match skipBlanks s with
    | '.' :: t => (keyParts? n t).map fun (parts, r) => (part :: parts, r)
    | t => return ([part], t)

/-- Keys have fewer parts than this, and values are nested less deeply. -/
def nestingLimit : Nat := 80

def key? (s : List Char) : Option (List String × List Char) := keyParts? (nestingLimit - 1) s

end Changefeed.Toml
