import Changefeed.Config.Environment
import Changefeed.Text.Alphanumeric
import Changefeed.Text.Blank

/-!
# Files with variables

Each line of such a file sets a variable: a name, an equals sign, and a value with optional quotes.
The word `export` may precede the name. Empty lines and comments are skipped. In a value, text in
single quotes stands for itself; outside of them a backslash escapes a character, and `$` refers to
a variable that is set already, by name or by a name in braces. A variable that is set already keeps
its value.

Text in quotes may extend over several lines, so the file is cut into logical lines (`cut`). Each
line takes effect before the next one is looked at, so the first fault of the file is reported.
-/

namespace Changefeed.EnvFile

inductive Fault
  | malformed
  | nulInValue (name : String)
deriving DecidableEq, Repr

/-- Where the search for the end of a logical line stands. -/
inductive Place
  | plain
  /-- Directly after a blank, where a comment may begin. -/
  | blank
  | escape
  | strong
  | strongEscape
  | weak
  | weakEscape
deriving DecidableEq, Repr

def Place.opening : Char → Place
  | '\\' => .escape
  | '"' => .weak
  | '\'' => .strong
  | _ => .plain

def Place.next? : Place → Char → Option Place
  | .plain, c =>
    some (if Blank.isBlank c && c != '\n' && c != '\r' then .blank else .opening c)
  | .blank, c => if c = '#' then none else some (.opening c)
  | .escape, _ => some .plain
  | .strong, c => some (if c = '\\' then .strongEscape else if c = '\'' then .plain else .strong)
  | .strongEscape, _ => some .strong
  | .weak, c => some (if c = '\\' then .weakEscape else if c = '"' then .plain else .weak)
  | .weakEscape, _ => some .weak

def afterLine (s : List Char) : List Char := (s.dropWhile (· != '\n')).drop 1

def finishLine : List Char → List Char
  | '\r' :: line => line.reverse
  | line => line.reverse

/-- Takes the first logical line; `line` is what has been taken of it, from its end. The line is
missing if it consists of a comment. -/
def takeLine? : Place → List Char → List Char → Option (List Char × List Char)
  | place, line, [] => if place = .plain then some (line.reverse, []) else none
  | place, line, c :: s =>
    match place.next? c with
    | none => some (line.reverse, afterLine (c :: s))
    | some .plain =>
      if c = '\n' then some (finishLine line, s) else takeLine? .plain (c :: line) s
    | some place => takeLine? place (c :: line) s

def startsWithComment (s : List Char) : Bool :=
  match Blank.skip (s.takeWhile (· != '\n')) with
  | '#' :: _ => true
  | _ => false

/-- The logical lines of a text. They are not complete if a quote is not closed, or if the text ends
directly after a blank or a backslash. -/
structure Cut where
  lines : List (List Char)
  complete : Bool
deriving DecidableEq, Repr

def cut : Nat → List Char → Cut
  | 0, _ => ⟨[], false⟩
  | _, [] => ⟨[], true⟩
  | n + 1, s =>
    if startsWithComment s then cut n (afterLine s)
    else
      match takeLine? .plain [] s with
      | none => ⟨[], false⟩
      | some (line, rest) =>
        let c := cut n rest
        { c with lines := line :: c.lines }

inductive Mode
  | text
  | escape
  | strong
  /-- A reference by name, given from its end. -/
  | named (name : List Char)
  | braced (name : List Char)
  | ending

structure Partial where
  mode : Mode
  weak : Bool
  value : List Char

def unescape? : Char → Option Char
  | 'n' => some '\n'
  | c => if c = '\\' ∨ c = '\'' ∨ c = '"' ∨ c = '$' ∨ c = ' ' then some c else none

def refer (env : Environment) (name value : List Char) : List Char :=
  value ++ ((env.value? (String.ofList name.reverse)).getD "").toList

def takeText (p : Partial) (c : Char) : Partial :=
  if c = '$' then { p with mode := .named [] }
  else if c = '\\' then { p with mode := .escape }
  else if c = '"' then { p with weak := !p.weak }
  else if p.weak then { p with value := p.value ++ [c] }
  else if c = '\'' then { p with mode := .strong }
  else if c = ' ' ∨ c = '\t' then { p with mode := .ending }
  else { p with value := p.value ++ [c] }

def takeNamed (env : Environment) (p : Partial) (name : List Char) (c : Char) : Partial :=
  if Alphanumeric.contains c then { p with mode := .named (c :: name) }
  else if c = '\x7b' ∧ name = [] then { p with mode := .braced [] }
  else
    let value := refer env name p.value
    if c = '$' then { p with mode := .named [], value }
    else { p with mode := .text, value := value ++ [c] }

def value? (env : Environment) : Partial → List Char → Option (List Char)
  | p, [] =>
    match p.mode with
    | .strong | .braced _ => none
    | .named name => if p.weak then none else some (refer env name p.value)
    | _ => if p.weak then none else some p.value
  | p, c :: s =>
    match p.mode with
    | .text => value? env (takeText p c) s
    | .escape => do
      let d ← unescape? c
      value? env { p with mode := .text, value := p.value ++ [d] } s
    | .strong =>
      if c = '\'' then value? env { p with mode := .text } s
      else value? env { p with value := p.value ++ [c] } s
    | .named name => value? env (takeNamed env p name c) s
    | .braced name =>
      if c = '\x7d' then value? env { p with mode := .text, value := refer env name p.value } s
      else value? env { p with mode := .braced (c :: name) } s
    | .ending =>
      if c = ' ' ∨ c = '\t' then value? env p s
      else if c = '#' then some p.value
      else none

def name? (s : List Char) : Option (String × List Char) :=
  match s with
  | c :: _ =>
    if c.isAlpha || c == '_' then
      let isName (c : Char) : Bool := c.isAlphanum || c == '_' || c == '.'
      some (String.ofList (s.takeWhile isName), s.dropWhile isName)
    else none
  | [] => none

def equals? : List Char → Option (List Char)
  | '=' :: s => some s
  | _ => none

/-- Reads a name and the equals sign after it. The word `export` may precede the name, or be it. -/
def assigned? (s : List Char) : Option (String × List Char) := do
  let (name, s) ← name? s
  let s := Blank.skip s
  match equals? s with
  | some t => return (name, t)
  | none =>
    guard (name == "export")
    let (name, s) ← name? s
    return (name, ← equals? (Blank.skip s))

def trimEnd (s : List Char) : List Char := (s.reverse.dropWhile Blank.isBlank).reverse

def line? (env : Environment) (s : List Char) : Option (Option (String × String)) :=
  match Blank.skip (trimEnd s) with
  | [] => some none
  | '#' :: _ => some none
  | s => do
    let (name, s) ← assigned? s
    match Blank.skip s with
    | [] => return some (name, "")
    | '#' :: _ => return some (name, "")
    | s => return some (name, String.ofList (← value? env ⟨.text, false, []⟩ s))

def loadLines : Environment → List (List Char) → Except Fault Environment
  | env, [] => .ok env
  | env, s :: rest =>
    match line? env s with
    | none => .error .malformed
    | some none => loadLines env rest
    | some (some (name, value)) =>
      match env.setNew? name value with
      | none => .error (.nulInValue name)
      | some env => loadLines env rest

def dropMark : List Char → List Char
  | '\ufeff' :: s => s
  | s => s

def load (env : Environment) (text : String) : Except Fault Environment := do
  let s := dropMark text.toList
  let c := cut (s.length + 1) s
  let env ← loadLines env c.lines
  if c.complete then .ok env else .error .malformed

end Changefeed.EnvFile
