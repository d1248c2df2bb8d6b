import Changefeed.Toml.Number
import Changefeed.Toml.Time
import Changefeed.Toml.Tree

/-!
# Reading TOML

A TOML text is read as a JSON document: tables become objects, and a date or time becomes an object
whose only member holds its text. The readers take the text that is left and give back what follows
the part that they read; their first argument bounds the number of nested calls, and `room` is the
number of further arrays and tables that may be opened.
-/

namespace Changefeed.Toml

/-- The name of the member that holds the text of a date or time. -/
def timeField : String := "$__toml_private_datetime"

def timeJson (t : Time) : Json := .obj [(timeField, .str (String.ofList t.write))]

def numeric? (s : List Char) : Option (Json × List Char) :=
  match time? s with
  | some (t, r) => some (timeJson t, r)
  | none => (float? s).or (integer? s)

mutual

def value? : Nat → Nat → List Char → Option (Json × List Char)
  | 0, _, _ => none
  | n + 1, room, s =>
    match s with
    | '"' :: _ | '\'' :: _ => (string? s).map fun (cs, r) => (.str (String.ofList cs), r)
    | '[' :: t =>
      match room with
      | 0 => none
      | room + 1 => do
        let (items, r) ← items? n room (← skipLines (t.length + 1) t)
        return (.arr items, r)
    | '{' :: t =>
      match room with
      | 0 => none
      | room + 1 =>
        match skipBlanks t with
        | '}' :: r => some (.obj [], r)
        | t => (members? n room [] t).map fun (ms, r) => (.obj (membersToJson ms), r)
    | 't' :: 'r' :: 'u' :: 'e' :: r => some (.bool true, r)
    | 'f' :: 'a' :: 'l' :: 's' :: 'e' :: r => some (.bool false, r)
    | _ => numeric? s

def items? : Nat → Nat → List Char → Option (List Json × List Char)
  | 0, _, _ => none
  | n + 1, room, s =>
    match s with
    | ']' :: r => some ([], r)
    | _ => do
      let (x, t) ← value? n room s
      match ← skipLines (t.length + 1) t with
      | ',' :: u => do
        let (xs, r) ← items? n room (← skipLines (u.length + 1) u)
        return (x :: xs, r)
      | ']' :: r => return ([x], r)
      | _ => none

def members? : Nat → Nat → Members → List Char → Option (Members × List Char)
  | 0, _, _, _ => none
  | n + 1, room, members, s => do
    let (path, t) ← key? s
    match t with
    | '=' :: t => do
      let (x, t) ← value? n room (skipBlanks t)
      let members ← assign x path true members
      match skipBlanks t with
      | ',' :: u => members? n room members u
      | '}' :: r => return (members, r)
      | _ => none
    | _ => none

end

/-- A document up to some line: its tables, and the header that the next values belong to. -/
structure Document where
  members : Members
  current : List String
deriving Repr

namespace Document

def empty : Document := ⟨[], []⟩

def assign? (d : Document) (path : List String) (j : Json) : Option Document := do
  let add := assign j path true
  let members ←
    if d.current.isEmpty then add d.members else atHeader (inTable add) d.current d.members
  return { d with members }

def begin? (d : Document) (path : List String) (next : Bool) : Option Document := do
  let members ← atHeader (if next then openNext else openTable) path d.members
  return ⟨members, path⟩

end Document

def header? (d : Document) (s : List Char) : Option (Document × List Char) :=
  match s with
  | '[' :: s => do
    let (path, s) ← key? s
    match s with
    | ']' :: ']' :: s => return (← d.begin? path true, ← closeLine? s)
    | _ => none
  | _ => do
    let (path, s) ← key? s
    match s with
    | ']' :: s => return (← d.begin? path false, ← closeLine? s)
    | _ => none

def keyValue? (d : Document) (s : List Char) : Option (Document × List Char) := do
  let (path, s) ← key? s
  match s with
  | '=' :: s => do
    let (x, s) ← value? (2 * s.length + 2) (nestingLimit - 1) (skipBlanks s)
    return (← d.assign? path x, ← closeLine? s)
  | _ => none

def lines? : Nat → Document → List Char → Option Document
  | 0, _, _ => none
  | n + 1, d, s =>
    match skipBlanks s with
    | [] => some d
    | '#' :: t => closeLine? ('#' :: t) >>= lines? n d
    | '[' :: t => do
      let (d, t) ← header? d t
      lines? n d t
    | '\n' :: t => lines? n d t
    | '\r' :: t => lineEnd? ('\r' :: t) >>= lines? n d
    | t => do
      let (d, t) ← keyValue? d t
      lines? n d t

def dropMark : List Char → List Char
  | '\ufeff' :: s => s
  | s => s

def ofText? (s : String) : Option Json := do
  let cs := dropMark s.toList
  let d ← lines? (cs.length + 1) .empty cs
  return .obj (membersToJson d.members)

end Changefeed.Toml
