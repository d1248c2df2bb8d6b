import Changefeed.Json.Basic
import Changefeed.Keyed

/-!
# Records in JSON

A record is written as an object with a member for each field, in any order, or as an array with the
fields by position. Members that name no field are ignored, whatever they hold; a field that is
written twice makes the record invalid. A missing field takes its default, if it has one. Items of
an array after the last field are surplus: most records refuse them.
-/

namespace Changefeed.Json

def membersNamed (name : String) (members : List (String × Json)) : List Json :=
  (members.filter (·.1 == name)).map (·.2)

inductive Surplus
  | refused
  | ignored
deriving DecidableEq, Repr

def Surplus.allows (s : Surplus) (items count : Nat) : Bool := s == .ignored || items ≤ count

def fieldsWith? (surplus : Surplus) (names : List String) : Json → Option (List (Option Json))
  | .obj members => names.mapM fun name =>
    match membersNamed name members with
    | [] => some none
    | [x] => some (some x)
    | _ => none
  | .arr items =>
    if surplus.allows items.length names.length then
      some ((items.take names.length).map some
        ++ List.replicate (names.length - items.length) none)
    else none
  | _ => none

def fields? : List String → Json → Option (List (Option Json)) := fieldsWith? .refused

variable {α : Type}

def required (read : Json → Option α) : Option Json → Option α
  | some j => read j
  | none => none

def withDefault (start : α) (read : Json → Option α) : Option Json → Option α
  | some j => read j
  | none => some start

def nullable (read : Json → Option α) : Json → Option (Option α)
  | .null => some none
  | j => (read j).map some

def text? : Json → Option String
  | .str s => some s
  | _ => none

def bool? : Json → Option Bool
  | .bool b => some b
  | _ => none

def natBelow? (bound : Nat) : Json → Option Nat
  | .num (.whole false n) => if n < bound then some n else none
  | _ => none

def list? (read : Json → Option α) : Json → Option (List α)
  | .arr items => items.mapM read
  | _ => none

/-- An object as pairs of names and what `read` accepts; of members with one name the last counts.
-/
def dictionary? (read : Json → Option α) : Json → Option (List (String × α))
  | .obj members => (members.mapM fun m => (read m.2).map (m.1, ·)).map Keyed.ofList
  | _ => none

end Changefeed.Json
