import Changefeed.Json.Basic
import Changefeed.Keyed

/-!
# Tables of TOML

A document is a tree of tables. How a table came about decides what may still be added to it: one
with a header of its own gets its members below that header only; one that was implied by the header
of a table inside it may still get a header; one that a key with points made gets further members
from such keys. Headers may add tables to all of them.
-/

namespace Changefeed.Toml

inductive Origin
  | header
  | implied
  | dotted
deriving DecidableEq, Repr

inductive Node
  | value (j : Json)
  | table (origin : Origin) (members : List (String × Node))
  /-- An array of tables, the last of which is still being filled. -/
  | tables (earlier : List (List (String × Node))) (last : List (String × Node))
deriving Repr, Inhabited

abbrev Members := List (String × Node)

/-- Adds a value under the parts of a key. A last part must be new, and the table that gets it must
be the one that the key starts from or one that a key made; `mayHold` says so of the given table. -/
def assign (j : Json) : List String → Bool → Members → Option Members
  | [], _, _ => none
  | [name], mayHold, members =>
    if mayHold && (Keyed.find? name members).isNone then
      some (Keyed.insert name (.value j) members)
    else none
  | name :: path, _, members =>
    match Keyed.find? name members with
    | none => (assign j path true []).map fun ms => Keyed.insert name (.table .dotted ms) members
    | some (.table .dotted inner) =>
      (assign j path true inner).map fun ms => Keyed.insert name (.table .dotted ms) members
    | some (.table .implied inner) =>
      (assign j path false inner).map fun ms => Keyed.insert name (.table .implied ms) members
    | some (.tables earlier last) =>
      (assign j path false last).map fun ms => Keyed.insert name (.tables earlier ms) members
    | some _ => none

/-- Changes what stands under the parts of a header. Tables on the way are made as needed; in an
array of tables the way goes through the last one. -/
def atHeader (change : Option Node → Option Node) : List String → Members → Option Members
  | [], _ => none
  | [name], members =>
    (change (Keyed.find? name members)).map fun n => Keyed.insert name n members
  | name :: path, members =>
    match Keyed.find? name members with
    | none =>
      (atHeader change path []).map fun ms => Keyed.insert name (.table .implied ms) members
    | some (.table origin inner) =>
      (atHeader change path inner).map fun ms => Keyed.insert name (.table origin ms) members
    | some (.tables earlier last) =>
      (atHeader change path last).map fun ms => Keyed.insert name (.tables earlier ms) members
    | some (.value _) => none

def openTable : Option Node → Option Node
  | none => some (.table .header [])
  | some (.table .implied members) => some (.table .header members)
  | some _ => none

def openNext : Option Node → Option Node
  | none => some (.tables [] [])
  | some (.tables earlier last) => some (.tables (earlier ++ [last]) [])
  | some _ => none

def inTable (change : Members → Option Members) : Option Node → Option Node
  | some (.table origin members) => (change members).map (.table origin)
  | some (.tables earlier last) => (change last).map (.tables earlier)
  | _ => none

mutual

def Node.toJson : Node → Json
  | .value j => j
  | .table _ members => .obj (membersToJson members)
  | .tables earlier last => .arr (tablesToJson earlier ++ [.obj (membersToJson last)])

def membersToJson : Members → List (String × Json)
  | [] => []
  | (name, n) :: members => (name, n.toJson) :: membersToJson members

def tablesToJson : List Members → List Json
  | [] => []
  | ms :: rest => .obj (membersToJson ms) :: tablesToJson rest

end

end Changefeed.Toml
