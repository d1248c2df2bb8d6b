import Changefeed.Json.Reader
import Changefeed.Relation
import Changefeed.Calendar.Reader
import Changefeed.Value

/-!
# Recorded sessions

A recording holds the relations of a session and its transactions, each with its row changes, as a
JSON document. A cell of a row is null, a text, bytes in hexadecimal, or marked as unchanged.
Whether kinds, digits and marks make sense is not decided here but when the recording is replayed.
-/

namespace Changefeed

inductive RecordedCell
  | null
  | text (raw : String)
  | binary (digits : String)
  | unchanged (mark : Bool)
deriving DecidableEq, Repr

structure RecordedAction where
  relation : RelationId
  kind : String
  old : List RecordedCell
  new : List RecordedCell
deriving DecidableEq, Repr

structure RecordedTransaction where
  xid : Option UInt32
  position : Option UInt64
  beginTime : Option Timestamp
  commitTime : Option Timestamp
  actions : List RecordedAction
deriving Repr

structure Recording where
  relations : List (RelationId × Relation)
  transactions : List RecordedTransaction
deriving Repr

def word32? (j : Json) : Option UInt32 := (Json.natBelow? UInt32.size j).map UInt32.ofNat

def word64? (j : Json) : Option UInt64 := (Json.natBelow? UInt64.size j).map UInt64.ofNat

namespace RecordedCell

def member? (name : String) (members : List (String × Json)) : Option Json :=
  match Json.membersNamed name members with
  | [j] => some j
  | _ => none

def ofMembers? (members : List (String × Json)) : Option RecordedCell :=
  ((member? "binary" members >>= Json.text?).map .binary).or
    ((member? "unchanged" members >>= Json.bool?).map .unchanged)

/-- The number of documents in which a cell is nested. -/
def outer : Nat := 6

/-- Everything in the document of a cell has to be readable, also what does not matter. -/
def ofJson? (j : Json) : Option RecordedCell :=
  match j with
  | .null => some .null
  | .str s => some (.text s)
  | .obj members => do
    let _ ← Value.read? outer j
    ofMembers? members
  | _ => none

def toJson : RecordedCell → Json
  | .null => .null
  | .text s => .str s
  | .binary digits => .obj [("binary", .str digits)]
  | .unchanged mark => .obj [("unchanged", .bool mark)]

end RecordedCell

namespace RecordedAction

def cells? : Json → Option (List RecordedCell) := Json.list? RecordedCell.ofJson?

def ofJson? (j : Json) : Option RecordedAction := do
  let [relation, kind, old, new] ← Json.fields? ["relation_id", "kind", "old", "new"] j | none
  return {
    relation := ← Json.required word32? relation
    kind := ← Json.required Json.text? kind
    old := ← Json.withDefault [] cells? old
    new := ← Json.withDefault [] cells? new }

end RecordedAction

namespace RecordedTransaction

def time? (j : Json) : Option Timestamp := do Calendar.readInstant? (← Json.text? j).toList

def ofJson? (j : Json) : Option RecordedTransaction := do
  let [xid, position, beginTime, commitTime, actions] ←
    Json.fields? ["xid", "lsn", "begin_time", "commit_time", "actions"] j | none
  return {
    xid := ← Json.withDefault none (Json.nullable word32?) xid
    position := ← Json.withDefault none (Json.nullable word64?) position
    beginTime := ← Json.withDefault none (Json.nullable time?) beginTime
    commitTime := ← Json.withDefault none (Json.nullable time?) commitTime
    actions := ← Json.required (Json.list? RecordedAction.ofJson?) actions }

end RecordedTransaction

namespace Recording

def relation? (j : Json) : Option (RelationId × Relation) := do
  let [id, schema, table, columns] ← Json.fields? ["id", "schema", "table", "columns"] j | none
  let id ← Json.required word32? id
  return (id, {
    schema := ← Json.required Json.text? schema
    table := ← Json.required Json.text? table
    columns := ← Json.required (Json.list? RelationColumn.ofJson?) columns })

def ofJson? (j : Json) : Option Recording := do
  let [relations, transactions] ← Json.fields? ["relations", "transactions"] j | none
  return {
    relations := ← Json.withDefault [] (Json.list? relation?) relations
    transactions := ← Json.required (Json.list? RecordedTransaction.ofJson?) transactions }

def ofText? (s : String) : Option Recording := Json.ofText? s >>= ofJson?

end Recording
end Changefeed
