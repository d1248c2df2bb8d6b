import Changefeed.Column.Decode
import Changefeed.Relation
import Changefeed.Stream

/-!
# Replication sessions

A session knows the registered relations, which last as long as it does, and the transaction that is
being assembled: its number, its log position, its times and its row changes, which `clear` resets.
Opening a stream moves the buffered row changes into it. Without a commit time there is nothing to
stamp the events with, so no stream can be opened and the row changes stay.
-/

namespace Changefeed

abbrev TransactionId := UInt32

abbrev LogPosition := UInt64

inductive SessionError
  | relationNotFound (id : RelationId)
  | missingCommitTime
  | unknownActionKind (s : String)
deriving DecidableEq, Repr

def SessionError.message : SessionError → String
  | .relationNotFound id => "relation not found: " ++ String.ofList (Digits.ofNat id.toNat)
  | .missingCommitTime => "commit time is not set for the current transaction"
  | .unknownActionKind s => "unknown action kind: " ++ s

def ActionKind.read (s : String) : Except SessionError ActionKind :=
  match ofText? s with
  | some kind => .ok kind
  | none => .error (.unknownActionKind s)

structure Session where
  resources : Resources
  relations : RelationCache
  xid : Option TransactionId
  position : Option LogPosition
  beginTime : Option Timestamp
  commitTime : Option Timestamp
  /-- The buffered row changes, the earliest first. -/
  actions : List Action
deriving Repr

/-- The columns of a row whose values were sent. Cells and columns are paired by position; cells
beyond the last column are ignored. -/
def Relation.decodeRow (r : Relation) (cells : List Cell) : List Column :=
  (cells.zip r.columns).filterMap fun (cell, column) =>
    (cell.decode? column.typeId).map fun value => ⟨column.name, value, column.isKey⟩

namespace Session

def new (resources : Resources) : Session :=
  ⟨resources, .empty, none, none, none, none, []⟩

def register (s : Session) (id : RelationId) (r : Relation) : Session :=
  { s with relations := s.relations.update id r }

def begin (s : Session) (xid : TransactionId) (position : LogPosition) (time : Timestamp) :
    Session :=
  { s with xid := some xid, position := some position, beginTime := some time }

def commit (s : Session) (position : LogPosition) (time : Timestamp) : Session :=
  { s with position := some position, commitTime := some time }

def createAction (s : Session) (id : RelationId) (kind : ActionKind) (old new : List Cell) :
    Except SessionError Action :=
  match s.relations.get? id with
  | none => .error (.relationNotFound id)
  | some r => .ok ⟨r.schema, r.table, kind, r.decodeRow old, r.decodeRow new⟩

def push (s : Session) (a : Action) : Session := { s with actions := s.actions ++ [a] }

def clear (s : Session) : Session :=
  { s with xid := none, position := none, beginTime := none, commitTime := none, actions := [] }

def openStream (s : Session) (filter : Filter) (cancelled : Bool) :
    Except SessionError (Stream × Session) :=
  match s.commitTime with
  | none => .error .missingCommitTime
  | some time => .ok (.start filter time s.actions cancelled, { s with actions := [] })

end Session
end Changefeed
