import Changefeed.Action
import Changefeed.Calendar.Printer
import Changefeed.Calendar.Reader
import Changefeed.Json.Reader
import Changefeed.Uuid

/-!
# Change events

An event is what is handed to publishers: one row change with the row before and after it, stamped
with the commit time of its transaction. Its payload is a JSON object with the fields in a fixed
order; the rows in it are ordered by column name. `Event.ofPayload?` reads payloads back.
-/

namespace Changefeed

structure Event where
  id : Uuid
  schema : String
  table : String
  action : String
  data : Row
  dataOld : Row
  time : Timestamp
deriving Repr, BEq

namespace Event

def blank : Event := ⟨.nil, "", "", "", [], [], .epoch⟩

instance : Inhabited Event := ⟨blank⟩

/-- Puts the columns into a row by position, so that of two columns with one name the later stays.
-/
def addColumns (row : Row) (columns : List Column) : Row :=
  columns.foldl (fun row c => Keyed.insert c.name c.value row) row

def fill (e : Event) (id : Uuid) (a : Action) (time : Timestamp) : Event where
  id := id
  schema := a.schema
  table := a.table
  action := e.action ++ a.kind.name
  data := addColumns e.data a.new
  dataOld := addColumns e.dataOld a.old
  time := time

def fieldNames : List String :=
  ["id", "schema", "table", "action", "data", "dataOld", "eventTime"]

def fieldTexts (e : Event) : List (List Char) :=
  [Json.writeString e.id.text, Json.writeString e.schema, Json.writeString e.table,
    Json.writeString e.action, (Value.obj e.data).write, (Value.obj e.dataOld).write,
    Json.writeString e.time.instantText]

def writePayload (e : Event) : List Char :=
  '{' :: Json.commas (List.zipWith (fun name text => Json.writeString name ++ ':' :: text)
    fieldNames e.fieldTexts) ++ ['}']

def payload (e : Event) : String := String.ofList e.writePayload

def id? (j : Json) : Option Uuid := do Uuid.read? (← Json.text? j).toList

def time? (j : Json) : Option Timestamp := do Calendar.readInstant? (← Json.text? j).toList

def ofJson? (j : Json) : Option Event := do
  let [id, schema, table, action, data, dataOld, time] ← Json.fields? fieldNames j | none
  return {
    id := ← Json.required id? id
    schema := ← Json.required Json.text? schema
    table := ← Json.required Json.text? table
    action := ← Json.required Json.text? action
    data := ← Json.required (Value.readRow? 1) data
    dataOld := ← Json.required (Value.readRow? 1) dataOld
    time := ← Json.required time? time }

def ofPayload? (s : String) : Option Event := Json.ofText? s >>= ofJson?

end Event
end Changefeed
