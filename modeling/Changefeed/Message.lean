import Changefeed.Event

/-!
# Messages and topics

An event is published as a message: its payload under the topic of its table. The topic is made of
a base topic, a common beginning, and a name for the table, which a map can replace.
-/

namespace Changefeed

structure Message where
  topic : String
  /-- Without a partition the broker chooses one. -/
  partition : Option Int32
  payload : String
deriving DecidableEq, Repr

namespace Message

def ofEvent (topic : String) (e : Event) : Message := ⟨topic, none, e.payload⟩

end Message

structure Router where
  topic : String
  topicPrefix : String
  /-- Names of tables in topics, under the schema and the table with an underscore in between. -/
  names : List (String × String)
deriving Repr

namespace Router

def tableName (schema table : String) : String := schema ++ "_" ++ table

def topicFor (r : Router) (e : Event) : String :=
  let table := tableName e.schema e.table
  r.topic ++ "." ++ r.topicPrefix ++ (Keyed.find? table r.names).getD table

def message (r : Router) (e : Event) : Message := .ofEvent (r.topicFor e) e

end Router
end Changefeed
