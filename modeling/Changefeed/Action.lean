import Changefeed.Json.Record
import Changefeed.Text.Ascii
import Changefeed.Value

/-!
# Row changes

An action is one change of one row inside a transaction: the table, the kind of change, and the
values of the row before and after it. An insertion has no old columns and a deletion no new ones.
-/

namespace Changefeed

inductive ActionKind
  | insert
  | update
  | delete
  | truncate
deriving DecidableEq, Repr

namespace ActionKind

def name : ActionKind → String
  | .insert => "insert"
  | .update => "update"
  | .delete => "delete"
  | .truncate => "truncate"

def all : List ActionKind := [.insert, .update, .delete, .truncate]

def tag : ActionKind → String
  | .insert => "i"
  | .update => "u"
  | .delete => "d"
  | .truncate => "t"

def ofText? (s : String) : Option ActionKind :=
  let word := String.ofList (Ascii.lower s.toList)
  all.find? fun k => word == k.name || word == k.tag

def ofName? (s : String) : Option ActionKind := all.find? (·.name == s)

/-- Reads a kind, written as its name or as an object that holds nothing under its name. -/
def ofJson? : Json → Option ActionKind
  | .str s => ofName? s
  | .obj [(name, .null)] => ofName? name
  | _ => none

end ActionKind

structure Column where
  name : String
  value : Value
  isKey : Bool
deriving Repr, BEq

structure Action where
  schema : String
  table : String
  kind : ActionKind
  old : List Column
  new : List Column
deriving Repr

namespace Column

def toJson (c : Column) : Json :=
  .obj [("name", .str c.name), ("value", c.value.toJson), ("is_key", .bool c.isKey)]

def ofJson? (outer : Nat) (j : Json) : Option Column := do
  let [name, value, isKey] ← Json.fields? ["name", "value", "is_key"] j | none
  return {
    name := ← Json.required Json.text? name
    value := ← Json.required (Value.read? (outer + 1)) value
    isKey := ← Json.required Json.bool? isKey }

end Column

namespace Action

def toJson (a : Action) : Json :=
  .obj [
    ("schema", .str a.schema),
    ("table", .str a.table),
    ("kind", .str a.kind.name),
    ("old_columns", .arr (a.old.map Column.toJson)),
    ("new_columns", .arr (a.new.map Column.toJson))]

def ofJson? (j : Json) : Option Action := do
  let [schema, table, kind, old, new] ←
    Json.fields? ["schema", "table", "kind", "old_columns", "new_columns"] j | none
  return {
    schema := ← Json.required Json.text? schema
    table := ← Json.required Json.text? table
    kind := ← Json.required ActionKind.ofJson? kind
    old := ← Json.required (Json.list? (Column.ofJson? 2)) old
    new := ← Json.required (Json.list? (Column.ofJson? 2)) new }

end Action
end Changefeed
