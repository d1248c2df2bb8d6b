import Changefeed.Column.TypeId
import Changefeed.Json.Record
import Changefeed.Text.Integer

/-!
# Relations

A relation names a table and its columns in the order in which the stream delivers them. Row changes
refer to a relation by its number, under which it has been registered.
-/

namespace Changefeed

structure RelationColumn where
  name : String
  typeId : TypeId
  typeModifier : Int32
  isKey : Bool
deriving DecidableEq, Repr

structure Relation where
  schema : String
  table : String
  columns : List RelationColumn
deriving DecidableEq, Repr

abbrev RelationId := UInt32

namespace RelationColumn

def typeId? (j : Json) : Option TypeId := (Json.natBelow? UInt32.size j).map UInt32.ofNat

def typeModifier? (j : Json) : Option Int32 := do
  let .num n := j | none
  let i := (← n.toInt?).toInt
  if Int32.minValue.toInt ≤ i ∧ i ≤ Int32.maxValue.toInt then some (Int32.ofInt i) else none

/-- Without a type modifier it is -1, and without a key mark the column is no key. -/
def ofJson? (j : Json) : Option RelationColumn := do
  let [name, typeId, typeModifier, isKey] ←
    Json.fields? ["name", "type_oid", "type_modifier", "is_key"] j | none
  return {
    name := ← Json.required Json.text? name
    typeId := ← Json.required typeId? typeId
    typeModifier := ← Json.withDefault (-1) typeModifier? typeModifier
    isKey := ← Json.withDefault false Json.bool? isKey }

def toJson (c : RelationColumn) : Json :=
  .obj [
    ("name", .str c.name),
    ("type_oid", .num (.whole false c.typeId.toNat)),
    ("type_modifier", .num (.whole (c.typeModifier.toInt < 0) c.typeModifier.toInt.natAbs)),
    ("is_key", .bool c.isKey)]

end RelationColumn

namespace Relation

def ofJson? (j : Json) : Option Relation := do
  let [schema, table, columns] ← Json.fields? ["schema", "table", "columns"] j | none
  return {
    schema := ← Json.required Json.text? schema
    table := ← Json.required Json.text? table
    columns := ← Json.required (Json.list? RelationColumn.ofJson?) columns }

def toJson (r : Relation) : Json :=
  .obj [
    ("schema", .str r.schema),
    ("table", .str r.table),
    ("columns", .arr (r.columns.map RelationColumn.toJson))]

end Relation

/-- The registered relations, each number once. -/
structure RelationCache where
  entries : List (RelationId × Relation)
deriving Repr

namespace RelationCache

def empty : RelationCache := ⟨[]⟩

def get? (c : RelationCache) (id : RelationId) : Option Relation := c.entries.lookup id

def remove (c : RelationCache) (id : RelationId) : RelationCache :=
  ⟨c.entries.filter (·.1 != id)⟩

def update (c : RelationCache) (id : RelationId) (r : Relation) : RelationCache :=
  ⟨(id, r) :: (c.remove id).entries⟩

def size (c : RelationCache) : Nat := c.entries.length

theorem get?_update_self (c : RelationCache) (id : RelationId) (r : Relation) :
    (c.update id r).get? id = some r := by
  simp [get?, update]

end RelationCache
end Changefeed
