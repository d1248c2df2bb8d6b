/-!
# Column types

A column names its type by a number of the database catalogue. Nineteen scalar types and ten types
of one-dimensional arrays have a decoding of their own; the text of every other type is kept.
-/

namespace Changefeed

/-- The number of a type in the database catalogue. -/
abbrev TypeId := UInt32

inductive Scalar
  | boolean
  | integer
  | float
  | numeric
  | json
  | zonedTime
  | localTime
  | date
  | uuid
  | text
deriving DecidableEq, Repr

namespace TypeId

def scalars : List (TypeId × Scalar) := [
  (16, .boolean),
  (18, .text),
  (19, .text),
  (20, .integer),
  (21, .integer),
  (23, .integer),
  (25, .text),
  (26, .integer),
  (114, .json),
  (700, .float),
  (701, .float),
  (1042, .text),
  (1043, .text),
  (1082, .date),
  (1114, .localTime),
  (1184, .zonedTime),
  (1700, .numeric),
  (2950, .uuid),
  (3802, .json)]

def arrays : List (TypeId × TypeId) := [
  (1000, 16),
  (1005, 21),
  (1007, 23),
  (1009, 25),
  (1015, 1043),
  (1016, 20),
  (1021, 700),
  (1022, 701),
  (1231, 1700),
  (2951, 2950)]

def element? (id : TypeId) : Option TypeId := arrays.lookup id

theorem mem_arrays {id element : TypeId} (h : element? id = some element) :
    (id, element) ∈ arrays := by
  obtain ⟨before, after, heq, -⟩ := List.lookup_eq_some_iff.1 h
  exact heq ▸ List.mem_append_right before List.mem_cons_self

/-- A type without a decoding of its own is treated as text. -/
def scalar (id : TypeId) : Scalar := (scalars.lookup id).getD .text

def isKnown (id : TypeId) : Bool := (scalars.lookup id).isSome || (element? id).isSome

theorem arrays_scalars :
    arrays.all (fun a => (scalars.lookup a.1).isNone && (scalars.lookup a.2).isSome) = true := by
  decide

end TypeId
end Changefeed
