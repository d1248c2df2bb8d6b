import Changefeed.Json.Printer
import Changefeed.Keyed

/-!
# Column values

A value is what a column holds after decoding. It is read from a JSON document in two ways, by the
form of the document (`ofJson?`) and by trying one kind of value after the other (`choose?`); it is
written directly (`write`) or as a document (`toJson`). Numbers that JSON cannot express become
null in either writing.
-/

namespace Changefeed

/-- The members of an object are kept in the order of their names, without repetition. -/
inductive Value
  | null
  | bool (b : Bool)
  | int (i : Int64)
  | float (x : Double)
  | str (s : String)
  | arr (items : List Value)
  | obj (members : List (String × Value))
deriving Repr, BEq, Inhabited

abbrev Row := List (String × Value)

namespace Value

def asInt? : Value → Option Int64
  | .int i => some i
  | _ => none

def ofNumber? (n : Json.Number) : Option Value :=
  match n.toInt? with
  | some i => some (.int i)
  | none => n.toDouble?.map .float

mutual

/-- The value that a document denotes. Of members with one name the last one counts. -/
def ofJson? : Json → Option Value
  | .null => some .null
  | .bool b => some (.bool b)
  | .num n => ofNumber? n
  | .str s => some (.str s)
  | .arr items => (ofItems? items).map .arr
  | .obj members => (ofMembers? members).map fun ms => .obj (Keyed.ofList ms)
  | .unpaired => none

def ofItems? : List Json → Option (List Value)
  | [] => some []
  | x :: xs => do return (← ofJson? x) :: (← ofItems? xs)

def ofMembers? : List (String × Json) → Option (List (String × Value))
  | [] => some []
  | (k, x) :: xs => do return (k, ← ofJson? x) :: (← ofMembers? xs)

end

def null? : Json → Option Value
  | .null => some .null
  | _ => none

def bool? : Json → Option Value
  | .bool b => some (.bool b)
  | _ => none

def int? : Json → Option Value
  | .num n => n.toInt?.map .int
  | _ => none

def float? : Json → Option Value
  | .num n => n.toDouble?.map .float
  | _ => none

def str? : Json → Option Value
  | .str s => some (.str s)
  | _ => none

def first? (j : Json) (withParts : Option Value) : Option Value :=
  (null? j).or ((bool? j).or ((int? j).or ((float? j).or ((str? j).or withParts))))

mutual

def choose? : Json → Option Value
  | .arr items => first? (.arr items) ((chooseItems? items).map .arr)
  | .obj members =>
    first? (.obj members) ((chooseMembers? members).map fun ms => .obj (Keyed.ofList ms))
  | j => first? j none

def chooseItems? : List Json → Option (List Value)
  | [] => some []
  | x :: xs => do return (← choose? x) :: (← chooseItems? xs)

def chooseMembers? : List (String × Json) → Option (List (String × Value))
  | [] => some []
  | (k, x) :: xs => do return (k, ← choose? x) :: (← chooseMembers? xs)

end

/-- Reads the value of a part that is nested in `outer` arrays and objects of a document. -/
def read? (outer : Nat) (j : Json) : Option Value :=
  if outer + j.depth ≤ Json.depthLimit then choose? j else none

def readRow? (outer : Nat) (j : Json) : Option Row :=
  match read? outer j with
  | some (.obj members) => some members
  | _ => none

def floatJson (x : Double) : Json := if x.isFinite then .num (.double x) else .null

mutual

def toJson : Value → Json
  | .null => .null
  | .bool b => .bool b
  | .int i => .num (.whole (i.toInt < 0) i.toInt.natAbs)
  | .float x => floatJson x
  | .str s => .str s
  | .arr items => .arr (itemsToJson items)
  | .obj members => .obj (membersToJson members)

def itemsToJson : List Value → List Json
  | [] => []
  | x :: xs => x.toJson :: itemsToJson xs

def membersToJson : List (String × Value) → List (String × Json)
  | [] => []
  | (k, x) :: xs => (k, x.toJson) :: membersToJson xs

end

def writeFloat (x : Double) : List Char :=
  if x.isFinite then x.write Json.numberStyle else "null".toList

mutual

def write : Value → List Char
  | .null => "null".toList
  | .bool b => (if b then "true" else "false").toList
  | .int i => Integer.write i
  | .float x => writeFloat x
  | .str s => Json.writeString s
  | .arr items => '[' :: Json.commas (writeItems items) ++ [']']
  | .obj members => '{' :: Json.commas (writeMembers members) ++ ['}']

def writeItems : List Value → List (List Char)
  | [] => []
  | x :: xs => x.write :: writeItems xs

def writeMembers : List (String × Value) → List (List Char)
  | [] => []
  | (k, x) :: xs => (Json.writeString k ++ ':' :: x.write) :: writeMembers xs

end

def text (v : Value) : String := String.ofList v.write

/-- Numbers in a rendered value are always positional, and whole numbers have no fraction. -/
def plainStyle : Double.Style := ⟨none, false, .upward⟩

/-- The bare text of a scalar, and the JSON text of an array or an object. Column filters compare
this text. -/
def render : Value → String
  | .null => "null"
  | .bool b => if b then "true" else "false"
  | .int i => String.ofList (Integer.write i)
  | .float x => String.ofList (x.write plainStyle)
  | .str s => s
  | v => v.toJson.text

end Value
end Changefeed
