import Changefeed.Calendar.Printer
import Changefeed.Calendar.Reader
import Changefeed.Column.ArrayLiteral
import Changefeed.Column.TypeId
import Changefeed.Json.Reader
import Changefeed.Text.Hex
import Changefeed.Uuid
import Changefeed.Value

/-!
# Decoding of column values

The replication stream delivers a cell as null, as text, as bytes, or not at all if its value did
not change. `parse` reads text as a value of the column's type and says why it cannot be read;
`Cell.decode?` never fails, because text that cannot be read is kept as it is.
-/

namespace Changefeed

/-- Why a text is not a value of its type. The readers of documents, identifiers, dates and times do
not say more than that the text is malformed. -/
inductive DecodeFault
  | boolean (raw : String)
  | integer (fault : IntegerFault)
  | float (fault : DoubleFault)
  | array (fault : ArrayFault)
  | malformed (type : Scalar)
deriving DecidableEq, Repr

def DecodeFault.message? : DecodeFault → Option String
  | .boolean raw => some ("invalid boolean literal '" ++ raw ++ "'")
  | .integer f => some f.message
  | .float f => some f.message
  | .array f => some f.message
  | .malformed _ => none

namespace Column

def isInfinity (raw : String) : Bool := raw == "infinity" || raw == "-infinity"

/-- The words for infinity are kept; other texts are read and written in the normal form. -/
def parseTime {α : Type} (type : Scalar) (read : List Char → Option α) (write : α → List Char)
    (raw : String) : Except DecodeFault Value :=
  if isInfinity raw then .ok (.str raw)
  else match read raw.toList with
    | some t => .ok (.str (String.ofList (write t)))
    | none => .error (.malformed type)

/-- JSON has no number that is not finite, so the text of such a number is kept. -/
def finiteOr (raw : String) (x : Double) : Value := if x.isFinite then .float x else .str raw

def parseBoolean (raw : String) : Except DecodeFault Value :=
  if raw = "t" ∨ raw = "true" then .ok (.bool true)
  else if raw = "f" ∨ raw = "false" then .ok (.bool false)
  else .error (.boolean raw)

def parseInteger (raw : String) : Except DecodeFault Value :=
  match Integer.read raw.toList with
  | .ok i => .ok (.int i)
  | .error f => .error (.integer f)

def parseFloat (raw : String) : Except DecodeFault Value :=
  match Double.read raw.toList with
  | .ok x => .ok (finiteOr raw x)
  | .error f => .error (.float f)

def parseNumeric (raw : String) : Value :=
  match Double.read raw.toList with
  | .ok x => finiteOr raw x
  | .error _ => .str raw

def parseJson? (raw : String) : Option Value := do
  let j ← Json.ofText? raw
  guard (j.depth ≤ Json.depthLimit)
  Value.ofJson? j

def parseScalar (type : Scalar) (raw : String) : Except DecodeFault Value :=
  match type with
  | .boolean => parseBoolean raw
  | .integer => parseInteger raw
  | .float => parseFloat raw
  | .numeric => .ok (parseNumeric raw)
  | .json => (parseJson? raw).elim (.error (.malformed .json)) .ok
  | .zonedTime => parseTime .zonedTime Calendar.readZoned? Timestamp.writeInstant raw
  | .localTime => parseTime .localTime Calendar.readLocal? Timestamp.writeLocal raw
  | .date => parseTime .date Calendar.readDate? Date.write raw
  | .uuid => (Uuid.read? raw.toList).elim (.error (.malformed .uuid)) fun u => .ok (.str u.text)
  | .text => .ok (.str raw)

def parseElement (type : Scalar) : ArrayLiteral.Element → Except DecodeFault Value
  | none => .ok .null
  | some s => parseScalar type (String.ofList s)

/-- Of two faults the one that is met first from left to right is reported. -/
def parseArray (type : Scalar) (raw : String) : Except DecodeFault Value := do
  let (es, fault) := ArrayLiteral.read raw
  let items ← es.mapM (parseElement type)
  match fault with
  | none => return .arr items
  | some f => throw (.array f)

def parse (id : TypeId) (raw : String) : Except DecodeFault Value :=
  match id.element? with
  | some element => parseArray element.scalar raw
  | none => parseScalar id.scalar raw

end Column

inductive Cell
  | null
  /-- The value is stored out of line and did not change, so it was not sent. -/
  | unchanged
  | text (raw : String)
  | binary (bytes : List UInt8)
deriving DecidableEq, Repr

namespace Cell

def binaryText (bytes : List UInt8) : String := String.ofList ('\\' :: 'x' :: Hex.encode bytes)

def decode? (id : TypeId) : Cell → Option Value
  | .null => some .null
  | .unchanged => none
  | .binary bytes => some (.str (binaryText bytes))
  | .text raw =>
    match Column.parse id raw with
    | .ok v => some v
    | .error _ => some (.str raw)

end Cell
end Changefeed
