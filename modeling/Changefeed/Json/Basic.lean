import Changefeed.Double.Literal
import Changefeed.Double.Text
import Changefeed.Text.Integer

/-!
# JSON documents

A document keeps the members of its objects in the order in which they are written, repeated names
included, and its integers whatever their size. Which of two members with one name counts, and
whether a number is out of range, is decided by whoever reads the document.
-/

namespace Changefeed

namespace Json

/-- An integer, or what a literal with a fraction or an exponent is read as, infinite if it is out
of range. -/
inductive Number
  | whole (negative : Bool) (magnitude : Nat)
  | double (x : Double)
deriving DecidableEq, Repr

end Json

inductive Json
  | null
  | bool (b : Bool)
  | num (n : Json.Number)
  | str (s : String)
  | arr (items : List Json)
  | obj (members : List (String × Json))
  /-- A string with an escaped surrogate that has no partner, or an object with such a name. It is
  well-formed but denotes no text. -/
  | unpaired
deriving Repr, BEq, Inhabited

namespace Json

mutual

def depth : Json → Nat
  | .arr items => 1 + depthItems items
  | .obj members => 1 + depthMembers members
  | _ => 0

def depthItems : List Json → Nat
  | [] => 0
  | x :: xs => max x.depth (depthItems xs)

def depthMembers : List (String × Json) → Nat
  | [] => 0
  | (_, x) :: xs => max x.depth (depthMembers xs)

end

def depthLimit : Nat := 127

namespace Number

def decimal (d : Decimal) : Number := .double (Double.ofDecimal d)

/-- A negative zero is not an integer. -/
def toInt? : Number → Option Int64
  | .whole false n => Integer.ofInt? n
  | .whole true n => if n = 0 then none else Integer.ofInt? (-n)
  | .double _ => none

def toDouble? (n : Number) : Option Double :=
  let x := match n with
    | .whole negative n => Double.ofLiteral negative (Digits.ofNat n) [] 0
    | .double x => x
  if x.isFinite then some x else none

end Number
end Json
end Changefeed
