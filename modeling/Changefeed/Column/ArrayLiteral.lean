import Changefeed.Text.Ascii

/-!
# Array literals

The text of a one-dimensional array: elements in braces with commas in between. An element in double
quotes may hold any character, the quote and the backslash after a backslash. An element without
quotes ends at a comma; braces and quotes are not allowed in it, and the word NULL in any case
stands for a missing element.

`read` gives the elements up to the first fault together with that fault, so that a fault in the
content of an earlier element can be reported first. `write` is the text that the database produces.
-/

namespace Changefeed

inductive ArrayFault
  | notLiteral (raw : String)
  | nested
  | unterminatedEscape
  | unterminatedQuote
  | unexpected (c : Char)
deriving DecidableEq, Repr

def ArrayFault.message : ArrayFault → String
  | .notLiteral raw => "not an array literal '" ++ raw ++ "'"
  | .nested => "multi-dimensional or malformed array"
  | .unterminatedEscape => "unterminated escape in array"
  | .unterminatedQuote => "unterminated quoted array element"
  | .unexpected c => "unexpected '" ++ String.singleton c ++ "' after array element"

namespace ArrayLiteral

/-- The content of an element, which is absent if the element is missing. -/
abbrev Element := Option (List Char)

def quoted : List Char → Except ArrayFault (List Char × List Char)
  | [] => .error .unterminatedQuote
  | '"' :: s => .ok ([], s)
  | ['\\'] => .error .unterminatedEscape
  | '\\' :: c :: s => (quoted s).map fun (cs, rest) => (c :: cs, rest)
  | c :: s => (quoted s).map fun (cs, rest) => (c :: cs, rest)

def isStructural (c : Char) : Bool := c == '{' || c == '}' || c == '"'

def bare : List Char → Except ArrayFault (List Char × List Char)
  | [] => .ok ([], [])
  | c :: s =>
    if c = ',' then .ok ([], c :: s)
    else if isStructural c then .error .nested
    else (bare s).map fun (cs, rest) => (c :: cs, rest)

def isNull (s : List Char) : Bool := Ascii.sameWord s "NULL".toList

def element : List Char → Except ArrayFault (Element × List Char)
  | '"' :: s => (quoted s).map fun (cs, rest) => (some cs, rest)
  | s => (bare s).map fun (cs, rest) => (if isNull cs then none else some cs, rest)

theorem map_eq_ok {ε α β : Type} {f : α → β} {x : Except ε α} {y : β} (h : x.map f = .ok y) :
    ∃ a, x = .ok a ∧ f a = y := by
  cases x with
  | error e => cases h
  | ok a => exact ⟨a, rfl, Except.ok.inj h⟩

theorem quoted_length {s cs rest : List Char} (h : quoted s = .ok (cs, rest)) :
    rest.length < s.length := by
  fun_induction quoted s generalizing cs rest with
  | case1 => cases h
  | case2 s => cases h; simp
  | case3 => cases h
  | case4 c s ih =>
    obtain ⟨⟨ds, r⟩, hq, he⟩ := map_eq_ok h
    cases he
    have := ih hq
    simp only [List.length_cons]; omega
  | case5 c s _ _ _ ih =>
    obtain ⟨⟨ds, r⟩, hq, he⟩ := map_eq_ok h
    cases he
    have := ih hq
    simp only [List.length_cons]; omega

theorem bare_length {s cs rest : List Char} (h : bare s = .ok (cs, rest)) :
    rest.length ≤ s.length := by
  fun_induction bare s generalizing cs rest with
  | case1 => cases h; simp
  | case2 s => cases h; simp
  | case3 => cases h
  | case4 c s _ _ ih =>
    obtain ⟨⟨ds, r⟩, hq, he⟩ := map_eq_ok h
    cases he
    have := ih hq
    simp only [List.length_cons]; omega

theorem element_length {s : List Char} {e : Element} {rest : List Char}
    (h : element s = .ok (e, rest)) : rest.length ≤ s.length := by
  unfold element at h
  split at h
  next =>
    obtain ⟨⟨ds, r⟩, hq, he⟩ := map_eq_ok h
    cases he
    have := quoted_length hq
    simp only [List.length_cons]; omega
  next =>
    obtain ⟨⟨ds, r⟩, hq, he⟩ := map_eq_ok h
    cases he
    exact bare_length hq

def elements (s : List Char) : List Element × Option ArrayFault :=
  match _h : element s with
  | .error f => ([], some f)
  | .ok (e, []) => ([e], none)
  | .ok (e, c :: rest) =>
    if c = ',' then
      let (es, f) := elements rest
      (e :: es, f)
    else ([e], some (.unexpected c))
termination_by s.length
decreasing_by
  have := element_length ‹_›
  simp only [List.length_cons] at this
  omega

def unbrace? : List Char → Option (List Char)
  | '{' :: s => if s.getLast? = some '}' then some s.dropLast else none
  | _ => none

def read (raw : String) : List Element × Option ArrayFault :=
  match unbrace? raw.toList with
  | none => ([], some (.notLiteral raw))
  | some [] => ([], none)
  | some s => elements s

/-- The white space that makes the database quote an element. -/
def isSpace (c : Char) : Bool :=
  c == ' ' || c == '\t' || c == '\n' || c == '\r' || c == '\x0b' || c == '\x0c'

def needsQuotes (s : List Char) : Bool :=
  s.isEmpty || isNull s ||
    s.any fun c => isStructural c || c == ',' || c == '\\' || isSpace c

def escape (c : Char) : List Char := if c = '"' ∨ c = '\\' then ['\\', c] else [c]

def writeElement : Element → List Char
  | none => "NULL".toList
  | some s => if needsQuotes s then '"' :: s.flatMap escape ++ ['"'] else s

def writeElements : List Element → List Char
  | [] => []
  | [e] => writeElement e
  | e :: es => writeElement e ++ ',' :: writeElements es

def write (es : List Element) : List Char := '{' :: writeElements es ++ ['}']

end ArrayLiteral
end Changefeed
