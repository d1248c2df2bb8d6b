/-!
# References to variables

In a text, `$` and a name in braces refers to a variable. The first such opening and the next
closing brace after it delimit a name, whatever is in between; the search goes on after the closing
brace, so that inserted values are not searched. An opening without a closing brace after it stands
for itself.
-/

namespace Changefeed

namespace Reference

structure Split where
  before : List Char
  name : List Char
  after : List Char

def splitClose? : List Char → Option (List Char × List Char)
  | [] => none
  | '\x7d' :: s => some ([], s)
  | c :: s => (splitClose? s).map fun (name, rest) => (c :: name, rest)

def first? : List Char → Option Split
  | [] => none
  | '$' :: '\x7b' :: s => (splitClose? s).map fun (name, rest) => ⟨[], name, rest⟩
  | c :: s => (first? s).map fun r => { r with before := c :: r.before }

theorem eq_append_of_splitClose? {s name rest : List Char}
    (h : splitClose? s = some (name, rest)) : s = name ++ '\x7d' :: rest := by
  fun_induction splitClose? s generalizing name rest with
  | case1 => cases h
  | case2 s => obtain ⟨rfl, rfl⟩ := Prod.mk.inj (Option.some.inj h); rfl
  | case3 c s _ ih =>
    obtain ⟨⟨n, r⟩, hr, he⟩ := Option.map_eq_some_iff.1 h
    obtain ⟨rfl, rfl⟩ := Prod.mk.inj he
    simp [ih hr]

theorem eq_append_of_first? {s : List Char} {r : Split} (h : first? s = some r) :
    s = r.before ++ '$' :: '\x7b' :: r.name ++ '\x7d' :: r.after := by
  fun_induction first? s generalizing r with
  | case1 => cases h
  | case2 s =>
    obtain ⟨⟨n, t⟩, hr, rfl⟩ := Option.map_eq_some_iff.1 h
    simp [eq_append_of_splitClose? hr]
  | case3 c s _ ih =>
    obtain ⟨t, hr, rfl⟩ := Option.map_eq_some_iff.1 h
    simp [ih hr]

theorem length_after_lt {s : List Char} {r : Split} (h : first? s = some r) :
    r.after.length < s.length := by
  rw [eq_append_of_first? h]
  simp
  omega

/-- Replaces the references of a text by the values of their variables. Fails with the name of the
first variable that is not set. -/
def resolve (lookup : String → Option String) (s : List Char) : Except String (List Char) :=
  match _h : first? s with
  | none => .ok s
  | some r =>
    match lookup (String.ofList r.name) with
    | none => .error (String.ofList r.name)
    | some value => (resolve lookup r.after).map fun t => r.before ++ value.toList ++ t
termination_by s.length
decreasing_by exact length_after_lt (by assumption)

end Reference
end Changefeed
