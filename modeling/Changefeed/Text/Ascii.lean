/-!
# Comparison of ASCII words

Keywords of several formats are recognised in any mix of upper and lower case. Only the 52 ASCII
letters take part in this; every other character stands for itself.
-/

namespace Changefeed.Ascii

def lower (s : List Char) : List Char := s.map Char.toLower

def sameWord (s t : List Char) : Bool := lower s == lower t

theorem sameWord_iff (s t : List Char) : sameWord s t = true ↔ lower s = lower t := by
  simp [sameWord]

def dropWord? (word s : List Char) : Option (List Char) :=
  if sameWord (s.take word.length) word then some (s.drop word.length) else none

end Changefeed.Ascii
