import Changefeed.Text.Lowercase

/-!
# Comparison without regard to case

Two texts count as the same word if their folds are equal. A text is folded character by character:
each is replaced by its small form, and small letters that are variants of another one by that.
-/

namespace Changefeed.Fold

/-- The letter that a variant of a small letter is compared as. -/
def variant : Char → Char
  | 'ſ' => 's'
  | '\u0345' | '\u1FBE' => 'ι'
  | 'ς' => 'σ'
  | 'ϐ' => 'β'
  | 'ϑ' => 'θ'
  | 'ϕ' => 'φ'
  | 'ϖ' => 'π'
  | 'ϰ' => 'κ'
  | 'ϱ' => 'ρ'
  | 'ϵ' => 'ε'
  | 'ẛ' => 'ṡ'
  | '\u1C80' => 'в'
  | '\u1C81' => 'д'
  | '\u1C82' => 'о'
  | '\u1C83' => 'с'
  | '\u1C84' | '\u1C85' => 'т'
  | '\u1C86' => 'ъ'
  | '\u1C87' => 'ѣ'
  | '\u1C88' => 'ꙋ'
  | c => c

def ofChar (c : Char) : List Char := (Lowercase.ofChar c).map variant

def ofList (s : List Char) : List Char := s.flatMap ofChar

def fold (s : String) : String := String.ofList (ofList s.toList)

def same (s t : String) : Bool := fold s == fold t

theorem same_iff (s t : String) : same s t = true ↔ fold s = fold t := by simp [same]

def elem (word : String) (set : List String) : Bool := set.any (same · word)

end Changefeed.Fold
