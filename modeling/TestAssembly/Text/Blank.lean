/-!
# Blank characters

The characters with the Unicode property `White_Space`. A text is blank when it has no other
character; leading blanks can be cut off.
-/

namespace TestAssembly.Text

/-- The ranges of code points with the property `White_Space`, ascending, ends included. -/
def blankRanges : List (Nat × Nat) :=
  [(0x09, 0x0D), (0x20, 0x20), (0x85, 0x85), (0xA0, 0xA0), (0x1680, 0x1680), (0x2000, 0x200A),
    (0x2028, 0x2029), (0x202F, 0x202F), (0x205F, 0x205F), (0x3000, 0x3000)]

/-- **Blank character:** one with the property `White_Space`. -/
def isBlank (c : Char) : Bool :=
  blankRanges.any fun r => r.1 ≤ c.toNat && c.toNat ≤ r.2

/-- A text without any character other than blanks. -/
def allBlank (s : String) : Bool := s.toList.all isBlank

/-- The text from its first character that is not blank. -/
def skipBlanks (cs : List Char) : List Char := cs.dropWhile isBlank

/-- Every character of the core library's class of white space is blank. -/
theorem isBlank_of_isWhitespace {c : Char} (h : c.isWhitespace = true) : isBlank c = true := by
  simp only [Char.isWhitespace, Bool.or_eq_true, decide_eq_true_eq] at h
  rcases h with ((h | h) | h) | h <;> subst h <;> decide

theorem skipBlanks_nil : skipBlanks [] = [] := rfl

/-- What follows the leading blanks does not start with a blank. -/
theorem skipBlanks_eq_self {c : Char} {cs : List Char} (h : isBlank c = false) :
    skipBlanks (c :: cs) = c :: cs := by
  simp [skipBlanks, h]

end TestAssembly.Text
