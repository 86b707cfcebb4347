/-!
# White space

The characters that separate words on a command line: those with the White_Space property of the
Unicode standard, 25 code points in ten ranges. Splitting at them drops empty words, so leading,
trailing and repeated blanks never show.
-/

set_option autoImplicit false

namespace DemandPaging.Blank

/-- The ranges of code points with the White_Space property, both ends included, in order. -/
def ranges : List (Nat × Nat) :=
  [(0x9, 0xD), (0x20, 0x20), (0x85, 0x85), (0xA0, 0xA0), (0x1680, 0x1680), (0x2000, 0x200A),
   (0x2028, 0x2029), (0x202F, 0x202F), (0x205F, 0x205F), (0x3000, 0x3000)]

/-- Whether a character separates words. -/
def isBlank (c : Char) : Bool := ranges.any fun r => r.1 ≤ c.toNat && c.toNat ≤ r.2

/-- Put a character in front of the first word. -/
def consWord (c : Char) : List (List Char) → List (List Char)
  | [] => [[c]]
  | word :: rest => (c :: word) :: rest

/-- The pieces between blanks, empty ones included; there is always at least one. -/
def pieces : List Char → List (List Char)
  | [] => [[]]
  | c :: rest => if isBlank c then [] :: pieces rest else consWord c (pieces rest)

/-- The words of a text: its longest pieces without blanks, in order. -/
def words (text : List Char) : List (List Char) := (pieces text).filter (· ≠ [])

/-- The table holds every blank that the ASCII test of the core library knows. -/
theorem isBlank_of_isWhitespace (c : Char) (h : c.isWhitespace = true) : isBlank c = true := by
  simp only [Char.isWhitespace, Bool.or_eq_true, decide_eq_true_eq] at h
  rcases h with ((rfl | rfl) | rfl) | rfl <;> decide

example : (ranges.map fun r => r.2 + 1 - r.1).sum = 25 := by decide
example : words "  -ul=4\t-q  ".toList = ["-ul=4".toList, "-q".toList] := by decide

end DemandPaging.Blank
