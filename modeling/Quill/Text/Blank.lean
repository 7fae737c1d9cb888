/-!
# Blank characters

The characters with the Unicode property White_Space. They separate tokens and mean nothing else.
-/

namespace Quill

/-- The ranges of the property White_Space, first and last code point of each. -/
def blankRanges : List (Nat × Nat) :=
  [(0x9, 0xd), (0x20, 0x20), (0x85, 0x85), (0xa0, 0xa0), (0x1680, 0x1680), (0x2000, 0x200a),
    (0x2028, 0x2029), (0x202f, 0x202f), (0x205f, 0x205f), (0x3000, 0x3000)]

/-- Whether `c` lies in one of the ranges. -/
def inRanges (ranges : List (Nat × Nat)) (c : Char) : Bool :=
  ranges.any fun r => r.1 ≤ c.toNat && c.toNat ≤ r.2

/-- Whether a character is white space. -/
def isBlank (c : Char) : Bool :=
  inRanges blankRanges c

/-- The table holds twenty-five characters. -/
example : (blankRanges.map fun r => r.2 - r.1 + 1).sum = 25 := by decide

end Quill
