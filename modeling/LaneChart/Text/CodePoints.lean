/-!
# Sets of code points

A property of characters is tabulated by its bounds: the code points, ascending, at which the
property begins and ends in turn. A character has it when it lies behind an odd number of bounds.
Blanks are few enough to be listed.
-/

namespace LaneChart.Text

/-- Whether a code point lies behind an odd number of ascending bounds. -/
def behindOdd (n : Nat) : List Nat → Bool
  | [] => false
  | b :: rest => if n < b then false else !behindOdd n rest

/-- Whether a character lies in the set with the given bounds. -/
def inBounds (bounds : List Nat) (c : Char) : Bool := behindOdd c.toNat bounds

/-- The bounds of the blanks: the space, the tab and the line ends, and the wide, narrow and fixed
spaces of other scripts. -/
def blankBounds : List Nat :=
  [0x9, 0xe, 0x20, 0x21, 0x85, 0x86, 0xa0, 0xa1, 0x1680, 0x1681, 0x2000, 0x200b, 0x2028, 0x202a,
   0x202f, 0x2030, 0x205f, 0x2060, 0x3000, 0x3001]

/-- Whether a character is a blank. -/
def isBlank (c : Char) : Bool := inBounds blankBounds c

/-- Text without the blanks at its front. -/
def trimStart (cs : List Char) : List Char := cs.dropWhile isBlank

/-- Text without the blanks at its end. -/
def trimEnd (cs : List Char) : List Char := (cs.reverse.dropWhile isBlank).reverse

/-- Text without the blanks at either end. -/
def trim (cs : List Char) : List Char := trimEnd (trimStart cs)

end LaneChart.Text
