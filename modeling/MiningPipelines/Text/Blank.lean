import MiningPipelines.Text.Cut

/-!
# Blank characters

The white space of Unicode, and trimming by it.
-/

namespace MiningPipelines

/-- A character of white space. -/
def isBlank (c : Char) : Bool :=
  let n := c.toNat
  (0x09 ≤ n && n ≤ 0x0d) || n == 0x20 || n == 0x85 || n == 0xa0 || n == 0x1680 ||
    (0x2000 ≤ n && n ≤ 0x200a) || n == 0x2028 || n == 0x2029 || n == 0x202f ||
    n == 0x205f || n == 0x3000

/-- Without the blanks at both ends. -/
def trimBlank (cs : List Char) : List Char := trimBy isBlank cs

/-- Nothing but blanks. -/
def isBlankText (s : String) : Bool := s.toList.all isBlank

/-- The ASCII capitals in lower case. -/
def lowerAscii (cs : List Char) : List Char := cs.map Char.toLower

end MiningPipelines
