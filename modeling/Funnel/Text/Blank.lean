/-!
# Blank characters

The Unicode property `White_Space`, and texts that hold nothing else.
-/

namespace Funnel.Text

/-- The 25 code points of the property `White_Space`. -/
def isBlank (c : Char) : Bool :=
  let n := c.toNat
  (0x0009 ≤ n && n ≤ 0x000D) || n == 0x0020 || n == 0x0085 || n == 0x00A0 || n == 0x1680 ||
    (0x2000 ≤ n && n ≤ 0x200A) || n == 0x2028 || n == 0x2029 || n == 0x202F || n == 0x205F ||
    n == 0x3000

/-- A name is blank when white space is all there is to it; the empty name is blank. -/
def allBlank (s : String) : Bool := s.toList.all isBlank

end Funnel.Text
