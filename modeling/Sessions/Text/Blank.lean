/-!
# Sessions.Text.Blank

The white space of a text, and cutting it off at both ends.
-/

namespace Sessions.Text

/-- White space: the layout controls, the plain and the no-break space, and the other spaces and
line ends of the character standard. -/
def isBlank (c : Char) : Bool :=
  let n := c.toNat
  (9 ≤ n && n ≤ 13) || n == 0x20 || n == 0x85 || n == 0xA0 || n == 0x1680 ||
  (0x2000 ≤ n && n ≤ 0x200A) || n == 0x2028 || n == 0x2029 || n == 0x202F || n == 0x205F ||
  n == 0x3000

/-- The characters between the first and the last one that is not white space. -/
def trimmed (cs : List Char) : List Char :=
  ((cs.dropWhile isBlank).reverse.dropWhile isBlank).reverse

/-- The text without the white space at its two ends. -/
def trim (s : String) : String :=
  String.ofList (trimmed s.toList)

end Sessions.Text
