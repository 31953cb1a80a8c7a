import Sessions.Decimal.Double

/-!
# Sessions.Decimal.Word

Numbers as words of 64 bits. An integer keeps its low bits. A floating point number keeps its
integer part; one that is too large for a word, and what is not a number, is the word with only its
highest bit set.
-/

namespace Sessions

/-- An integer reduced to 64 bits with a sign. -/
def wrap64 (n : Int) : Int :=
  n.bmod (Nat.pow 2 64)

namespace Double

/-- The integer part as 64 bits with a sign; what does not fit is the least such integer. -/
def toInt64 (x : Double) : Int :=
  if x.isFinite && -Int.pow 2 63 ≤ x.truncate && x.truncate < Int.pow 2 63 then x.truncate
  else -Int.pow 2 63

/-- The integer part as 64 bits without a sign. Below `2 ^ 63` it is the word of `toInt64`; above, the
highest bit is set apart first. -/
def toUInt64 (x : Double) : Int :=
  if x.isFinite && Int.pow 2 63 ≤ x.truncate then
    (if x.truncate < Int.pow 2 64 then x.truncate else 0)
  else x.toInt64 % Int.pow 2 64

end Double

end Sessions
