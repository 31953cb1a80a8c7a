import Sessions.Decimal.Double

/-!
# Sessions.Decimal.Shortest

The fewest decimal digits that read back as a given floating point number. The numbers that round
to `m * 2 ^ q` form an interval, closed when `m` is even; for one digit, two digits, and so on, the
two neighbours of the value on that decimal grid are tested, the first grid with a hit wins, and
of two hits the nearer.
-/

namespace Sessions.Decimal

/-- A decimal number: `digits` read as an integer, times `10 ^ exponent`. -/
structure Scientific where
  digits : Nat
  exponent : Int
deriving DecidableEq, Repr

/-- A non-negative rational as numerator and denominator. -/
abbrev Ratio := Nat × Nat

namespace Ratio

def le (a b : Ratio) : Bool := a.1 * b.2 ≤ b.1 * a.2

def lt (a b : Ratio) : Bool := a.1 * b.2 < b.1 * a.2

/-- The distance of two rationals. -/
def dist (a b : Ratio) : Ratio :=
  (max (a.1 * b.2) (b.1 * a.2) - min (a.1 * b.2) (b.1 * a.2), a.2 * b.2)

/-- The rational `n * base ^ e`. -/
def scaled (base n : Nat) (e : Int) : Ratio :=
  if 0 ≤ e then (n * Nat.pow base e.toNat, 1) else (n, Nat.pow base (-e).toNat)

end Ratio

/-- The number of decimal digits of a natural number. -/
def width (n : Nat) : Nat :=
  (Nat.toDigits 10 n).length

/-- The power of ten of the leading digit of a positive rational. -/
def leadingPower (v : Ratio) : Int :=
  if v.2 ≤ v.1 then (width (v.1 / v.2) : Int) - 1
  else
    let t := v.2 / v.1
    let d := width t
    if t = Nat.pow 10 (d - 1) && v.2 % v.1 = 0 then 1 - (d : Int) else -(d : Int)

/-- The two ends of the interval of rationals that round to `m * 2 ^ q`. Below a power of two the
next number is only half as far away. -/
def roundingInterval (m : Nat) (q : Int) : Ratio × Ratio :=
  let upper := Ratio.scaled 2 (2 * m + 1) (q - 1)
  if m = Nat.pow 2 52 && -1074 < q then (Ratio.scaled 2 (4 * m - 1) (q - 2), upper)
  else (Ratio.scaled 2 (2 * m - 1) (q - 1), upper)

/-- Whether a rational rounds to the number with the given interval; the ends belong to it when
`closed`. -/
def reads (closed : Bool) (interval : Ratio × Ratio) (c : Ratio) : Bool :=
  if closed then Ratio.le interval.1 c && Ratio.le c interval.2
  else Ratio.lt interval.1 c && Ratio.lt c interval.2

/-- The better of the value's two neighbours on the grid of multiples of `10 ^ k`, if one of them
reads back. -/
def onGrid (closed : Bool) (interval : Ratio × Ratio) (v : Ratio) (k : Int) : Option Scientific :=
  let w : Ratio :=
    if 0 ≤ k then (v.1, v.2 * Nat.pow 10 k.toNat) else (v.1 * Nat.pow 10 (-k).toNat, v.2)
  let lower := w.1 / w.2
  let candidate (c : Nat) : Option Nat :=
    if reads closed interval (Ratio.scaled 10 c k) then some c else none
  match candidate lower, candidate (lower + 1) with
  | none, none => none
  | some c, none => some ⟨c, k⟩
  | none, some c => some ⟨c, k⟩
  | some a, some b =>
    if Ratio.le (Ratio.dist (Ratio.scaled 10 a k) v) (Ratio.dist (Ratio.scaled 10 b k) v)
    then some ⟨a, k⟩ else some ⟨b, k⟩

/-- Takes zeros off the end of the digits. -/
def stripZeros : Nat → Scientific → Scientific
  | 0, s => s
  | n + 1, s =>
    if s.digits ≠ 0 && s.digits % 10 = 0 then stripZeros n ⟨s.digits / 10, s.exponent + 1⟩ else s

/-- The fewest digits that read back as the positive number `m * 2 ^ q`; seventeen always do. -/
def shortest (m : Nat) (q : Int) : Scientific :=
  let v := Ratio.scaled 2 m q
  let top := leadingPower v
  let interval := roundingInterval m q
  let closed : Bool := m % 2 = 0
  let hit := (List.range 17).findSome? fun (n : Nat) => onGrid closed interval v (top - n)
  stripZeros 20 (hit.getD ⟨0, 0⟩)

end Sessions.Decimal
