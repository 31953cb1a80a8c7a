import Sessions.Decimal.Double

/-!
# Sessions.Decimal.Arithmetic

Arithmetic on floating point numbers. Every operation on finite numbers computes the exact result
with integers and rounds it once, a tie going to the even neighbour.
-/

namespace Sessions.Double

/-- The nearest number to `m * 2 ^ q`. -/
def ofScaled (negative : Bool) (m : Nat) (q : Int) : Double :=
  if 0 ≤ q then ofRatio negative (m * Nat.pow 2 q.toNat) 1
  else ofRatio negative m (Nat.pow 2 (-q).toNat)

def isZero (x : Double) : Bool :=
  x.isFinite && x.magnitude.1 == 0

def negate (x : Double) : Double :=
  ⟨x.bits ^^^ 0x8000000000000000⟩

/-- A finite number as an integer multiple of `2 ^ q`, where `q` is at most the number's own scale. -/
def units (x : Double) (q : Int) : Int :=
  let (m, p) := x.magnitude
  let n : Int := m * Int.pow 2 (p - q).toNat
  if x.isNegative then -n else n

/-- The scale in which both of two finite numbers are integers. -/
def commonScale (x y : Double) : Int :=
  min x.magnitude.2 y.magnitude.2

def add (x y : Double) : Double :=
  if x.isNaN || y.isNaN then nan
  else if x.isInfinite then (if y.isInfinite && x.isNegative != y.isNegative then nan else x)
  else if y.isInfinite then y
  else
    let q := commonScale x y
    let n := x.units q + y.units q
    if n = 0 then zero (x.isNegative && y.isNegative) else ofScaled (n < 0) n.natAbs q

def sub (x y : Double) : Double :=
  x.add y.negate

def mul (x y : Double) : Double :=
  let negative := x.isNegative != y.isNegative
  if x.isNaN || y.isNaN then nan
  else if x.isInfinite || y.isInfinite then
    (if x.isZero || y.isZero then nan else infinity negative)
  else
    let (m, p) := x.magnitude
    let (n, q) := y.magnitude
    ofScaled negative (m * n) (p + q)

def div (x y : Double) : Double :=
  let negative := x.isNegative != y.isNegative
  if x.isNaN || y.isNaN || (x.isInfinite && y.isInfinite) || (x.isZero && y.isZero) then nan
  else if x.isInfinite || y.isZero then infinity negative
  else if y.isInfinite then zero negative
  else
    let q := commonScale x y
    ofRatio negative (x.units q).natAbs (y.units q).natAbs

/-- The remainder of a division that is cut toward zero; it has the sign of the dividend. -/
def rem (x y : Double) : Double :=
  if x.isNaN || y.isNaN || x.isInfinite || y.isZero then nan
  else if y.isInfinite || x.isZero then x
  else
    let q := commonScale x y
    ofScaled x.isNegative ((x.units q).natAbs % (y.units q).natAbs) q

/-- The order of two numbers; there is none with what is not a number. -/
def less? (x y : Double) : Option Bool :=
  if x.isNaN || y.isNaN then none
  else if x.isInfinite then some (x.isNegative && x != y)
  else if y.isInfinite then some !y.isNegative
  else some (x.units (commonScale x y) < y.units (commonScale x y))

/-- The largest integer that is not above a finite number. -/
def floor (x : Double) : Int :=
  let (m, q) := x.magnitude
  let n : Int := if x.isNegative then -(m : Int) else m
  if 0 ≤ q then n * Int.pow 2 q.toNat else n.fdiv (Int.pow 2 (-q).toNat)

/-- Whether a number is an integer. -/
def isWhole (x : Double) : Bool :=
  x.isFinite && x.numEq (ofInt x.truncate)

end Sessions.Double
