/-!
# Sessions.Decimal.Double

Binary floating point numbers of 64 bits, kept as their bits so that equality is decidable and
every conversion is exact natural number arithmetic. `Double.ofDecimal` rounds a decimal to the
nearest such number, a tie going to the even one; `Double.magnitude` reads the value back as
`m * 2 ^ q`.
-/

namespace Sessions

/-- A floating point number: one sign bit, eleven exponent bits, fifty-two fraction bits. -/
structure Double where
  bits : UInt64
deriving DecidableEq, Repr, Inhabited

namespace Double

def isNegative (x : Double) : Bool :=
  x.bits >>> 63 == 1

/-- The eleven exponent bits. -/
def exponentField (x : Double) : Nat :=
  ((x.bits >>> 52) &&& 0x7FF).toNat

/-- The fifty-two fraction bits. -/
def fractionField (x : Double) : Nat :=
  (x.bits &&& 0xFFFFFFFFFFFFF).toNat

def isNaN (x : Double) : Bool :=
  x.exponentField == 0x7FF && x.fractionField != 0

def isInfinite (x : Double) : Bool :=
  x.exponentField == 0x7FF && x.fractionField == 0

def isFinite (x : Double) : Bool :=
  x.exponentField != 0x7FF

/-- The absolute value of a finite number as `m * 2 ^ q`. -/
def magnitude (x : Double) : Nat × Int :=
  if x.exponentField == 0 then (x.fractionField, -1074)
  else (Nat.pow 2 52 + x.fractionField, (x.exponentField : Int) - 1075)

def ofFields (negative : Bool) (exponent fraction : Nat) : Double :=
  ⟨UInt64.ofNat ((if negative then Nat.pow 2 63 else 0) + exponent * Nat.pow 2 52 + fraction)⟩

def infinity (negative : Bool) : Double :=
  ofFields negative 0x7FF 0

def zero (negative : Bool) : Double :=
  ofFields negative 0 0

def nan : Double :=
  ⟨0x7FF8000000000001⟩

/-- The quotient rounded to the nearest natural number, a tie going to the even one. -/
def roundedQuotient (num den : Nat) : Nat :=
  let q := num / den
  let r := num % den
  if 2 * r < den then q
  else if den < 2 * r then q + 1
  else if q % 2 = 0 then q else q + 1

/-- The nearest number to `num / den`, a tie going to the even one; beyond the largest finite
number it is infinite. The scale `q` is the one at which the quotient has fifty-three bits, but
never below the scale of the smallest numbers. -/
def ofRatio (negative : Bool) (num den : Nat) : Double :=
  if num = 0 || den = 0 then zero negative
  else
    let rough : Int := (num.log2 : Int) - (den.log2 : Int) - 52
    let scaled (q : Int) : Nat × Nat :=
      if 0 ≤ q then (num, den * Nat.pow 2 q.toNat) else (num * Nat.pow 2 (-q).toNat, den)
    let below (q : Int) : Bool := (scaled q).1 / (scaled q).2 < Nat.pow 2 52
    let q := max (if below rough then rough - 1 else rough) (-1074)
    let m := roundedQuotient (scaled q).1 (scaled q).2
    let (m, q) := if m = Nat.pow 2 53 then (Nat.pow 2 52, q + 1) else (m, q)
    if m < Nat.pow 2 52 then ofFields negative 0 m
    else if 971 < q then infinity negative
    else ofFields negative (q + 1075).toNat (m - Nat.pow 2 52)

/-- The nearest number to `m * 10 ^ e`. Decimals far outside the range of finite numbers go
straight to infinity or to zero. -/
def ofDecimal (negative : Bool) (m : Nat) (e : Int) : Double :=
  if m = 0 then zero negative
  else
    let top : Int := ((Nat.toDigits 10 m).length : Int) + e
    if 400 < top then infinity negative
    else if top < -400 then zero negative
    else if 0 ≤ e then ofRatio negative (m * Nat.pow 10 e.toNat) 1
    else ofRatio negative m (Nat.pow 10 (-e).toNat)

/-- The nearest number to an integer. -/
def ofInt (n : Int) : Double :=
  ofDecimal (n < 0) n.natAbs 0

/-- The integer part of a finite number, cut toward zero. -/
def truncate (x : Double) : Int :=
  let (m, q) := x.magnitude
  let n : Nat := if 0 ≤ q then m * Nat.pow 2 q.toNat else m / Nat.pow 2 (-q).toNat
  if x.isNegative then -(n : Int) else n

/-- Numeric equality: zero has one value whatever its sign, and what is not a number equals
nothing. -/
def numEq (x y : Double) : Bool :=
  !x.isNaN && !y.isNaN && (x == y || (x.magnitude.1 == 0 && y.magnitude.1 == 0))

end Double

end Sessions
