import Sessions.Decimal.Shortest

/-!
# Sessions.Decimal.Layout

How the shortest digits of a floating point number are laid out as text: positionally or with an
exponent. `Layout.general` is the layout of values in messages and in path text, `Layout.json` the
one of numbers in JSON text.
-/

namespace Sessions.Decimal

/-- Which powers of ten of the leading digit are written positionally (`least ≤ e < limit`), and
the least number of digits of an exponent. -/
structure Layout where
  least : Int
  limit : Int
  exponentWidth : Nat
deriving DecidableEq, Repr

namespace Layout

/-- Values in messages: positional from 0.0001 up to six digits before the point. -/
def general : Layout := ⟨-4, 6, 2⟩

/-- Numbers in JSON: positional from 0.000001 up to twenty-one digits before the point. -/
def json : Layout := ⟨-6, 21, 1⟩

end Layout

/-- Digits with the point after the first of them and an exponent. -/
def withExponent (exponentWidth : Nat) (digits : List Char) (e : Int) : List Char :=
  let mantissa := match digits with
    | [] => ['0']
    | [d] => [d]
    | d :: rest => d :: '.' :: rest
  let power := Nat.toDigits 10 e.natAbs
  mantissa ++ ['e', if e < 0 then '-' else '+'] ++
    List.replicate (exponentWidth - power.length) '0' ++ power

/-- Digits in place: `point` is how many of them stand before the decimal point. -/
def positional (digits : List Char) (point : Int) : List Char :=
  if point ≤ 0 then '0' :: '.' :: (List.replicate (-point).toNat '0' ++ digits)
  else
    let p := point.toNat
    if digits.length ≤ p then digits ++ List.replicate (p - digits.length) '0'
    else digits.take p ++ '.' :: digits.drop p

/-- The text of a floating point number in a layout. -/
def render (layout : Layout) (x : Double) : String :=
  if x.isNaN then "NaN"
  else if x.isInfinite then (if x.isNegative then "-Inf" else "+Inf")
  else
    let (m, q) := x.magnitude
    let body :=
      if m = 0 then ['0']
      else
        let s := shortest m q
        let digits := Nat.toDigits 10 s.digits
        let e := s.exponent + digits.length - 1
        if e < layout.least || layout.limit ≤ e then withExponent layout.exponentWidth digits e
        else positional digits (e + 1)
    String.ofList (if x.isNegative then '-' :: body else body)

end Sessions.Decimal
