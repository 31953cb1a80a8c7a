import Sessions.Text.Bytes

/-!
# Sessions.Text.Units

Text counted in units of sixteen bits. A character outside the first plane takes two of them, and a
unit that is only half of such a pair stands for no character.
-/

namespace Sessions.Text

def charUnits (c : Char) : List Nat :=
  let n := c.toNat
  if n < 0x10000 then [n]
  else [0xD800 + (n - 0x10000) / 0x400, 0xDC00 + (n - 0x10000) % 0x400]

/-- The units of a text. -/
def units (s : String) : List Nat :=
  (characters s).flatMap charUnits

/-- The characters of units. -/
def unitChars : List Nat → List Char
  | [] => []
  | a :: b :: rest =>
    if 0xD800 ≤ a && a < 0xDC00 && 0xDC00 ≤ b && b < 0xE000 then
      kept (Char.ofNat (0x10000 + (a - 0xD800) * 0x400 + (b - 0xDC00))) ++ unitChars rest
    else (if a.isValidChar then Char.ofNat a else replacement) :: unitChars (b :: rest)
  | [a] => [if a.isValidChar then Char.ofNat a else replacement]

def ofUnits (us : List Nat) : String :=
  String.ofList (unitChars us)

/-- The place at which a list first occurs in another, from a given place on. -/
def occurs? (sought : List Nat) : (place : Nat) → List Nat → Option Nat
  | n, [] => if sought.isEmpty then some n else none
  | n, u :: rest => if sought.isPrefixOf (u :: rest) then some n else occurs? sought (n + 1) rest

/-- The last place, up to a given one, at which a list occurs in another. -/
def lastOccurs? (sought us : List Nat) : (place : Nat) → Option Nat
  | 0 => if sought.isPrefixOf us then some 0 else none
  | n + 1 => if sought.isPrefixOf (us.drop (n + 1)) then some (n + 1) else lastOccurs? sought us n

end Sessions.Text
