import Sessions.Text.Bytes
import Sessions.Text.Printable

/-!
# Sessions.Text.Quoted

Text between double quotes, as messages show a value that came from outside: a quote and a
backslash get a backslash, the usual controls their letter, and whatever has no visible form its
code point in hexadecimal; so has a byte that belongs to no character.
-/

namespace Sessions.Text

/-- The number in hexadecimal with small letters, padded with zeros to the given width. -/
def hex (width n : Nat) : List Char :=
  let digits := Nat.toDigits 16 n
  List.replicate (width - digits.length) '0' ++ digits

/-- How one character stands between the quotes. -/
def quotedChar (c : Char) : List Char :=
  if c = '"' || c = '\\' then ['\\', c]
  else if isPrintable c then [c]
  else if c = '\x07' then ['\\', 'a']
  else if c = '\x08' then ['\\', 'b']
  else if c = '\x0c' then ['\\', 'f']
  else if c = '\n' then ['\\', 'n']
  else if c = '\r' then ['\\', 'r']
  else if c = '\t' then ['\\', 't']
  else if c = '\x0b' then ['\\', 'v']
  else if c.toNat < 0x80 then '\\' :: 'x' :: hex 2 c.toNat
  else if isStray c then '\\' :: 'x' :: hex 2 (c.toNat - 0x10FF00)
  else if c.toNat < 0x10000 then '\\' :: 'u' :: hex 4 c.toNat
  else '\\' :: 'U' :: hex 8 c.toNat

/-- The text in double quotes. -/
def quoted (s : String) : String :=
  String.ofList ('"' :: (s.toList.flatMap quotedChar ++ ['"']))

end Sessions.Text
