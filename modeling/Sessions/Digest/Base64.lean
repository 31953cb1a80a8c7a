/-!
# Sessions.Digest.Base64

Bytes as text: three bytes are four characters of six bits, and the end is filled up with equals
signs. Line breaks in such a text do not count.
-/

namespace Sessions.Digest

/-- The character of six bits. -/
def sixBitChar (n : Nat) : Char :=
  let code :=
    if n < 26 then 'A'.toNat + n
    else if n < 52 then 'a'.toNat + (n - 26)
    else if n < 62 then '0'.toNat + (n - 52)
    else if n = 62 then '+'.toNat
    else '/'.toNat
  Char.ofNat code

def base64Chars : List UInt8 → List Char
  | a :: b :: c :: rest =>
    let n := a.toNat * 65536 + b.toNat * 256 + c.toNat
    sixBitChar (n / 262144) :: sixBitChar (n / 4096 % 64) :: sixBitChar (n / 64 % 64) ::
      sixBitChar (n % 64) :: base64Chars rest
  | [a, b] =>
    let n := a.toNat * 1024 + b.toNat * 4
    [sixBitChar (n / 4096), sixBitChar (n / 64 % 64), sixBitChar (n % 64), '=']
  | [a] =>
    let n := a.toNat * 16
    [sixBitChar (n / 64), sixBitChar (n % 64), '=', '=']
  | [] => []

/-- The text of bytes. -/
def base64 (bytes : List UInt8) : String :=
  String.ofList (base64Chars bytes)

/-- The six bits of a character. -/
def sixBits? (c : Char) : Option Nat :=
  if 'A' ≤ c && c ≤ 'Z' then some (c.toNat - 'A'.toNat)
  else if 'a' ≤ c && c ≤ 'z' then some (c.toNat - 'a'.toNat + 26)
  else if '0' ≤ c && c ≤ '9' then some (c.toNat - '0'.toNat + 52)
  else if c = '+' then some 62
  else if c = '/' then some 63
  else none

/-- The bytes of characters in groups of four; only the last group may be filled up. -/
def bytesOfBase64 : List Char → Option (List UInt8)
  | [] => some []
  | [a, b, '=', '='] => do
    let x ← sixBits? a
    let y ← sixBits? b
    return [UInt8.ofNat (x * 4 + y / 16)]
  | [a, b, c, '='] => do
    let x ← sixBits? a
    let y ← sixBits? b
    let z ← sixBits? c
    return [UInt8.ofNat (x * 4 + y / 16), UInt8.ofNat (y % 16 * 16 + z / 4)]
  | a :: b :: c :: d :: rest => do
    let x ← sixBits? a
    let y ← sixBits? b
    let z ← sixBits? c
    let w ← sixBits? d
    let bytes ← bytesOfBase64 rest
    return UInt8.ofNat (x * 4 + y / 16) :: UInt8.ofNat (y % 16 * 16 + z / 4) ::
      UInt8.ofNat (z % 4 * 64 + w) :: bytes
  | _ => none

/-- The bytes of a text, if it is one of bytes. -/
def ofBase64? (text : String) : Option (List UInt8) :=
  bytesOfBase64 (text.toList.filter fun c => c ≠ '\n' && c ≠ '\r')

end Sessions.Digest
