/-!
# Sessions.Text.Bytes

Texts and their bytes. Bytes need not make characters, and a text has all of them: a byte that
belongs to no character is kept as a *stray* character, one of the last 128 there are. So that no two
sequences of bytes are one text, these last characters are themselves kept as their bytes.
-/

namespace Sessions.Text

/-! ## Characters in bytes -/

/-- Whether a byte continues a character. -/
def isContinuation (b : UInt8) : Bool :=
  0x80 ≤ b && b < 0xC0

/-- The character of two bytes. -/
def twoBytes? (a b : UInt8) : Option Char :=
  if 0xC2 ≤ a && a < 0xE0 && isContinuation b then
    some (Char.ofNat ((a.toNat - 0xC0) * 64 + (b.toNat - 0x80)))
  else none

/-- The character of three bytes; surrogates and forms that are too long are none. -/
def threeBytes? (a b c : UInt8) : Option Char :=
  let n := (a.toNat - 0xE0) * 4096 + (b.toNat - 0x80) * 64 + (c.toNat - 0x80)
  if 0xE0 ≤ a && a < 0xF0 && isContinuation b && isContinuation c && 0x800 ≤ n &&
      !(0xD800 ≤ n && n < 0xE000) then some (Char.ofNat n)
  else none

/-- The character of four bytes. -/
def fourBytes? (a b c d : UInt8) : Option Char :=
  let n := (a.toNat - 0xF0) * 262144 + (b.toNat - 0x80) * 4096 + (c.toNat - 0x80) * 64 +
    (d.toNat - 0x80)
  if 0xF0 ≤ a && a < 0xF8 && isContinuation b && isContinuation c && isContinuation d &&
      0x10000 ≤ n && n < 0x110000 then some (Char.ofNat n)
  else none

/-- The character that bytes start with, and the number of its bytes. -/
def firstChar? (a : UInt8) (rest : List UInt8) : Option (Char × Nat) :=
  if a < 0x80 then some (Char.ofNat a.toNat, 1)
  else
    match rest with
    | [] => none
    | b :: rest =>
      match twoBytes? a b with
      | some c => some (c, 2)
      | none =>
        match rest with
        | [] => none
        | c :: rest =>
          match threeBytes? a b c with
          | some x => some (x, 3)
          | none =>
            match rest with
            | [] => none
            | d :: _ => (fourBytes? a b c d).map fun x => (x, 4)

/-- A character, or a byte that belongs to none. -/
inductive Piece where
  | char (c : Char)
  | stray (b : UInt8)
deriving DecidableEq, Repr

/-- The pieces of bytes; `skip` bytes belong to a character that was read already. -/
def piecesOf : (skip : Nat) → List UInt8 → List Piece
  | _, [] => []
  | skip + 1, _ :: rest => piecesOf skip rest
  | 0, a :: rest =>
    match firstChar? a rest with
    | some (c, n) => .char c :: piecesOf (n - 1) rest
    | none => .stray a :: piecesOf 0 rest

/-! ## Texts -/

/-- The character that a stray byte is kept as. -/
def strayChar (b : UInt8) : Char :=
  Char.ofNat (0x10FF00 + b.toNat)

/-- Whether a character of a text is a byte that belongs to none. -/
def isStray (c : Char) : Bool :=
  0x10FF80 ≤ c.toNat

/-- A character as it is kept in a text. -/
def kept (c : Char) : List Char :=
  if isStray c then (String.utf8EncodeChar c).map strayChar else [c]

def Piece.kept : Piece → List Char
  | .char c => Text.kept c
  | .stray b => [strayChar b]

/-- The text of bytes. -/
def ofBytes (bytes : List UInt8) : String :=
  String.ofList ((piecesOf 0 bytes).flatMap Piece.kept)

/-- The bytes of a character of a text. -/
def charBytes (c : Char) : List UInt8 :=
  if isStray c then [UInt8.ofNat (c.toNat - 0x10FF00)] else String.utf8EncodeChar c

/-- The bytes of a text. -/
def bytes (s : String) : List UInt8 :=
  s.toList.flatMap charBytes

/-- The pieces of a text: its characters, unless some of them are stray. -/
def pieces (s : String) : List Piece :=
  if s.toList.any isStray then piecesOf 0 (bytes s) else s.toList.map .char

/-- Whether every byte of a text belongs to a character. -/
def isWellFormed (s : String) : Bool :=
  (pieces s).all fun
    | .char _ => true
    | .stray _ => false

/-- The character that stands in for one that can not be read. -/
def replacement : Char :=
  Char.ofNat 0xFFFD

/-- The characters of a text, with the replacement character for every stray byte. -/
def characters (s : String) : List Char :=
  (pieces s).map fun
    | .char c => c
    | .stray _ => replacement

end Sessions.Text
