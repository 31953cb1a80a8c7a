/-!
# Sessions.Text.Kind

The kinds of characters that rules for written text tell apart. Only the characters of ASCII count as
letters, digits, gaps and punctuation; all others are ordinary characters of a word.
-/

namespace Sessions.Text

def isGap (c : Char) : Bool :=
  c = ' ' || (0x09 ≤ c.toNat && c.toNat ≤ 0x0d)

def isPunctuation (c : Char) : Bool :=
  0x21 ≤ c.toNat && c.toNat ≤ 0x7e && !c.isAlphanum

/-- Whether a word ends at a character; nothing at all ends it too. -/
def isBoundary : Option Char → Bool
  | none => true
  | some c => isGap c || isPunctuation c

end Sessions.Text
