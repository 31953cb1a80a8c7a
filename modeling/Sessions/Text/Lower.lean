/-!
# Sessions.Text.Lower

Small letters, for words that count the same in capitals. Such words are made of plain letters, so
other letters stay as they are.
-/

namespace Sessions.Text

/-- The text in small letters. -/
def lower (s : String) : String :=
  String.ofList (s.toList.map Char.toLower)

end Sessions.Text
