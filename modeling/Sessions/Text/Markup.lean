/-!
# Sessions.Text.Markup

Escapes for text inside markup. `escapeMarkup` keeps quotes as they are and is enough between tags;
`escapeAttribute` escapes them as well.
-/

namespace Sessions.Text

/-- How one character stands between tags. -/
def markupChar (c : Char) : List Char :=
  if c = '&' then "&amp;".toList
  else if c = '<' then "&lt;".toList
  else if c = '>' then "&gt;".toList
  else [c]

def escapeMarkup (s : String) : String :=
  String.ofList (s.toList.flatMap markupChar)

/-- How one character stands inside an attribute. -/
def attributeChar (c : Char) : List Char :=
  if c = '"' then "&#34;".toList
  else if c = '\x27' then "&#39;".toList
  else markupChar c

def escapeAttribute (s : String) : String :=
  String.ofList (s.toList.flatMap attributeChar)

/-- A text with every line break replaced. -/
def replaceBreaks (mark : String) (s : String) : String :=
  String.ofList (s.toList.flatMap fun c => if c = '\n' then mark.toList else [c])

end Sessions.Text
