import Sessions.Document.Basic
import Sessions.Yaml.Reader

/-!
# Sessions.Document.Text

Reading a document from its text.
-/

namespace Sessions.Document

/-- Reads a document from YAML text, which JSON text is too. The name is used for the places in it
unless the document names itself. -/
def ofText (name text : String) : Except Error Document :=
  if text = "" then .error .emptySource
  else
    match Yaml.readMap text with
    | .error e => refuse name 0 (.unreadable e.message)
    | .ok none => .error .emptySource
    | .ok (some es) => ofEntries name es

end Sessions.Document
