import Sessions.Check.Exchange
import Sessions.Digest.Base64
import Sessions.Digest.Sha256
import Sessions.Text.Bytes
import Sessions.Time.Instant

/-!
# Sessions.History.Record

A verdict on a program as it is kept: when it was found, a digest of what was checked, and the
problems.
-/

namespace Sessions.History

open Time

/-- The digest of a text. -/
def digest (text : String) : String :=
  Digest.base64 (Digest.sha256 (Text.bytes text))

structure Record where
  /-- The reference of the program. -/
  program : String
  instant : Instant
  /-- The digest of the document, so that a reader can tell whether it changed; empty if the
  document is not known. -/
  digest : String
  valid : Bool
  diagnostics : List Check.Diagnostic
deriving DecidableEq, Repr, Inhabited

namespace Record

/-- The record of a report on a document. -/
def ofReport (program : String) (text : Option String) (r : Check.Report) (instant : Instant) :
    Record where
  program
  instant
  digest := (text.map History.digest).getD ""
  valid := r.valid
  diagnostics := r.diagnostics

/-- The record as a value. -/
def toDatum (r : Record) : Datum :=
  .map ([("program", .text r.program), ("at", .text r.instant.render)] ++
    Entries.ofText "digest" r.digest ++ [("valid", .bool r.valid)] ++
    Check.ofList "diagnostics" (r.diagnostics.map Check.Diagnostic.toDatum))

/-- Whether the record has a text: its year needs to have four digits. -/
def isWritable (r : Record) : Bool :=
  r.instant.hasShortYear

end Record

end Sessions.History
