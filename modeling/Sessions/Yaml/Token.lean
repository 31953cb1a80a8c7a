/-!
# Sessions.Yaml.Token

The tokens of a YAML text. Besides the marks that stand in the text there are tokens for what the
indentation says: where a block collection starts and where it ends.
-/

namespace Sessions.Yaml

/-- What is wrong with a YAML text. -/
inductive Error where
  | notCharacters
  | controlCharacter
  | strayCharacter
  | tabInIndentation
  | entryContext
  | keyContext
  | valueContext
  | missingColon
  | unexpectedColon
  | badAnchor
  | badTag
  | badDirective
  | badBlockHeader
  | badEscape
  | unclosedQuote
  | documentMark
  | expectedNode
  | expectedEntry
  | expectedKey
  | expectedSeparator
  | expectedDocument
  | duplicateDirective
  | unknownHandle (handle : String)
  /-- An alias for no node, or for a node that it stands in. -/
  | badAlias (name : String)
  | badMerge
  | badBinary
  /-- A value of the wrong type. -/
  | mismatch (wanted : String)
  | tooDeep
deriving DecidableEq, Repr

def Error.message : Error → String
  | .notCharacters => "yaml: invalid leading UTF-8 octet"
  | .controlCharacter => "yaml: control characters are not allowed"
  | .strayCharacter => "yaml: found character that cannot start any token"
  | .tabInIndentation => "yaml: found a tab character that violates indentation"
  | .entryContext => "yaml: block sequence entries are not allowed in this context"
  | .keyContext => "yaml: mapping keys are not allowed in this context"
  | .valueContext => "yaml: mapping values are not allowed in this context"
  | .missingColon => "yaml: could not find expected ':'"
  | .unexpectedColon => "yaml: found unexpected ':'"
  | .badAnchor => "yaml: did not find expected alphabetic or numeric character"
  | .badTag => "yaml: did not find expected tag URI"
  | .badDirective => "yaml: found unknown directive name"
  | .badBlockHeader => "yaml: did not find expected comment or line break"
  | .badEscape => "yaml: found unknown escape character"
  | .unclosedQuote => "yaml: found unexpected end of stream"
  | .documentMark => "yaml: found unexpected document indicator"
  | .expectedNode => "yaml: did not find expected node content"
  | .expectedEntry => "yaml: did not find expected '-' indicator"
  | .expectedKey => "yaml: did not find expected key"
  | .expectedSeparator => "yaml: did not find expected ',' or closing bracket"
  | .expectedDocument => "yaml: did not find expected <document start>"
  | .duplicateDirective => "yaml: found duplicate directive"
  | .unknownHandle h => "yaml: found undefined tag handle " ++ h
  | .badAlias n => "yaml: anchor '" ++ n ++ "' can not be followed"
  | .badMerge => "yaml: map merge requires map or sequence of maps as the value"
  | .badBinary => "yaml: !!binary value contains invalid base64 data"
  | .mismatch w => "yaml: unmarshal errors:\n  cannot unmarshal into " ++ w
  | .tooDeep => "yaml: document is nested too deeply"

inductive Token where
  /-- The version of the language that the document is written in. -/
  | version (major minor : Nat)
  /-- A handle that tags may start with, and what it stands for. -/
  | handle (name base : String)
  | documentStart
  | documentEnd
  | blockSequenceStart
  | blockMappingStart
  | blockEnd
  | flowSequenceStart
  | flowSequenceEnd
  | flowMappingStart
  | flowMappingEnd
  | blockEntry
  | flowEntry
  | key
  | value
  | alias (name : String)
  | anchor (name : String)
  /-- A tag: its handle, which may be empty, and the rest. -/
  | tag (handle suffix : String)
  /-- A scalar; `plain` if it stands without quotes and without a block header. -/
  | scalar (text : String) (plain : Bool)
  /-- The text can not be read any further. -/
  | invalid (e : Error)
deriving DecidableEq, Repr, Inhabited

end Sessions.Yaml
