import Sessions.Yaml.Scanner

/-!
# Sessions.Yaml.Draft

The nodes of a YAML document as they are written, put together from its tokens. A scalar keeps its
text, because what it means depends on where it stands. A node may be named by an anchor, and an
alias is only the name of a node; following it is left to `Sessions.Yaml.Node`, because the node
may stand after the alias.
-/

namespace Sessions.Yaml

/-- A node as it is written. The tag of a scalar is empty when none was written; an `implicit` scalar
is one whose text may say what it is. -/
inductive Draft where
  | scalar (anchor : Option String) (tag text : String) (implicit : Bool)
  | sequence (anchor : Option String) (items : List Draft)
  | mapping (anchor : Option String) (entries : List (Draft × Draft))
  | alias (name : String)
deriving Inhabited, Repr

namespace Draft

/-- A place where no node was written. -/
def absent : Draft := .scalar none "" "" true

/-- The handles of tags with what they stand for. -/
abbrev Handles := List (String × String)

/-- The handles that stand for something unless a document says otherwise. -/
def standardHandles : Handles := [("!", "!"), ("!!", "tag:yaml.org,2002:")]

/-- A result with the tokens that are left. -/
abbrev Parsed (α : Type) := α × List Token

/-- Whether the first token is one of a list. -/
def next (ts : List Token) (among : List Token) : Bool :=
  match ts with
  | t :: _ => among.contains t
  | [] => false

/-- The whole of a tag. -/
def fullTag (handles : Handles) (handle suffix : String) : Except Error String :=
  if handle = "" then .ok suffix
  else
    match handles.lookup handle with
    | some base => .ok (base ++ suffix)
    | none => .error (.unknownHandle handle)

/-- The anchor and the tag before a node, in either order; a missing tag is empty. -/
def properties (handles : Handles) (ts : List Token) :
    Except Error (Option String × String × List Token) :=
  let tagged (anchor : Option String) (handle suffix : String) (rest : List Token) :
      Except Error (Option String × String × List Token) :=
    (fullTag handles handle suffix).map (anchor, ·, rest)
  match ts with
  | .anchor a :: .tag h t :: rest => tagged (some a) h t rest
  | .tag h t :: .anchor a :: rest => tagged (some a) h t rest
  | .anchor a :: rest => .ok (some a, "", rest)
  | .tag h t :: rest => tagged none h t rest
  | ts => .ok (none, "", ts)

/-- The error of a token that does not fit, or of one that could not be read. -/
def unexpected (ts : List Token) (e : Error) : Error :=
  match ts with
  | .invalid cause :: _ => cause
  | _ => e

/-- The tokens of the next entry of a collection in brackets. -/
def flowNext (first : Bool) (ts : List Token) : Except Error (List Token) :=
  if first then .ok ts
  else
    match ts with
    | .flowEntry :: rest => .ok rest
    | ts => .error (unexpected ts .expectedSeparator)

mutual

/-- Parses a node. In a block, block collections may stand here; under a key also a sequence that is
not indented any further. -/
def parse (handles : Handles) : Nat → (block indentless : Bool) → List Token →
    Except Error (Parsed Draft)
  | 0, _, _, _ => .error .tooDeep
  | fuel + 1, block, indentless, ts =>
    match ts with
    | .alias name :: rest => .ok (.alias name, rest)
    | ts => do
      let (anchor, tag, rest) ← properties handles ts
      let bare : Except Error (Parsed Draft) :=
        if anchor.isSome || tag ≠ "" then .ok (.scalar anchor tag "" (tag == ""), rest)
        else .error (unexpected rest .expectedNode)
      match rest with
      | .scalar text plain :: rest =>
        return (.scalar anchor tag text ((tag == "" && plain) || tag == "!"), rest)
      | .flowSequenceStart :: rest =>
        let (items, rest) ← flowItems handles fuel true [] rest
        return (.sequence anchor items, rest)
      | .flowMappingStart :: rest =>
        let (entries, rest) ← flowEntries handles fuel true [] rest
        return (.mapping anchor entries, rest)
      | .blockEntry :: _ =>
        if indentless then
          let (items, rest) ← indentlessItems handles fuel [] rest
          return (.sequence anchor items, rest)
        else bare
      | .blockSequenceStart :: inner =>
        if block then
          let (items, rest) ← blockItems handles fuel [] inner
          return (.sequence anchor items, rest)
        else bare
      | .blockMappingStart :: inner =>
        if block then
          let (entries, rest) ← blockEntries handles fuel [] inner
          return (.mapping anchor entries, rest)
        else bare
      | _ => bare

/-- Parses a node unless one of the given tokens says that none stands here. -/
def parseUnless (handles : Handles) : Nat → List Token → (block indentless : Bool) → List Token →
    Except Error (Parsed Draft)
  | 0, _, _, _, _ => .error .tooDeep
  | fuel + 1, stops, block, indentless, ts =>
    if next ts stops then .ok (absent, ts) else parse handles fuel block indentless ts

def blockItems (handles : Handles) : Nat → List Draft → List Token →
    Except Error (Parsed (List Draft))
  | 0, _, _ => .error .tooDeep
  | fuel + 1, acc, ts =>
    match ts with
    | .blockEntry :: rest => do
      let (n, rest) ← parseUnless handles fuel [.blockEntry, .blockEnd] true false rest
      blockItems handles fuel (n :: acc) rest
    | .blockEnd :: rest => .ok (acc.reverse, rest)
    | ts => .error (unexpected ts .expectedEntry)

def indentlessItems (handles : Handles) : Nat → List Draft → List Token →
    Except Error (Parsed (List Draft))
  | 0, _, _ => .error .tooDeep
  | fuel + 1, acc, ts =>
    match ts with
    | .blockEntry :: rest => do
      let (n, rest) ←
        parseUnless handles fuel [.blockEntry, .key, .value, .blockEnd] true false rest
      indentlessItems handles fuel (n :: acc) rest
    | ts => .ok (acc.reverse, ts)

def blockEntries (handles : Handles) : Nat → List (Draft × Draft) → List Token →
    Except Error (Parsed (List (Draft × Draft)))
  | 0, _, _ => .error .tooDeep
  | fuel + 1, acc, ts =>
    match ts with
    | .key :: rest => do
      let (k, rest) ← parseUnless handles fuel [.key, .value, .blockEnd] true true rest
      let (v, rest) ← blockValue handles fuel rest
      blockEntries handles fuel ((k, v) :: acc) rest
    | .blockEnd :: rest => .ok (acc.reverse, rest)
    | ts => .error (unexpected ts .expectedKey)

def blockValue (handles : Handles) : Nat → List Token → Except Error (Parsed Draft)
  | 0, _ => .error .tooDeep
  | fuel + 1, ts =>
    match ts with
    | .value :: rest => parseUnless handles fuel [.key, .value, .blockEnd] true true rest
    | ts => .ok (absent, ts)

/-- The items of a sequence in brackets. An entry with a key is a mapping of that one entry; when the
key is missing, the token that shows it is passed over. -/
def flowItems (handles : Handles) : Nat → (first : Bool) → List Draft → List Token →
    Except Error (Parsed (List Draft))
  | 0, _, _, _ => .error .tooDeep
  | fuel + 1, first, acc, ts =>
    match ts with
    | .flowSequenceEnd :: rest => .ok (acc.reverse, rest)
    | ts => do
      let ts ← flowNext first ts
      match ts with
      | .flowSequenceEnd :: rest => return (acc.reverse, rest)
      | .key :: rest =>
        let stops : List Token := [.value, .flowEntry, .flowSequenceEnd]
        let (k, rest) ← if next rest stops then .ok (absent, rest.tail)
          else parse handles fuel false false rest
        let (v, rest) ← flowValue handles fuel .flowSequenceEnd rest
        flowItems handles fuel false (.mapping none [(k, v)] :: acc) rest
      | ts =>
        let (n, rest) ← parse handles fuel false false ts
        flowItems handles fuel false (n :: acc) rest

def flowValue (handles : Handles) : Nat → (closing : Token) → List Token →
    Except Error (Parsed Draft)
  | 0, _, _ => .error .tooDeep
  | fuel + 1, closing, ts =>
    match ts with
    | .value :: rest => parseUnless handles fuel [.flowEntry, closing] false false rest
    | ts => .ok (absent, ts)

def flowEntries (handles : Handles) : Nat → (first : Bool) → List (Draft × Draft) → List Token →
    Except Error (Parsed (List (Draft × Draft)))
  | 0, _, _, _ => .error .tooDeep
  | fuel + 1, first, acc, ts =>
    match ts with
    | .flowMappingEnd :: rest => .ok (acc.reverse, rest)
    | ts => do
      let ts ← flowNext first ts
      match ts with
      | .flowMappingEnd :: rest => return (acc.reverse, rest)
      | .key :: rest =>
        let (k, rest) ←
          parseUnless handles fuel [.value, .flowEntry, .flowMappingEnd] false false rest
        let (v, rest) ← flowValue handles fuel .flowMappingEnd rest
        flowEntries handles fuel false ((k, v) :: acc) rest
      | ts =>
        let (k, rest) ← parse handles fuel false false ts
        flowEntries handles fuel false ((k, absent) :: acc) rest

end

/-! ## Documents -/

/-- Reads the directives before a document, each of which may stand once. The version has to be the
one that is read here. The result has the handles that hold in the document. -/
def directives : (version : Bool) → Handles → List Token → Except Error (Handles × List Token)
  | version, handles, .version major minor :: rest =>
    if version then .error .duplicateDirective
    else if major ≠ 1 || minor ≠ 1 then .error .badDirective
    else directives true handles rest
  | version, handles, .handle name base :: rest =>
    if (handles.lookup name).isSome then .error .duplicateDirective
    else directives version (handles ++ [(name, base)]) rest
  | _, handles, ts => .ok (handles ++ standardHandles, ts)

/-- Whether a document starts here with a directive or its mark. -/
def startsExplicitly : List Token → Bool
  | .version _ _ :: _ => true
  | .handle _ _ :: _ => true
  | .documentStart :: _ => true
  | _ => false

/-- The directives and the mark of a document; the result has the handles that hold in it. -/
def documentStart (ts : List Token) : Except Error (Handles × List Token) := do
  match ← directives false [] ts with
  | (handles, .documentStart :: rest) => return (handles, rest)
  | (_, ts) => .error (unexpected ts .expectedDocument)

def root (handles : Handles) (ts : List Token) : Except Error (Parsed Draft) :=
  parse handles (4 * ts.length + 8) true false ts

/-- What may follow a document: marks of its end, and the start of another document. -/
def afterDocument (ts : List Token) : Except Error Unit :=
  match ts.dropWhile (· == .documentEnd) with
  | [] => .ok ()
  | ts => do
    let _ ← documentStart ts
    return ()

/-- The first document of a text; a text without any content has none. -/
def document? (text : String) : Except Error (Option Draft) := do
  let ts := Scanner.scan text
  if ts.isEmpty then return none
  let (d, rest) ←
    if startsExplicitly ts then do
      let (handles, body) ← documentStart ts
      if body.isEmpty || next body [.documentEnd] || startsExplicitly body then pure (absent, body)
      else root handles body
    else root standardHandles ts
  afterDocument rest
  return some d

/-! ## Anchors -/

/-- A node under its anchor, if it has one. -/
def named (anchor : Option String) (d : Draft) : List (String × Draft) :=
  match anchor with
  | some a => [(a, d)]
  | none => []

mutual

/-- The nodes of a document that have anchors, in the order in which they start. -/
def anchors : Draft → List (String × Draft)
  | .scalar a tag text implicit => named a (.scalar a tag text implicit)
  | .sequence a items => named a (.sequence a items) ++ anchorsOfItems items
  | .mapping a entries => named a (.mapping a entries) ++ anchorsOfEntries entries
  | .alias _ => []

def anchorsOfItems : List Draft → List (String × Draft)
  | [] => []
  | d :: rest => anchors d ++ anchorsOfItems rest

def anchorsOfEntries : List (Draft × Draft) → List (String × Draft)
  | [] => []
  | (k, v) :: rest => anchors k ++ anchors v ++ anchorsOfEntries rest

end

end Draft

end Sessions.Yaml
