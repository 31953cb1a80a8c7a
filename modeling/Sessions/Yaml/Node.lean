import Sessions.Yaml.Draft

/-!
# Sessions.Yaml.Node

The nodes of a YAML document with its aliases followed. An alias stands for the last node of the
document that has its anchor, whether that node comes before it or after it. An alias that stands
for no node, or inside the node that it stands for, is left dangling, which is an error only for
those who read it.
-/

namespace Sessions.Yaml

inductive Node where
  | scalar (tag text : String) (implicit : Bool)
  | sequence (items : List Node)
  | mapping (entries : List (Node × Node))
  /-- The node that an alias stands for. -/
  | aliased (n : Node)
  /-- An alias that can not be followed. -/
  | dangling (name : String)
deriving Inhabited, Repr

namespace Draft

mutual

/-- The node of a draft, given what the aliases in it stand for. -/
def toNode (follow : String → Node) : Draft → Node
  | .scalar _ tag text implicit => .scalar tag text implicit
  | .sequence _ items => .sequence (itemsToNodes follow items)
  | .mapping _ entries => .mapping (entriesToNodes follow entries)
  | .alias name => follow name

def itemsToNodes (follow : String → Node) : List Draft → List Node
  | [] => []
  | d :: rest => toNode follow d :: itemsToNodes follow rest

def entriesToNodes (follow : String → Node) : List (Draft × Draft) → List (Node × Node)
  | [] => []
  | (k, v) :: rest => (toNode follow k, toNode follow v) :: entriesToNodes follow rest

end

/-- Follows the aliases of a draft through at most `depth` others; `within` are the aliases that are
being followed. -/
def follow (anchors : List (String × Draft)) : (depth : Nat) → (within : List String) → Draft → Node
  | 0, _, d => d.toNode .dangling
  | depth + 1, within, d => d.toNode fun name =>
    if within.contains name then .dangling name
    else
      match anchors.lookup name with
      | some target => .aliased (follow anchors depth (name :: within) target)
      | none => .dangling name

end Draft

namespace Node

/-- The node behind the aliases. -/
def reached : Node → Node
  | .aliased n => n.reached
  | n => n

/-- The first document of a text; a text without any content has none. -/
def document? (text : String) : Except Error (Option Node) := do
  match ← Draft.document? text with
  | some d =>
    let anchors := d.anchors.reverse
    return some (d.follow anchors (anchors.length + 1) [])
  | none => return none

end Node

end Sessions.Yaml
