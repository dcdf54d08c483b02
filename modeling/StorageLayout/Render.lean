import StorageLayout.Slot
import StorageLayout.Text.Ansi
import StorageLayout.TypeReference

/-!
# Layouts as Text

The tree that is shown on a terminal: a line for every node, children two columns further in.

A line shows the name, the place and the type. The place is slot and offset where they are known,
otherwise the id of the node. Every line but those at the margin begins with a dash.

## Main definitions

* `padding`: What a line begins with.
* `columns`: The columns that a value asks to indent by.
* `placeOf`: The place of a node.
* `renderForest`: The lines of a layout.
-/

namespace StorageLayout.Render

/-- What a line begins with: as many spaces as it is indented, and a dash unless it stands at the
margin. -/
def padding (indent : Int) : String :=
  String.ofList (List.replicate indent.toNat ' ') ++ (if indent = 0 then "" else "- ")

/-- The least number that is too great for a signed word of 64 bits. -/
def wordBound : Int := 0x8000000000000000

/-- The columns that a value asks to indent by. Truth values count as one and zero, and a number
that does not fit into a signed word of 64 bits cannot be asked for. -/
def columns (v : Json) : Except Error Int :=
  match v with
  | .int n => if -wordBound ≤ n ∧ n < wordBound then .ok n else Defect.tooGreat.fail
  | .bool b => .ok (if b then 1 else 0)
  | _ => Defect.wrongKind.fail

/-- The place of a node: slot and offset, or the id, or nothing. -/
def placeOf (hexSlots : Bool) (facts : Facts) : Except Error String :=
  if !facts.slot.isNull then do
    let slot ← if hexSlots then Slot.hexOfValue facts.slot else facts.slot.shown
    let offset ← facts.offset.shown
    return s!"[{slot}:{offset}]"
  else if !facts.id.isNull then do
    let id ← facts.id.shown
    return s!"[{id}]"
  else .ok ""

/-- The line of a node. -/
def line (hexSlots : Bool) (indent : Int) (facts : Facts) : Except Error String := do
  let place ← placeOf hexSlots facts
  let name ← facts.name.shown
  let type ← facts.typeName.shown
  return s!"{padding indent}{Text.paint .yellow name} {place}[{Text.paint .brightMagenta type}]"

mutual

/-- The lines of a node and of all below it. -/
def renderNode (hexSlots : Bool) (indent : Int) : TypeReference → Except Error (List String)
  | .node facts none => do
    let own ← line hexSlots indent facts
    return [own]
  | .node facts (some children) => do
    let own ← line hexSlots indent facts
    let below ← renderForest hexSlots (indent + 2) children
    return own :: below

/-- The lines of a layout. -/
def renderForest (hexSlots : Bool) (indent : Int) :
    List TypeReference → Except Error (List String)
  | [] => .ok []
  | t :: rest => do
    let first ← renderNode hexSlots indent t
    let others ← renderForest hexSlots indent rest
    return first ++ others

end

/-- The lines of a layout whose roots are indented as a value says. Without a root nothing is
indented and the value is not looked at. -/
def renderFrom (hexSlots : Bool) (indent : Json) (layout : List TypeReference) :
    Except Error (List String) :=
  if layout.isEmpty then .ok []
  else do
    let indent ← columns indent
    renderForest hexSlots indent layout

end StorageLayout.Render
