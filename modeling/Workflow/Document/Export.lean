/-
This file writes graphs as documents.

Nodes come in the order of the document they were read from, others after them in
the order of their creation. Nodes marked as preview-only are left out together with
their edges. Of native values only those that were given or edited are written, and
only where no link feeds the input.
-/

import Workflow.Document.Basic
import Workflow.Graph.Basic

namespace Workflow

/-- Members of a node entry that are never values of fields. -/
def reservedFields : List String := [typeTagField, "extra"]

/-- The values of fields with one more, unless its name is reserved. -/
def putField (fields : Object) (entry : String × Json) : Object :=
  if reservedFields.contains entry.1 then fields else fields.insert entry.1 entry.2

namespace Node

/-- The type under which a document refers to the node's model: its type tag, or else the name. -/
def documentType (node : Node) : String :=
  ((node.constants.get? typeTagField).bind Json.text?).getD node.modelName

/-- The keys of the slots at given places. -/
def keysAt (slots : List SlotInfo) (places : List Nat) : List String :=
  places.filterMap fun place => (slots[place]?).bind SlotInfo.key

/-- The keys of a field as written: an object if a document gave them so, or else a list. -/
def keysValue (node : Node) (field : String) (keys : List String) : Json :=
  match node.keyedValues.get? field with
  | some values =>
    .object (Object.ofList (keys.map fun key => (key, (Object.get? values key).getD .null)))
  | none => .array (keys.map .string)

/-- The keys of the fields of one side that have any, as written. -/
def keyFields (node : Node) (direction : Direction) : List (String × Json) :=
  (node.multiSlots direction).entries.filterMap fun (field, places) =>
    let keys := keysAt (node.slots direction) places
    if keys.isEmpty then none else some (field, node.keysValue field keys)

/-- The native value of an input that a document has to mention. -/
def nativeField (slot : InputSlot) : Option (String × Json) :=
  match slot.native with
  | some native =>
    if native.explicit ∧ slot.link.isNone then some (slot.info.field, native.value) else none
  | none => none

/-- All values of fields that a document has to mention; of equal names the last counts. -/
def documentFields (node : Node) : List (String × Json) :=
  node.annotations.entries ++ node.constants.entries ++ node.keyFields .input ++
    node.keyFields .output ++ node.inputs.filterMap nativeField

/-- How the node is drawn, with or without its place and size. -/
def appearance (node : Node) (withLayout : Bool) : Appearance where
  position := if withLayout then some node.position else none
  size := if withLayout then some node.size else none
  title := node.title
  name := node.displayName
  color := node.color
  others := node.extra

/-- The entry of the node in a document. -/
def entry (node : Node) (withLayout : Bool) : NodeEntry :=
  let bare := !withLayout && node.title.isNone && node.displayName.isNone && node.color.isNone &&
    node.extra.isEmpty
  { type := node.documentType
    appearance := if bare then none else some (node.appearance withLayout)
    fields := node.documentFields.foldl putField [] }

/-- Whether a node comes no later than another one in documents. -/
def comesBefore (first second : Node) : Bool :=
  match first.order, second.order with
  | some a, some b => a < b ∨ (a = b ∧ first.id.number ≤ second.id.number)
  | some _, none => true
  | none, some _ => false
  | none, none => first.id.number ≤ second.id.number

end Node

namespace Graph

/-- The nodes that a document holds, in order. -/
def documentNodes (graph : Graph) : List Node :=
  (graph.nodes.filter fun node => !node.previewOnly).mergeSort Node.comesBefore

/-- The edge of a link between nodes of a document. -/
def edge (nodes : List Node) (link : Link) : Option EdgeEntry := do
  let source ← nodes.findIdx? fun node => node.id = link.origin
  let target ← nodes.findIdx? fun node => node.id = link.target
  let origin ← nodes[source]?
  let consumer ← nodes[target]?
  let output ← origin.outputs[link.originSlot]?
  let input ← consumer.inputs[link.targetSlot]?
  some
    { source := source
      target := target
      sourceSlot := output.info.internalName
      targetSlot := input.info.internalName
      isLoop := link.isLoop
      data := link.data
      extra := link.extra }

/-- The document of a graph, with or without places and sizes of nodes. -/
def toDocument (graph : Graph) (withLayout : Bool) : Document :=
  let nodes := graph.documentNodes
  let links := graph.links.mergeSort fun first second => first.id.number ≤ second.id.number
  { kind := graph.kind.getD defaultDocumentType
    nodes := nodes.map fun node => node.entry withLayout
    edges := links.filterMap (edge nodes)
    metadata := graph.metadata }

end Graph

end Workflow
