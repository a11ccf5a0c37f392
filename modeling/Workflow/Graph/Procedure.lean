/-
This file holds the operations of graphs as procedures that change a graph in place.

They look things up, count up, link, unlink and record in the order in which callers
would see it happen, so a procedure that gives up late leaves what it did before.
-/

import Workflow.Graph.MultiSlot
import Workflow.Procedure

namespace Workflow.Graph.Procedure

section Changes

variable {Problem : Type}

/-- Changes the node of an id. -/
def changeNode (id : NodeId) (change : Node → Node) : EStateM Problem Graph Unit :=
  modify fun graph => graph.modifyNode id change

/-- Records an event. -/
def record (event : Event) : EStateM Problem Graph Unit := modify fun graph => graph.record event

/-- Takes the next id for a link. -/
def takeLinkId : EStateM Problem Graph LinkId := do
  let graph ← get
  set { graph with nextLink := graph.nextLink + 1 }
  return ⟨graph.nextLink⟩

end Changes

/-! ### Links and nodes -/

/-- Adds a node of a model. -/
def createNode {Problem : Type} (modelRef : String) (model : Model) (fragment : Object) :
    EStateM Problem Graph NodeId := do
  let graph ← get
  let (id, added) := graph.createNode modelRef model fragment
  set added
  return id

/-- Links an output to an input that is free and whose type fits. -/
def connect (origin : NodeId) (originSlot : Nat) (target : NodeId) (targetSlot : Nat) :
    EStateM ConnectError Graph LinkId := do
  let graph ← get
  let originNode ← require (.nodeNotFound origin) (graph.node? origin)
  let targetNode ← require (.nodeNotFound target) (graph.node? target)
  let output ← require (.slotOutOfRange origin .output originSlot) originNode.outputs[originSlot]?
  let input ← require (.slotOutOfRange target .input targetSlot) targetNode.inputs[targetSlot]?
  refuse (!compatible output.rawType input.rawType)
    (.incompatibleTypes output.rawType input.rawType)
  forbid (.slotOccupied target targetSlot) input.link
  let id ← takeLinkId
  modify fun graph =>
    { graph with links := graph.links ++ [{ id, origin, originSlot, target, targetSlot }] }
  changeNode origin fun node =>
    { node with
      outputs := node.outputs.modify originSlot fun slot =>
        { slot with links := slot.links ++ [id] } }
  changeNode target fun node =>
    { node with
      inputs := node.inputs.modify targetSlot fun slot => { slot with link := some id } }
  record (.linkCreated id origin target)
  return id

/-- Removes the link of an id. -/
def disconnect (id : LinkId) : EStateM Unit Graph Link := do
  let graph ← get
  let link ← require () (graph.link? id)
  set { graph with links := graph.links.filter fun other => other.id ≠ id }
  changeNode link.origin fun node =>
    { node with
      outputs := node.outputs.modify link.originSlot fun slot =>
        { slot with links := slot.links.filter (· ≠ id) } }
  changeNode link.target fun node =>
    { node with
      inputs := node.inputs.modify link.targetSlot fun slot =>
        { slot with link := if slot.link = some id then none else slot.link } }
  record (.linkRemoved id link.origin link.target)
  return link

/-- Removes links one after the other. -/
def disconnectAll {Problem : Type} : List LinkId → EStateM Problem Graph Unit
  | [] => pure ()
  | id :: rest => do
    attempt (disconnect id)
    disconnectAll rest

/-- Removes a node after the links that touch it. -/
def removeNode (id : NodeId) : EStateM Unit Graph Node := do
  let graph ← get
  refuse ((graph.node? id).isNone) ()
  disconnectAll ((graph.links.filter fun link => link.origin = id ∨ link.target = id).map Link.id)
  let isolated ← get
  let node ← require () (isolated.node? id)
  set { isolated with nodes := isolated.nodes.filter fun other => other.id ≠ id }
  record (.nodeRemoved id)
  return node

/-! ### Values -/

/-- Edits the native value of an input. -/
def setInput (id : NodeId) (slot : Nat) (value : Json) : EStateM Unit Graph Unit := do
  let graph ← get
  let _ ← require () ((graph.node? id).bind fun node => (node.inputs[slot]?).bind InputSlot.native)
  changeNode id fun node =>
    { node with
      inputs := node.inputs.modify slot fun input =>
        { input with
          native := input.native.map fun native =>
            { native with value := value, explicit := true } } }
  record (.fieldChanged id slot)

/-- Replaces a constant. -/
def setConstant (id : NodeId) (field : String) (value : Json) : EStateM Unit Graph Unit := do
  let graph ← get
  refuse (!(graph.node? id).any fun node => node.constants.contains field) ()
  changeNode id fun node => { node with constants := node.constants.insert field value }
  record (.constantChanged id field)

/-- Replaces the value of a primitive node. -/
def setPrimitive (id : NodeId) (value : Json) : EStateM Unit Graph Unit := do
  let graph ← get
  refuse (!(graph.node? id).any Node.isPrimitive) ()
  setConstant id primitiveValueField value

/-- Moves a node. -/
def setPosition (id : NodeId) (position : Point) : EStateM Unit Graph Unit := do
  let graph ← get
  refuse ((graph.node? id).isNone) ()
  changeNode id fun node => { node with position := position }
  record (.layoutChanged id)

/-- Marks a node as left out of documents, or takes the mark away. -/
def setPreviewOnly (id : NodeId) (previewOnly : Bool) : EStateM Unit Graph Unit := do
  let graph ← get
  refuse ((graph.node? id).isNone) ()
  changeNode id fun node => { node with previewOnly := previewOnly }

/-! ### Keys -/

/-- Adds a key to a field, and tells the place of its slot. -/
def addKey (id : NodeId) (field key : String) : EStateM SlotEditError Graph Nat := do
  let key := trimKey key
  refuse key.isEmpty .emptyKey
  let graph ← get
  let (node, direction, places) ← demand (graph.multiField id field)
  forbid (fun _ => .duplicateKey key) (node.placeOfKey? direction places key)
  let first ← require (.notMultiField field) places.head?
  let template ← require (.notMultiField field) (node.slots direction)[first]?
  if places.tail.isEmpty ∧ template.key.isNone then
    changeNode id fun node => node.rekey direction first key
    record (.slotsChanged id field)
    return first
  else
    changeNode id fun node => node.appendSlot direction field { template with key := some key }
    record (.slotsChanged id field)
    return (node.slots direction).length

/-- Removes a key of a field with its slot and the links of the slot. -/
def removeKey (id : NodeId) (field key : String) : EStateM SlotEditError Graph Unit := do
  let graph ← get
  let (node, direction, places) ← demand (graph.multiField id field)
  refuse (places.length ≤ 1) (.lastSlot field)
  let place ← require (.keyNotFound key) (node.placeOfKey? direction places key)
  disconnectAll ((graph.links.filter (endsAt id direction place)).map Link.id)
  modify fun graph => graph.removeSlot id direction place
  changeNode id fun node => node.dropKeyedValue field key
  record (.slotsChanged id field)

/-- Changes a key of a field; the links of its slot stay. -/
def renameKey (id : NodeId) (field key newKey : String) : EStateM SlotEditError Graph Unit := do
  let newKey := trimKey newKey
  refuse newKey.isEmpty .emptyKey
  let graph ← get
  let (node, direction, places) ← demand (graph.multiField id field)
  let place ← require (.keyNotFound key) (node.placeOfKey? direction places key)
  if newKey = key then return
  forbid (fun _ => .duplicateKey newKey) (node.placeOfKey? direction places newKey)
  changeNode id fun node => node.moveKeyedValue field key newKey
  changeNode id fun node => node.rekey direction place newKey
  record (.slotsChanged id field)

end Workflow.Graph.Procedure
