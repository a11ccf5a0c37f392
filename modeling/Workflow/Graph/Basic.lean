/-
This file holds graphs of nodes and links, and the changes that leave the slots of
nodes where they are.

A link joins an output of one node to an input of another one or the same. The link
knows the places of both slots, the output lists the link and the input names it;
every change here keeps the three in step. Ids count upwards and are never used
again. Changes that cannot be made give a reason or nothing instead of a graph.
-/

import Workflow.Graph.Event
import Workflow.Graph.Node
import Workflow.Schema.Compatible

namespace Workflow

/-- A link from an output to an input. -/
structure Link where
  id : LinkId
  origin : NodeId
  /-- The place of the output at the origin. -/
  originSlot : Nat
  target : NodeId
  /-- The place of the input at the target. -/
  targetSlot : Nat
  /-- The link closes a loop; this only matters to drawings. -/
  isLoop : Bool := false
  data : Option Json := none
  extra : Option Json := none

/-- A graph, with the events that were not taken yet. -/
structure Graph where
  nodes : List Node := []
  links : List Link := []
  nextNode : Nat := 1
  nextLink : Nat := 1
  /-- The seed of the identifiers that are minted for nodes. -/
  seed : Seed := 0
  events : List Event := []
  /-- The type of the document that the graph was read from. -/
  kind : Option String := none
  /-- What the document held besides nodes and edges. -/
  metadata : Object := []

/-- Why two slots cannot be linked. -/
inductive ConnectError where
  | nodeNotFound (node : NodeId)
  | slotOutOfRange (node : NodeId) (direction : Direction) (slot : Nat)
  | incompatibleTypes (producer consumer : String)
  | slotOccupied (node : NodeId) (slot : Nat) (link : LinkId)

def ConnectError.message : ConnectError → String
  | nodeNotFound node => "Node not found: " ++ node.name
  | slotOutOfRange node direction slot =>
    direction.title ++ " slot " ++ toString slot ++ " out of range on " ++ node.name
  | incompatibleTypes producer consumer =>
    "Incompatible types: " ++ producer ++ " -> " ++ consumer
  | slotOccupied node slot link =>
    "Input slot " ++ toString slot ++ " on " ++ node.name ++ " already linked by " ++ link.name

namespace Graph

/-- The graph with one more event. -/
def record (graph : Graph) (event : Event) : Graph :=
  { graph with events := graph.events ++ [event] }

/-- The node of an id. -/
def node? (graph : Graph) (id : NodeId) : Option Node := graph.nodes.find? fun node => node.id = id

/-- The link of an id. -/
def link? (graph : Graph) (id : LinkId) : Option Link := graph.links.find? fun link => link.id = id

/-- The ids of the nodes, in order. -/
def nodeIds (graph : Graph) : List NodeId := graph.nodes.map Node.id

/-- The graph with the node of an id changed. -/
def modifyNode (graph : Graph) (id : NodeId) (change : Node → Node) : Graph :=
  { graph with nodes := graph.nodes.map fun node => if node.id = id then change node else node }

/-- The graph with the link of an id changed. -/
def modifyLink (graph : Graph) (id : LinkId) (change : Link → Link) : Graph :=
  { graph with links := graph.links.map fun link => if link.id = id then change link else link }

/-- The links that feed a node, in order. -/
def linksInto (graph : Graph) (id : NodeId) : List Link :=
  graph.links.filter fun link => link.target = id

/-- The links that leave a node, in order. -/
def linksFrom (graph : Graph) (id : NodeId) : List Link :=
  graph.links.filter fun link => link.origin = id

/-- The nodes that feed a node, once for every link. -/
def producers (graph : Graph) (id : NodeId) : List NodeId := (graph.linksInto id).map Link.origin

/-- The nodes that a node feeds, once for every link. -/
def consumers (graph : Graph) (id : NodeId) : List NodeId := (graph.linksFrom id).map Link.target

/-! ### Nodes -/

/-- The graph with a node added under the next id. -/
def addNode (graph : Graph) (make : NodeId → Node) : NodeId × Graph :=
  let id : NodeId := ⟨graph.nextNode⟩
  let added := { graph with nodes := graph.nodes ++ [make id], nextNode := graph.nextNode + 1 }
  (id, added.record (.nodeCreated id))

/-- The graph with a node of a model added. -/
def createNode (graph : Graph) (modelRef : String) (model : Model) (fragment : Object) :
    NodeId × Graph :=
  graph.addNode fun id => Node.ofModel graph.seed id modelRef model fragment

/-- The graph with a primitive node added. -/
def createPrimitive (graph : Graph) (kind : NativeKind) (value : Json) : NodeId × Graph :=
  graph.addNode fun id => Node.primitive id kind value

/-! ### Links -/

/-- The graph without a link, whose ends no longer refer to it. -/
def dropLink (graph : Graph) (link : Link) : Graph :=
  let detached := { graph with links := graph.links.filter fun other => other.id ≠ link.id }
  let freedOutput := detached.modifyNode link.origin fun node =>
    { node with
      outputs := node.outputs.modify link.originSlot fun slot =>
        { slot with links := slot.links.filter (· ≠ link.id) } }
  let freedInput := freedOutput.modifyNode link.target fun node =>
    { node with
      inputs := node.inputs.modify link.targetSlot fun slot =>
        { slot with link := if slot.link = some link.id then none else slot.link } }
  freedInput.record (.linkRemoved link.id link.origin link.target)

/-- Removes the link of an id. -/
def disconnect (graph : Graph) (id : LinkId) : Option (Link × Graph) :=
  (graph.link? id).map fun link => (link, graph.dropLink link)

/-- The graph with a link added under the next id. -/
def addLink (graph : Graph) (origin : NodeId) (originSlot : Nat) (target : NodeId)
    (targetSlot : Nat) : LinkId × Graph :=
  let id : LinkId := ⟨graph.nextLink⟩
  let link : Link :=
    { id := id
      origin := origin
      originSlot := originSlot
      target := target
      targetSlot := targetSlot }
  let linked := { graph with links := graph.links ++ [link], nextLink := graph.nextLink + 1 }
  let atOrigin := linked.modifyNode origin fun node =>
    { node with
      outputs := node.outputs.modify originSlot fun slot =>
        { slot with links := slot.links ++ [id] } }
  let atTarget := atOrigin.modifyNode target fun node =>
    { node with
      inputs := node.inputs.modify targetSlot fun slot => { slot with link := some id } }
  (id, atTarget.record (.linkCreated id origin target))

/-- Links an output to an input. The input must be free and the types must fit; a node may be linked
to itself, and links may form cycles. -/
def connect (graph : Graph) (origin : NodeId) (originSlot : Nat) (target : NodeId)
    (targetSlot : Nat) : Except ConnectError (LinkId × Graph) :=
  match graph.node? origin with
  | none => .error (.nodeNotFound origin)
  | some originNode =>
    match graph.node? target with
    | none => .error (.nodeNotFound target)
    | some targetNode =>
      match originNode.outputs[originSlot]? with
      | none => .error (.slotOutOfRange origin .output originSlot)
      | some output =>
        match targetNode.inputs[targetSlot]? with
        | none => .error (.slotOutOfRange target .input targetSlot)
        | some input =>
          if !compatible output.rawType input.rawType then
            .error (.incompatibleTypes output.rawType input.rawType)
          else
            match input.link with
            | some link => .error (.slotOccupied target targetSlot link)
            | none => .ok (graph.addLink origin originSlot target targetSlot)

/-- Removes a node after the links that touch it, in their order. The node comes back as it was once
its links were gone. -/
def removeNode (graph : Graph) (id : NodeId) : Option (Node × Graph) :=
  let incident := graph.links.filter fun link => link.origin = id ∨ link.target = id
  let isolated := incident.foldl dropLink graph
  (isolated.node? id).map fun node =>
    let removed := { isolated with nodes := isolated.nodes.filter fun other => other.id ≠ id }
    (node, removed.record (.nodeRemoved id))

/-- The graph without nodes, links, kind and metadata; ids go on counting. -/
def clear (graph : Graph) : Graph :=
  { graph with nodes := [], links := [], kind := none, metadata := [] }.record .graphCleared

/-! ### Values -/

/-- Edits the native value of an input. -/
def setInput (graph : Graph) (id : NodeId) (slot : Nat) (value : Json) : Option Graph :=
  match (graph.node? id).bind fun node => (node.inputs[slot]?).bind InputSlot.native with
  | none => none
  | some _ =>
    let edited := graph.modifyNode id fun node =>
      { node with
        inputs := node.inputs.modify slot fun input =>
          { input with
            native := input.native.map fun native =>
              { native with value := value, explicit := true } } }
    some (edited.record (.fieldChanged id slot))

/-- Replaces a constant. -/
def setConstant (graph : Graph) (id : NodeId) (field : String) (value : Json) : Option Graph :=
  if (graph.node? id).any fun node => node.constants.contains field then
    let edited := graph.modifyNode id fun node =>
      { node with constants := node.constants.insert field value }
    some (edited.record (.constantChanged id field))
  else none

/-- Replaces the value of a primitive node. -/
def setPrimitive (graph : Graph) (id : NodeId) (value : Json) : Option Graph :=
  if (graph.node? id).any Node.isPrimitive then graph.setConstant id primitiveValueField value
  else none

/-- Moves a node. -/
def setPosition (graph : Graph) (id : NodeId) (position : Point) : Option Graph :=
  if (graph.node? id).isSome then
    let moved := graph.modifyNode id fun node => { node with position := position }
    some (moved.record (.layoutChanged id))
  else none

/-- Marks a node as left out of documents, or takes the mark away. -/
def setPreviewOnly (graph : Graph) (id : NodeId) (previewOnly : Bool) : Option Graph :=
  if (graph.node? id).isSome then
    some (graph.modifyNode id fun node => { node with previewOnly := previewOnly })
  else none

/-- The events not taken yet, and the graph without them. -/
def takeEvents (graph : Graph) : List Event × Graph := (graph.events, { graph with events := [] })

end Graph

end Workflow
