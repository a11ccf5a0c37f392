/-
This file looks at the slots of both sides of a node in one way.

A port is a slot without what only one side has: the part it takes over from its
field, and the ids of the links it refers to, at most one of them on an input. A
link has one end on each side. What a change does to a graph is said here by what
it does to finding nodes and ports, and to the ids of the links that end at a slot.
-/

import Mathlib.Data.List.Basic
import Workflow.Graph.MultiSlot

namespace Workflow

/-- In a list with ascending numbers, a search that only accepts the number of an item finds it. -/
theorem find?_of_ascending {Item : Type} {number : Item → Nat} {items : List Item}
    (ascend : items.Pairwise fun first second => number first < number second) {item : Item}
    (member : item ∈ items) {wanted : Item → Bool} (found : wanted item = true)
    (only : ∀ other, wanted other = true → number other = number item) :
    items.find? wanted = some item := by
  obtain ⟨before, after, rfl⟩ := List.append_of_mem member
  refine List.find?_eq_some_iff_append.2 ⟨found, before, after, rfl, fun earlier inBefore => ?_⟩
  have less := (List.pairwise_append.1 ascend).2.2 earlier inBefore item List.mem_cons_self
  cases accepted : wanted earlier with
  | false => rfl
  | true =>
    have same := only earlier accepted
    omega

/-- The name and the type of an input follow from its information. -/
theorem InputSlot.eq_of_parts {first second : InputSlot} (info : first.info = second.info)
    (link : first.link = second.link) (native : first.native = second.native) :
    first = second := by
  obtain ⟨_, _, _, _, _, rfl, rfl⟩ := first
  obtain ⟨_, _, _, _, _, rfl, rfl⟩ := second
  cases info
  cases link
  cases native
  rfl

/-- The name and the type of an output follow from its information. -/
theorem OutputSlot.eq_of_parts {first second : OutputSlot} (info : first.info = second.info)
    (links : first.links = second.links) : first = second := by
  obtain ⟨_, _, _, _, rfl, rfl⟩ := first
  obtain ⟨_, _, _, _, rfl, rfl⟩ := second
  cases info
  cases links
  rfl

/-- A slot of either side. -/
structure Port where
  info : SlotInfo
  /-- The links that the slot refers to, in order. -/
  links : List LinkId

def InputSlot.port (slot : InputSlot) : Port := ⟨slot.info, slot.link.toList⟩

def OutputSlot.port (slot : OutputSlot) : Port := ⟨slot.info, slot.links⟩

/-- The ports of one side of a node. -/
def Node.ports (node : Node) : Direction → List Port
  | .input => node.inputs.map InputSlot.port
  | .output => node.outputs.map OutputSlot.port

theorem Node.ports_map_info (node : Node) (direction : Direction) :
    (node.ports direction).map Port.info = node.slots direction := by
  cases direction <;> simp only [Node.ports, Node.slots, List.map_map] <;> rfl

/-! ### Slots at places -/

section Places

variable {node : Node} {place : Nat}

theorem Node.getElem?_slots_input {input : InputSlot} (isInput : node.inputs[place]? = some input) :
    (node.slots .input)[place]? = some input.info :=
  (List.getElem?_map ..).trans (congrArg (Option.map InputSlot.info) isInput)

theorem Node.getElem?_slots_output {output : OutputSlot}
    (isOutput : node.outputs[place]? = some output) :
    (node.slots .output)[place]? = some output.info :=
  (List.getElem?_map ..).trans (congrArg (Option.map OutputSlot.info) isOutput)

theorem Node.getElem?_ports_input {input : InputSlot} (isInput : node.inputs[place]? = some input) :
    (node.ports .input)[place]? = some input.port :=
  (List.getElem?_map ..).trans (congrArg (Option.map InputSlot.port) isInput)

theorem Node.getElem?_ports_output {output : OutputSlot}
    (isOutput : node.outputs[place]? = some output) :
    (node.ports .output)[place]? = some output.port :=
  (List.getElem?_map ..).trans (congrArg (Option.map OutputSlot.port) isOutput)

end Places

/-- The end of a link on one side: a node and the place of a slot. -/
def Link.endAt (link : Link) : Direction → NodeId × Nat
  | .input => (link.target, link.targetSlot)
  | .output => (link.origin, link.originSlot)

namespace Graph

theorem endsAt_iff (id : NodeId) (direction : Direction) (place : Nat) (link : Link) :
    endsAt id direction place link = true ↔ link.endAt direction = (id, place) := by
  cases direction <;> simp [endsAt, Link.endAt]

/-- The port at a place of a node. -/
def port? (graph : Graph) (id : NodeId) (direction : Direction) (place : Nat) : Option Port :=
  (graph.node? id).bind fun node => (node.ports direction)[place]?

/-- The ids of the links that end at a slot, in order. -/
def idsAt (graph : Graph) (id : NodeId) (direction : Direction) (place : Nat) : List LinkId :=
  (graph.links.filter (endsAt id direction place)).map Link.id

theorem mem_idsAt {graph : Graph} {id : NodeId} {direction : Direction} {place : Nat}
    {link : LinkId} :
    link ∈ graph.idsAt id direction place ↔
      ∃ stored ∈ graph.links, stored.endAt direction = (id, place) ∧ stored.id = link := by
  simp only [idsAt, List.mem_map, List.mem_filter, endsAt_iff, and_assoc]

/-! ### Finding nodes -/

theorem mem_of_node? {graph : Graph} {id : NodeId} {node : Node}
    (found : graph.node? id = some node) : node ∈ graph.nodes ∧ node.id = id := by
  refine ⟨List.mem_of_find?_eq_some found, ?_⟩
  simpa using List.find?_some found

theorem isSome_node?_iff {graph : Graph} {id : NodeId} :
    (graph.node? id).isSome = true ↔ id ∈ graph.nodeIds := by
  rw [node?, List.find?_isSome, nodeIds, List.mem_map]
  simp only [decide_eq_true_eq]

/-- Among nodes with ascending ids a node is what its id finds. -/
theorem node?_of_mem {graph : Graph}
    (ascend : graph.nodeIds.Pairwise fun first second => first.number < second.number)
    {node : Node} (member : node ∈ graph.nodes) : graph.node? node.id = some node := by
  rw [nodeIds, List.pairwise_map] at ascend
  exact find?_of_ascending ascend member (by simp) fun other same =>
    congrArg NodeId.number (of_decide_eq_true same)

theorem link?_of_mem {graph : Graph}
    (ascend : graph.links.Pairwise fun first second => first.id.number < second.id.number)
    {link : Link} (member : link ∈ graph.links) : graph.link? link.id = some link :=
  find?_of_ascending ascend member (by simp) fun other same =>
    congrArg LinkId.number (of_decide_eq_true same)

theorem mem_of_link? {graph : Graph} {id : LinkId} {link : Link}
    (found : graph.link? id = some link) : link ∈ graph.links ∧ link.id = id := by
  refine ⟨List.mem_of_find?_eq_some found, ?_⟩
  simpa using List.find?_some found

/-! ### Changing nodes -/

/-- The graph with every node changed by a function. -/
def mapNodes (graph : Graph) (change : Node → Node) : Graph :=
  { graph with nodes := graph.nodes.map change }

theorem modifyNode_eq_mapNodes (graph : Graph) (id : NodeId) (change : Node → Node) :
    graph.modifyNode id change =
      graph.mapNodes fun node => if node.id = id then change node else node := rfl

/-- What a change keeps of every node stays as it is in the graph. -/
theorem map_mapNodes {Part : Type} (part : Node → Part) (graph : Graph) {change : Node → Node}
    (keeps : ∀ node, part (change node) = part node) :
    (graph.mapNodes change).nodes.map part = graph.nodes.map part := by
  rw [mapNodes, List.map_map]
  exact List.map_congr_left fun node _ => keeps node

theorem map_modifyNode {Part : Type} (part : Node → Part) (graph : Graph) (id : NodeId)
    {change : Node → Node} (keeps : ∀ node, part (change node) = part node) :
    (graph.modifyNode id change).nodes.map part = graph.nodes.map part := by
  refine map_mapNodes part graph fun node => ?_
  split
  · exact keeps node
  · rfl

theorem nodeIds_mapNodes (graph : Graph) (change : Node → Node)
    (keeps : ∀ node, (change node).id = node.id) :
    (graph.mapNodes change).nodeIds = graph.nodeIds := map_mapNodes Node.id graph keeps

theorem nodeIds_modifyNode (graph : Graph) (id : NodeId) (change : Node → Node)
    (keeps : ∀ node, (change node).id = node.id) :
    (graph.modifyNode id change).nodeIds = graph.nodeIds := map_modifyNode Node.id graph id keeps

theorem node?_mapNodes (graph : Graph) (change : Node → Node)
    (keeps : ∀ node, (change node).id = node.id) (id : NodeId) :
    (graph.mapNodes change).node? id = (graph.node? id).map change := by
  simp only [Graph.node?, mapNodes, List.find?_map]
  congr 2
  funext node
  simp [keeps node]

theorem node?_modifyNode (graph : Graph) (id other : NodeId) (change : Node → Node)
    (keeps : ∀ node, (change node).id = node.id) :
    (graph.modifyNode id change).node? other =
      (graph.node? other).map fun node => if other = id then change node else node := by
  rw [modifyNode_eq_mapNodes, node?_mapNodes]
  · cases found : graph.node? other with
    | none => rfl
    | some node => rw [Option.map_some, Option.map_some, (mem_of_node? found).2]
  · intro node
    split
    · exact keeps node
    · rfl

theorem node?_modifyNode_self {graph : Graph} {id : NodeId} {node : Node}
    (isNode : graph.node? id = some node) {change : Node → Node}
    (keeps : ∀ node, (change node).id = node.id) :
    (graph.modifyNode id change).node? id = some (change node) := by
  rw [node?_modifyNode graph id id change keeps, isNode, Option.map_some, if_pos rfl]

theorem port?_modifyNode (graph : Graph) (id other : NodeId) (change : Node → Node)
    (keeps : ∀ node, (change node).id = node.id) (direction : Direction) (place : Nat) :
    (graph.modifyNode id change).port? other direction place =
      if other = id then
        (graph.node? other).bind fun node => ((change node).ports direction)[place]?
      else graph.port? other direction place := by
  rw [port?, node?_modifyNode graph id other change keeps, Option.bind_map]
  split <;> rfl

end Graph

end Workflow
