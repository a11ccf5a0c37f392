/-
This file proves that a list of nodes and the edges between them show all that the
readiness of a graph depends on.

The nodes are those of the graph in an order of their own, and there is one edge for
every link. An input is linked if an edge leads to it, a node feeds another one if an
edge joins their places, and so chains can be followed from place to place without
the ids of nodes and links.
-/

import Workflow.Proofs.Document.Nodes
import Workflow.Proofs.Document.Written
import Workflow.Proofs.Graph.Refresh

namespace Workflow.Graph

/-- Nodes in some order, and edges between them, that are all there is of a graph. -/
structure Shows (graph : Graph) (nodes : List Node) (edges : List EdgeEntry) : Prop where
  tied : graph.Tied
  listed : ∀ node, node ∈ nodes ↔ node ∈ graph.nodes
  distinct : (nodes.map Node.id).Nodup
  links : graph.links.map (edge nodes) = edges.map some
  fitted : ∀ node ∈ nodes, ∃ blueprint : Blueprint, blueprint.Sound ∧ node.Fits blueprint

/-- Nodes with different ids are at one place each. -/
theorem place_eq_of_id {nodes : List Node} (distinct : (nodes.map Node.id).Nodup) {place spot : Nat}
    {node other : Node} (isNode : nodes[place]? = some node) (isOther : nodes[spot]? = some other)
    (same : node.id = other.id) : place = spot := by
  have inRange : place < (nodes.map Node.id).length := by
    rw [List.length_map]
    exact (List.getElem?_eq_some_iff.1 isNode).1
  refine (List.getElem?_inj inRange distinct).1 ?_
  rw [List.getElem?_map, List.getElem?_map, isNode, isOther, Option.map_some, Option.map_some, same]

/-- The nodes of a document have different ids. -/
theorem Tied.nodup_documentNodes {graph : Graph} (tied : graph.Tied) :
    (graph.documentNodes.map Node.id).Nodup := by
  have sorted := List.mergeSort_perm (graph.nodes.filter fun node => !node.previewOnly)
    Node.comesBefore
  exact (sorted.map Node.id).nodup_iff.2
    (tied.nodup_nodeIds.sublist (List.filter_sublist.map Node.id))

/-- An edge joins two places of a list of nodes. -/
def Joined (edges : List EdgeEntry) (source target : Nat) : Prop :=
  ∃ entry ∈ edges, entry.source = source ∧ entry.target = target

namespace Shows

variable {graph : Graph} {nodes : List Node} {edges : List EdgeEntry} {place spot : Nat}
  {node other : Node}

theorem place_eq (shows : graph.Shows nodes edges) (isNode : nodes[place]? = some node)
    (isOther : nodes[spot]? = some other) (same : node.id = other.id) : place = spot :=
  place_eq_of_id shows.distinct isNode isOther same

theorem subset (shows : graph.Shows nodes edges) : nodes ⊆ graph.nodes :=
  fun node => (shows.listed node).1

theorem exists_edge (shows : graph.Shows nodes edges) {link : Link}
    (isLink : link ∈ graph.links) : ∃ entry ∈ edges, edge nodes link = some entry := by
  have listed := List.mem_map_of_mem (f := edge nodes) isLink
  rw [shows.links] at listed
  obtain ⟨entry, isEntry, same⟩ := List.mem_map.1 listed
  exact ⟨entry, isEntry, same.symm⟩

theorem exists_link (shows : graph.Shows nodes edges) {entry : EdgeEntry}
    (isEntry : entry ∈ edges) : ∃ link ∈ graph.links, edge nodes link = some entry := by
  have listed := List.mem_map_of_mem (f := some) isEntry
  rw [← shows.links] at listed
  exact List.mem_map.1 listed

/-- An input is linked if an edge leads to it. -/
theorem linked_iff (shows : graph.Shows nodes edges) (isNode : nodes[place]? = some node)
    {slot : InputSlot} (isInput : slot ∈ node.inputs) : slot.link.isSome = true ↔
      ∃ entry ∈ edges, entry.target = place ∧ entry.targetSlot = slot.info.internalName := by
  obtain ⟨spot, atSlot⟩ := List.mem_iff_getElem?.1 isInput
  constructor
  · intro linked
    obtain ⟨id, isLinked⟩ := Option.isSome_iff_exists.1 linked
    obtain ⟨link, isLink, -, atEnd⟩ := shows.tied.exists_link
      (shows.subset (List.mem_of_getElem? isNode)) (Node.getElem?_ports_input atSlot)
      (Option.mem_toList.2 isLinked)
    obtain ⟨sameNode, samePlace⟩ := Prod.mk.inj atEnd
    obtain ⟨entry, isEntry, isEdge⟩ := shows.exists_edge isLink
    obtain ⟨_, target, _, input, joins, -, targetId, -, atInput⟩ := edge_cases isEdge
    obtain rfl := shows.place_eq joins.isTarget isNode (targetId.trans sameNode)
    refine ⟨entry, isEntry, rfl, ?_⟩
    rw [← joins.targetSlot]
    rw [samePlace, Option.some.inj (joins.isTarget.symm.trans isNode), atSlot] at atInput
    rw [Option.some.inj atInput]
  · rintro ⟨entry, isEntry, rfl, name⟩
    obtain ⟨link, isLink, isEdge⟩ := shows.exists_link isEntry
    obtain ⟨_, target, _, input, joins, -, linked, atInput, -⟩ :=
      shows.tied.edge_cases shows.subset isLink isEdge
    obtain rfl := Option.some.inj (joins.isTarget.symm.trans isNode)
    obtain ⟨blueprint, sound, fits⟩ := shows.fitted target (List.mem_of_getElem? isNode)
    have same := (fits.place_eq_of_internalName sound (Node.getElem?_slots_input atSlot)
      (Node.getElem?_slots_input atInput) (name.symm.trans joins.targetSlot.symm)).2
    rw [same, atInput] at atSlot
    rw [← Option.some.inj atSlot, linked]
    rfl

/-- A node feeds another one if an edge joins their places. -/
theorem feeds_iff (shows : graph.Shows nodes edges) (isNode : nodes[place]? = some node)
    (isOther : nodes[spot]? = some other) :
    graph.Feeds node.id other.id ↔ Joined edges place spot := by
  constructor
  · rintro ⟨link, isLink, origin, target⟩
    obtain ⟨entry, isEntry, isEdge⟩ := shows.exists_edge isLink
    obtain ⟨_, _, _, _, joins, originId, targetId, -, -⟩ := edge_cases isEdge
    exact ⟨entry, isEntry, shows.place_eq joins.isOrigin isNode (originId.trans origin),
      shows.place_eq joins.isTarget isOther (targetId.trans target)⟩
  · rintro ⟨entry, isEntry, rfl, rfl⟩
    obtain ⟨link, isLink, isEdge⟩ := shows.exists_link isEntry
    obtain ⟨_, _, _, _, joins, originId, targetId, -, -⟩ := edge_cases isEdge
    obtain rfl := Option.some.inj (joins.isOrigin.symm.trans isNode)
    obtain rfl := Option.some.inj (joins.isTarget.symm.trans isOther)
    exact ⟨link, isLink, originId.symm, targetId.symm⟩

/-- Links lead from one node to another if edges lead from place to place. -/
theorem reaches_iff (shows : graph.Shows nodes edges) (isNode : nodes[place]? = some node)
    (isOther : nodes[spot]? = some other) :
    graph.Reaches node.id other.id ↔ Relation.ReflTransGen (Joined edges) place spot := by
  constructor
  · intro reaches
    generalize isId : node.id = id at reaches
    induction reaches using Relation.ReflTransGen.head_induction_on generalizing place node with
    | refl => rw [shows.place_eq isNode isOther isId]
    | head feeds _ inductionHypothesis =>
      obtain ⟨next, isNext, rfl⟩ := List.mem_map.1 (feeds.mem_nodeIds shows.tied).2
      obtain ⟨there, isThere⟩ := List.mem_iff_getElem?.1 ((shows.listed next).2 isNext)
      subst isId
      exact .head ((shows.feeds_iff isNode isThere).1 feeds) (inductionHypothesis isThere rfl)
  · intro joined
    induction joined using Relation.ReflTransGen.head_induction_on generalizing node with
    | refl =>
      rw [Option.some.inj (isNode.symm.trans isOther)]
      exact .refl
    | head step _ inductionHypothesis =>
      obtain ⟨entry, isEntry, -, rfl⟩ := id step
      obtain ⟨link, isLink, isEdge⟩ := shows.exists_link isEntry
      obtain ⟨_, next, _, _, joins, -⟩ := edge_cases isEdge
      exact .head ((shows.feeds_iff isNode joins.isTarget).2 step)
        (inductionHypothesis joins.isTarget)

/-- The chain of a node is complete if the nodes at all places that edges lead from are. -/
theorem chainComplete_iff (shows : graph.Shows nodes edges) (isNode : nodes[place]? = some node) :
    graph.ChainComplete node.id ↔ ∀ spot other, nodes[spot]? = some other →
      Relation.ReflTransGen (Joined edges) spot place → other.isComplete = true := by
  constructor
  · intro chain spot other isOther joined
    exact chain other (shows.subset (List.mem_of_getElem? isOther))
      ((shows.reaches_iff isOther isNode).2 joined)
  · intro chain other isOther reaches
    obtain ⟨spot, atPlace⟩ := List.mem_iff_getElem?.1 ((shows.listed other).2 isOther)
    exact chain spot other atPlace ((shows.reaches_iff atPlace isNode).1 reaches)

end Shows

/-! ### Graphs that are shown -/

/-- A graph whose nodes were made for entries is shown by them in their order. -/
theorem Renews.shows {registry : Registry} {withLayout : Bool} {base : Nat} {originals : List Node}
    {graph : Graph} {edges : List EdgeEntry}
    (renews : graph.Renews registry withLayout base originals) (tied : graph.Tied)
    (links : graph.links.map (edge graph.nodes) = edges.map some) :
    graph.Shows graph.nodes edges where
  tied := tied
  listed _ := Iff.rfl
  distinct := tied.nodup_nodeIds
  links := links
  fitted node member := by
    obtain ⟨place, isNode⟩ := List.mem_iff_getElem?.1 member
    obtain ⟨_, -, renewed⟩ := renews.exists_original isNode
    obtain ⟨blueprint, described, restores⟩ := renewed.restores
    exact ⟨blueprint, described.sound, restores.fits⟩

variable {graph : Graph} (tied : graph.Tied)

include tied

/-- An end of a link at a node that is not left out is at a place of the document. -/
theorem exists_place {link : Link} (isLink : link ∈ graph.links) {direction : Direction}
    (shown : ∀ node ∈ graph.nodes, node.id = (link.endAt direction).1 → node.previewOnly = false) :
    ∃ (place : Nat) (node : Node) (port : Port),
      (graph.documentNodes.findIdx? fun node => node.id = (link.endAt direction).1) = some place ∧
      graph.documentNodes[place]? = some node ∧
      (node.ports direction)[(link.endAt direction).2]? = some port := by
  obtain ⟨port, found⟩ := tied.exists_endPort isLink direction
  obtain ⟨node, isNode, isPort⟩ := Option.bind_eq_some_iff.1 found
  obtain ⟨inNodes, isId⟩ := mem_of_node? isNode
  have inDocument : node ∈ graph.documentNodes :=
    mem_documentNodes.2 ⟨inNodes, shown node inNodes isId⟩
  obtain ⟨place, isPlace⟩ : ∃ place, (graph.documentNodes.findIdx? fun node =>
      node.id = (link.endAt direction).1) = some place := by
    rw [← Option.isSome_iff_exists, List.findIdx?_isSome, List.any_eq_true]
    exact ⟨node, inDocument, decide_eq_true isId⟩
  obtain ⟨inRange, sameId, -⟩ := List.findIdx?_eq_some_iff_getElem.1 isPlace
  have listed := node?_of_mem tied.nodesAscend (documentNodes_subset (List.getElem_mem inRange))
  rw [of_decide_eq_true sameId, isNode] at listed
  refine ⟨place, node, port, isPlace, ?_, isPort⟩
  rw [List.getElem?_eq_getElem inRange, Option.some.inj listed]

/-- A link between nodes that are not left out is written. -/
theorem exists_edge_of_shown {link : Link} (isLink : link ∈ graph.links)
    (shown : ∀ direction, ∀ node ∈ graph.nodes,
      node.id = (link.endAt direction).1 → node.previewOnly = false) :
    ∃ entry, edge graph.documentNodes link = some entry := by
  obtain ⟨source, origin, output, isSource, isOrigin, isOutput⟩ :=
    exists_place tied isLink (shown .output)
  obtain ⟨target, consumer, input, isTarget, isConsumer, isInput⟩ :=
    exists_place tied isLink (shown .input)
  rw [show origin.ports .output = origin.outputs.map OutputSlot.port from rfl,
    List.getElem?_map] at isOutput
  rw [show consumer.ports .input = consumer.inputs.map InputSlot.port from rfl,
    List.getElem?_map] at isInput
  obtain ⟨_, isOutput, -⟩ := Option.map_eq_some_iff.1 isOutput
  obtain ⟨_, isInput, -⟩ := Option.map_eq_some_iff.1 isInput
  exact ⟨_, edge_eq_some isSource isTarget isOrigin isConsumer isOutput isInput⟩

/-- The document of a graph shows it if no node is left out. -/
theorem shows_toDocument (shown : ∀ node ∈ graph.nodes, node.previewOnly = false)
    (withLayout : Bool)
    (fitted : ∀ node ∈ graph.documentNodes, ∃ blueprint : Blueprint,
      blueprint.Sound ∧ node.Fits blueprint) :
    graph.Shows graph.documentNodes (graph.toDocument withLayout).edges where
  tied := tied
  listed node := mem_documentNodes.trans (and_iff_left_of_imp (shown node))
  distinct := tied.nodup_documentNodes
  links := by
    rw [tied.edges_eq, List.map_filterMap, ← List.filterMap_eq_map]
    refine List.filterMap_congr fun link isLink => ?_
    obtain ⟨entry, isEdge⟩ := exists_edge_of_shown tied isLink fun _ node member _ =>
      shown node member
    rw [Function.comp_apply, isEdge]
    rfl
  fitted := fitted

end Workflow.Graph
