/-
This file proves that a graph which was read from the document of another one matches
it, node by node and link by link.

The nodes restore those of the original, and the same edges show both graphs. So
inputs are linked alike, the same fields are missing, and chains lead through the same
places; once readiness is up to date in both graphs it is the same.
-/

import Workflow.Proofs.Document.Copied
import Workflow.Proofs.Document.RoundTrip
import Workflow.Proofs.Document.Shown

namespace Workflow

/-- A node that differs from another one in nothing but its id, its place in documents, the ids of
links, the order of keys that are written as an object, and native values under links. -/
structure Node.Matches (before after : Node) : Prop extends before.Repeats after where
  inputs : before.SameInputs after
  complete : after.readiness.complete = before.readiness.complete
  chainComplete : after.readiness.chainComplete = before.readiness.chainComplete
  missing : ∀ field, field ∈ after.readiness.missing ↔ field ∈ before.readiness.missing

/-- A link that joins the same places of a list of nodes as another one does of another list, by
slots of the same names, and says the same besides. -/
structure Link.Matches (nodes copies : List Node) (link copy : Link) : Prop where
  ends : ∀ direction, ∃ (place : Nat) (node other : Node) (info same : SlotInfo),
    nodes[place]? = some node ∧ node.id = (link.endAt direction).1 ∧
    (node.slots direction)[(link.endAt direction).2]? = some info ∧
    copies[place]? = some other ∧ other.id = (copy.endAt direction).1 ∧
    (other.slots direction)[(copy.endAt direction).2]? = some same ∧
    same.internalName = info.internalName
  isLoop : copy.isLoop = link.isLoop
  data : copy.data = link.data
  extra : copy.extra = link.extra

/-- A graph whose nodes and links, in their order, match those that documents of another graph
hold. -/
structure Graph.Matches (before after : Graph) : Prop where
  nodes : List.Forall₂ Node.Matches before.documentNodes after.nodes
  links : List.Forall₂ (Link.Matches before.documentNodes after.nodes) before.links after.links

/-! ### Readiness aside -/

namespace Node

/-- Readiness plays no part in what is restored. -/
theorem Restores.of_readiness {blueprint : Blueprint} {withLayout : Bool} {before after : Node}
    (restores : before.Restores blueprint withLayout after) (readiness : Readiness) :
    before.Restores blueprint withLayout { after with readiness := readiness } where
  fits :=
    have retouches : after.Retouches { after with readiness := readiness } :=
      ⟨rfl, fun _ => rfl, fun _ => rfl, fun slot member => ⟨slot, member, rfl, Or.inl rfl⟩, rfl,
        rfl⟩
    retouches.fits restores.fits
  tagged := restores.tagged
  slots := restores.slots
  listed := restores.listed
  edits := restores.edits
  drawn := restores.drawn

end Node

namespace Graph

variable {registry : Registry} {withLayout : Bool} {base : Nat} {nodes : List Node}
  {edges : List EdgeEntry} {graph after : Graph}

/-- Refreshing changes nothing but the readiness of nodes. -/
theorem exists_nodes_refreshAll (graph : Graph) : ∃ readiness : Node → Readiness,
    graph.refreshAll.2.nodes = graph.nodes.map fun node =>
      { node with readiness := readiness node } := by
  let answers := (graph.refreshComplete graph.nodeIds).chainAnswers [] graph.nodeIds
  let marked (node : Node) := if graph.nodeIds.contains node.id then node.remarked else node
  have isMarked (node : Node) (readiness : Readiness) :
      { marked node with readiness := readiness } = { node with readiness := readiness } := by
    dsimp only [marked]
    split <;> rfl
  have isRechained (node : Node) : node.rechained answers =
      { node with readiness := (node.rechained answers).readiness } := by
    rw [Node.rechained]
    split <;> rfl
  refine ⟨fun node => ((marked node).rechained answers).readiness, ?_⟩
  show (graph.nodes.map marked).map (Node.rechained answers) = _
  rw [List.map_map]
  exact List.map_congr_left fun node _ => (isRechained (marked node)).trans (isMarked node _)

theorem Renews.refreshAll (renews : graph.Renews registry withLayout base nodes) :
    graph.refreshAll.2.Renews registry withLayout base nodes := by
  obtain ⟨readiness, refreshed⟩ := exists_nodes_refreshAll graph
  refine ⟨?_, fun place before after isBefore isAfter => ?_⟩
  · rw [refreshed, List.length_map, renews.length]
  · rw [refreshed, List.getElem?_map] at isAfter
    obtain ⟨made, isMade, rfl⟩ := Option.map_eq_some_iff.1 isAfter
    have renewed := renews.each place before made isBefore isMade
    refine ⟨renewed.id, renewed.order, renewed.shown, ?_⟩
    obtain ⟨blueprint, described, restores⟩ := renewed.restores
    exact ⟨blueprint, described, restores.of_readiness _⟩

/-- Readiness plays no part in edges. -/
theorem edge_refreshAll (graph : Graph) (link : Link) :
    edge graph.refreshAll.2.nodes link = edge graph.nodes link := by
  obtain ⟨readiness, refreshed⟩ := exists_nodes_refreshAll graph
  have ids (id : NodeId) : ((graph.nodes.map fun node =>
      { node with readiness := readiness node }).findIdx? fun node => node.id = id) =
        graph.nodes.findIdx? fun node => node.id = id := List.findIdx?_map
  rw [refreshed]
  simp only [edge, Option.bind_eq_bind, ids, List.getElem?_map, Option.bind_map, Function.comp_def]

/-! ### Links that match -/

theorem matches_of_edge {copies : List Node} {link copy : Link} {entry : EdgeEntry}
    (isEdge : edge nodes link = some entry) (isCopy : edge copies copy = some entry) :
    Link.Matches nodes copies link copy := by
  obtain ⟨origin, target, output, input, joins, originId, targetId, atOutput, atInput⟩ :=
    edge_cases isEdge
  obtain ⟨origin', target', output', input', joins', originId', targetId', atOutput', atInput'⟩ :=
    edge_cases isCopy
  obtain ⟨isLoop, data, extra⟩ := labels_of_edge isEdge
  obtain ⟨isLoop', data', extra'⟩ := labels_of_edge isCopy
  refine ⟨fun direction => ?_, isLoop'.symm.trans isLoop, data'.symm.trans data,
    extra'.symm.trans extra⟩
  cases direction with
  | output =>
    exact ⟨entry.source, origin, origin', output.info, output'.info, joins.isOrigin, originId,
      Node.getElem?_slots_output atOutput, joins'.isOrigin, originId',
      Node.getElem?_slots_output atOutput', joins'.sourceSlot.trans joins.sourceSlot.symm⟩
  | input =>
    exact ⟨entry.target, target, target', input.info, input'.info, joins.isTarget, targetId,
      Node.getElem?_slots_input atInput, joins'.isTarget, targetId',
      Node.getElem?_slots_input atInput', joins'.targetSlot.trans joins.targetSlot.symm⟩

theorem Shows.links_match {copies : List Node} (shows : graph.Shows nodes edges)
    (showsAfter : after.Shows copies edges) :
    List.Forall₂ (Link.Matches nodes copies) graph.links after.links := by
  have same := shows.links.trans showsAfter.links.symm
  have length := congrArg List.length same
  rw [List.length_map, List.length_map] at length
  refine List.forall₂_iff_get.2 ⟨length, fun place inRange inRange' => ?_⟩
  obtain ⟨entry, -, isEdge⟩ := shows.exists_edge (List.getElem_mem inRange)
  refine matches_of_edge isEdge ?_
  have listed := congrArg (·[place]?) same
  simp only [List.getElem?_map, List.getElem?_eq_getElem inRange,
    List.getElem?_eq_getElem inRange', Option.map_some, Option.some.injEq] at listed
  exact listed.symm.trans isEdge

/-! ### Nodes that match -/

section Nodes

variable (shows : graph.Shows nodes edges) (showsAfter : after.Shows after.nodes edges)
  (renews : after.Renews registry true base nodes) (unreserved : ∀ node ∈ nodes, node.Unreserved)

include shows showsAfter renews unreserved

theorem sameInputs_of_shows {place : Nat} {node copy : Node} (isNode : nodes[place]? = some node)
    (isCopy : after.nodes[place]? = some copy) : node.SameInputs copy := by
  obtain ⟨blueprint, described, restores⟩ := (renews.each place node copy isNode isCopy).restores
  refine restores.sameInputs described.sound described.parted described.fits
    (unreserved node (List.mem_of_getElem? isNode)) fun slot isSlot other isOther info => ?_
  rw [Bool.eq_iff_iff, shows.linked_iff isNode isSlot, showsAfter.linked_iff isCopy isOther, info]

theorem isComplete_of_shows {place : Nat} {node copy : Node} (isNode : nodes[place]? = some node)
    (isCopy : after.nodes[place]? = some copy) : copy.isComplete = node.isComplete := by
  obtain ⟨blueprint, described, restores⟩ := (renews.each place node copy isNode isCopy).restores
  exact (sameInputs_of_shows shows showsAfter renews unreserved isNode isCopy).isComplete_eq
    described.sound described.fits restores.fits

/-- Chains are complete alike, because they lead through the same places. -/
theorem chainComplete_of_shows {place : Nat} {node copy : Node} (isNode : nodes[place]? = some node)
    (isCopy : after.nodes[place]? = some copy) :
    after.ChainComplete copy.id ↔ graph.ChainComplete node.id := by
  rw [shows.chainComplete_iff isNode, showsAfter.chainComplete_iff isCopy]
  constructor
  · intro chain spot other isOther joined
    obtain ⟨same, isSame, -⟩ := renews.exists_node isOther
    rw [← isComplete_of_shows shows showsAfter renews unreserved isOther isSame]
    exact chain spot same isSame joined
  · intro chain spot same isSame joined
    obtain ⟨other, isOther, -⟩ := renews.exists_original isSame
    rw [isComplete_of_shows shows showsAfter renews unreserved isOther isSame]
    exact chain spot other isOther joined

/-- Where readiness is up to date, nodes made again from their entries match. -/
theorem matches_of_shows (current : graph.Current) (currentAfter : after.Current) {place : Nat}
    {node copy : Node} (isNode : nodes[place]? = some node)
    (isCopy : after.nodes[place]? = some copy) : node.Matches copy := by
  obtain ⟨blueprint, described, restores⟩ := (renews.each place node copy isNode isCopy).restores
  have inNodes := shows.subset (List.mem_of_getElem? isNode)
  have inCopies := List.mem_of_getElem? isCopy
  have inputs := sameInputs_of_shows shows showsAfter renews unreserved isNode isCopy
  obtain ⟨complete, missing⟩ := current.own node inNodes List.not_mem_nil
  obtain ⟨complete', missing'⟩ := currentAfter.own copy inCopies List.not_mem_nil
  have chain := current.chains node inNodes fun _ waits => absurd waits List.not_mem_nil
  have chain' := currentAfter.chains copy inCopies fun _ waits => absurd waits List.not_mem_nil
  refine ⟨restores.repeats_of_layout described.sound described.parted described.fits
    described.tagged (unreserved node (List.mem_of_getElem? isNode)), inputs, ?_, ?_,
    fun field => ?_⟩
  · rw [complete, complete',
      isComplete_of_shows shows showsAfter renews unreserved isNode isCopy]
  · exact Bool.eq_iff_iff.2 (chain'.trans
      ((chainComplete_of_shows shows showsAfter renews unreserved isNode isCopy).trans chain.symm))
  · rw [missing, missing']
    exact inputs.mem_missingFields_iff described.sound described.fits restores.fits

end Nodes

/-! ### Reading what was written -/

/-- The document of a graph that is up to date, without a node left out, is read as a graph that
matches once it is brought up to date as well. -/
theorem matches_importDocument (isRead : registry.IsRead) (tied : graph.Tied)
    (current : graph.Current) (shown : ∀ node ∈ graph.nodes, node.previewOnly = false)
    (described : ∀ node ∈ graph.documentNodes, ∃ blueprint, node.Described registry true blueprint)
    (unreserved : ∀ node ∈ graph.documentNodes, node.Unreserved) {options : ImportOptions}
    (layout : options.layout = true) (other : Graph) :
    graph.Matches (other.importDocument registry (graph.toDocument true)
      options).2.takeEvents.2.refreshAll.2 := by
  obtain ⟨base, start, importing, has, -, -, -, isImported⟩ :=
    exists_importing isRead tied described layout other
  rw [isImported]
  let read := importing.graph.takeEvents.2
  have tiedRead : read.Tied := has.tied.relabel _ _ _ _
  have edits : Edits Blueprint.Sound True read read.refreshAll.2 := edits_refreshAll read
  have renewsRead : read.Renews registry true base graph.documentNodes :=
    has.renews.of_unlinked rfl
  have renews := renewsRead.refreshAll
  have links : read.refreshAll.2.links.map (edge read.refreshAll.2.nodes) =
      (graph.toDocument true).edges.map some :=
    (List.map_congr_left fun link _ => edge_refreshAll read link).trans has.links
  have shows : graph.Shows graph.documentNodes (graph.toDocument true).edges :=
    shows_toDocument tied shown true fun node member =>
      (described node member).imp fun _ known => ⟨known.sound, known.fits⟩
  have showsRead := renews.shows (edits.tied tiedRead) links
  refine ⟨?_, shows.links_match showsRead⟩
  refine List.forall₂_iff_get.2 ⟨renews.length.symm, fun place inRange inRange' => ?_⟩
  exact matches_of_shows shows showsRead renews unreserved current (current_refreshAll tiedRead)
    (List.getElem?_eq_getElem inRange) (List.getElem?_eq_getElem inRange')

end Graph

end Workflow
