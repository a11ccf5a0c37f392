/-
This file says what a document holds of a tied graph.

Its nodes are nodes of the graph, and its edges are the links between them, in the
order of their ids. Both ends of an edge are slots that the document can name, of
types that fit, and no input has two edges.
-/

import Workflow.Document.Export
import Workflow.Proofs.Graph.Tied
import Workflow.Proofs.Node.Names

namespace Workflow

/-- An edge between slots of listed nodes. -/
structure EdgeEntry.Joins (nodes : List Node) (edge : EdgeEntry) (origin target : Node)
    (output : OutputSlot) (input : InputSlot) : Prop where
  type : edge.type = defaultEdgeType
  isOrigin : nodes[edge.source]? = some origin
  isTarget : nodes[edge.target]? = some target
  isOutput : output ∈ origin.outputs
  isInput : input ∈ target.inputs
  sourceSlot : output.info.internalName = edge.sourceSlot
  targetSlot : input.info.internalName = edge.targetSlot

/-- An edge between slots of types that fit. -/
def EdgeEntry.Fits (nodes : List Node) (edge : EdgeEntry) : Prop :=
  ∃ origin target output input, edge.Joins nodes origin target output input ∧
    compatible output.info.rawType input.info.rawType = true

/-- Whether two edges lead to the same input. -/
def EdgeEntry.Meets (first second : EdgeEntry) : Prop :=
  first.target = second.target ∧ first.targetSlot = second.targetSlot

namespace Graph

/-! ### Edges of links -/

/-- An edge is written for a link between two slots of listed nodes. -/
theorem edge_cases {nodes : List Node} {link : Link} {entry : EdgeEntry}
    (isEdge : edge nodes link = some entry) : ∃ origin target output input,
      entry.Joins nodes origin target output input ∧
      origin.id = link.origin ∧ target.id = link.target ∧
      origin.outputs[link.originSlot]? = some output ∧
      target.inputs[link.targetSlot]? = some input := by
  unfold edge at isEdge
  simp only [Option.bind_eq_bind, Option.bind_eq_some_iff, Option.some.injEq] at isEdge
  obtain ⟨source, isSource, target, isTarget, origin, isOrigin, consumer, isConsumer, output,
    isOutput, input, isInput, rfl⟩ := isEdge
  obtain ⟨inRange, sourceId, -⟩ := List.findIdx?_eq_some_iff_getElem.1 isSource
  obtain ⟨inRange', targetId, -⟩ := List.findIdx?_eq_some_iff_getElem.1 isTarget
  refine ⟨origin, consumer, output, input, ⟨rfl, isOrigin, isConsumer,
    List.mem_of_getElem? isOutput, List.mem_of_getElem? isInput, rfl, rfl⟩, ?_, ?_, isOutput,
    isInput⟩
  · rw [List.getElem?_eq_getElem inRange] at isOrigin
    rw [← Option.some.inj isOrigin]
    exact of_decide_eq_true sourceId
  · rw [List.getElem?_eq_getElem inRange'] at isConsumer
    rw [← Option.some.inj isConsumer]
    exact of_decide_eq_true targetId

/-- What an edge says besides its ends is what the link says. -/
theorem labels_of_edge {nodes : List Node} {link : Link} {entry : EdgeEntry}
    (isEdge : edge nodes link = some entry) :
    entry.isLoop = link.isLoop ∧ entry.data = link.data ∧ entry.extra = link.extra := by
  unfold edge at isEdge
  simp only [Option.bind_eq_bind, Option.bind_eq_some_iff, Option.some.injEq] at isEdge
  obtain ⟨_, -, _, -, _, -, _, -, _, -, _, -, rfl⟩ := isEdge
  exact ⟨rfl, rfl, rfl⟩

/-- The edge of a link between two slots of listed nodes. -/
theorem edge_eq_some {nodes : List Node} {link : Link} {source target : Nat}
    {origin consumer : Node} {output : OutputSlot} {input : InputSlot}
    (isSource : (nodes.findIdx? fun node => node.id = link.origin) = some source)
    (isTarget : (nodes.findIdx? fun node => node.id = link.target) = some target)
    (isOrigin : nodes[source]? = some origin) (isConsumer : nodes[target]? = some consumer)
    (isOutput : origin.outputs[link.originSlot]? = some output)
    (isInput : consumer.inputs[link.targetSlot]? = some input) :
    edge nodes link = some
      { source := source
        target := target
        sourceSlot := output.info.internalName
        targetSlot := input.info.internalName
        isLoop := link.isLoop
        data := link.data
        extra := link.extra } := by
  simp only [edge, Option.bind_eq_bind, isSource, isTarget, isOrigin, isConsumer, isOutput, isInput,
    Option.bind_some]

/-- Edges do not depend on what slots refer to. -/
theorem edge_unlinked (nodes : List Node) (link : Link) :
    edge (nodes.map Node.unlinked) link = edge nodes link := by
  have ids (id : NodeId) : ((nodes.map Node.unlinked).findIdx? fun node => node.id = id) =
      nodes.findIdx? fun node => node.id = id := List.findIdx?_map
  simp only [edge, Option.bind_eq_bind, ids, List.getElem?_map, Option.bind_map, Function.comp_def,
    Node.unlinked]

/-! ### Documents of tied graphs -/

variable {graph : Graph}

theorem mem_documentNodes {node : Node} :
    node ∈ graph.documentNodes ↔ node ∈ graph.nodes ∧ node.previewOnly = false := by
  rw [documentNodes, List.mem_mergeSort, List.mem_filter, Bool.not_eq_true']

theorem documentNodes_subset : graph.documentNodes ⊆ graph.nodes :=
  fun _ member => (mem_documentNodes.1 member).1

/-- The document of a graph lists the entries of its nodes at their places. -/
theorem getElem?_nodes_toDocument {place : Nat} {node : Node} (withLayout : Bool)
    (isNode : graph.documentNodes[place]? = some node) :
    (graph.toDocument withLayout).nodes[place]? = some (node.entry withLayout) := by
  show (graph.documentNodes.map fun node => node.entry withLayout)[place]? = _
  rw [List.getElem?_map, isNode, Option.map_some]

/-- Nodes that are numbered in their order are all written in it, unless some are left out. -/
theorem documentNodes_eq_nodes (shown : ∀ node ∈ graph.nodes, node.previewOnly = false)
    (orders : ∀ (place : Nat) node, graph.nodes[place]? = some node → node.order = some place) :
    graph.documentNodes = graph.nodes := by
  have all : (graph.nodes.filter fun node => !node.previewOnly) = graph.nodes := by
    refine List.filter_eq_self.2 fun node member => ?_
    rw [shown node member]
    rfl
  rw [documentNodes, all]
  refine List.mergeSort_of_pairwise (List.pairwise_iff_getElem.2 ?_)
  intro place spot inRange inRange' less
  have first := orders place _ (List.getElem?_eq_getElem inRange)
  have second := orders spot _ (List.getElem?_eq_getElem inRange')
  rw [Node.comesBefore, first, second]
  exact decide_eq_true (Or.inl less)

/-- Links are written in their order. -/
theorem Tied.edges_eq (tied : graph.Tied) (withLayout : Bool) :
    (graph.toDocument withLayout).edges = graph.links.filterMap (edge graph.documentNodes) := by
  refine congrArg (List.filterMap (edge graph.documentNodes)) (List.mergeSort_of_pairwise ?_)
  exact tied.linksAscend.imp fun less => decide_eq_true (Nat.le_of_lt less)

/-- What is known of the link of an edge between nodes of the graph. -/
theorem Tied.edge_cases (tied : graph.Tied) {nodes : List Node} (listed : nodes ⊆ graph.nodes)
    {link : Link} (isLink : link ∈ graph.links) {entry : EdgeEntry}
    (isEdge : edge nodes link = some entry) : ∃ origin target output input,
      entry.Joins nodes origin target output input ∧
      compatible output.info.rawType input.info.rawType = true ∧ input.link = some link.id ∧
      target.inputs[link.targetSlot]? = some input ∧ target.id = link.target := by
  obtain ⟨origin, target, output, input, joins, originId, targetId, atOutput, atInput⟩ :=
    Graph.edge_cases isEdge
  have isOrigin := listed (List.mem_of_getElem? joins.isOrigin)
  have isTarget := listed (List.mem_of_getElem? joins.isTarget)
  have outputPort : graph.port? link.origin .output link.originSlot = some output.port := by
    rw [← originId, tied.port?_of_mem isOrigin]
    exact Node.getElem?_ports_output atOutput
  have inputPort : graph.port? link.target .input link.targetSlot = some input.port := by
    rw [← targetId, tied.port?_of_mem isTarget]
    exact Node.getElem?_ports_input atInput
  obtain ⟨outputEnd, inputEnd, isOutputEnd, isInputEnd, fits⟩ := tied.ends link isLink
  obtain rfl := Option.some.inj (outputPort.symm.trans isOutputEnd)
  obtain rfl := Option.some.inj (inputPort.symm.trans isInputEnd)
  exact ⟨origin, target, output, input, joins, fits, tied.link_of_input isLink inputPort, atInput,
    targetId⟩

/-- No two edges lead to the same input. -/
theorem Tied.pairwise_edges (tied : graph.Tied)
    (fitted : ∀ node ∈ graph.documentNodes, ∃ blueprint : Blueprint,
      blueprint.Sound ∧ node.Fits blueprint) :
    (graph.links.filterMap (edge graph.documentNodes)).Pairwise fun first second =>
      ¬ first.Meets second := by
  rw [List.pairwise_filterMap]
  refine tied.linksAscend.imp_of_mem fun {first second} isFirst isSecond less => ?_
  rintro one isOne other isOther ⟨sameTarget, sameSlot⟩
  obtain ⟨_, target, _, input, joins, -, linked, atInput, -⟩ :=
    tied.edge_cases documentNodes_subset isFirst isOne
  obtain ⟨_, target', _, input', joins', -, linked', atInput', -⟩ :=
    tied.edge_cases documentNodes_subset isSecond isOther
  have isTarget := joins.isTarget
  rw [sameTarget, joins'.isTarget] at isTarget
  cases isTarget
  obtain ⟨blueprint, sound, fits⟩ := fitted target (List.mem_of_getElem? joins.isTarget)
  have samePlace := (fits.place_eq_of_internalName sound (Node.getElem?_slots_input atInput)
    (Node.getElem?_slots_input atInput')
    (joins.targetSlot.trans (sameSlot.trans joins'.targetSlot.symm))).2
  rw [samePlace, atInput'] at atInput
  rw [← Option.some.inj atInput, linked'] at linked
  rw [Option.some.inj linked] at less
  exact Nat.lt_irrefl _ less

end Graph

end Workflow
