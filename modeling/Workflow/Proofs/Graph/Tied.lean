/-
This file proves that the elementary changes of a graph keep its links and its
slots in step.

A graph is tied if every slot refers to exactly the links that end at it, in their
order, and both ends of every link are slots of types that fit. Ids ascend and stay
below the counters, so a new id is one that nothing in the graph refers to. The
elementary changes are those that the operations of graphs are made of: nodes
revised in place, a node or a link added or taken away, and a slot without links
erased, after which the places behind it move down on the node and in the links
alike.
-/

import Workflow.Proofs.Graph.Port

namespace Workflow

/-- A port keeps its type and its links; what it is called may change. -/
def Port.Keeps (before after : Port) : Prop :=
  after.links = before.links ∧ after.info.rawType = before.info.rawType

/-- A node keeps its slots, and may gain some that have no links. -/
structure Node.Extends (before after : Node) : Prop where
  kept : ∀ (direction : Direction) (place : Nat) (port : Port),
    (before.ports direction)[place]? = some port →
    ∃ same : Port, (after.ports direction)[place]? = some same ∧ port.Keeps same
  gained : ∀ (direction : Direction) (place : Nat) (port : Port),
    (before.ports direction)[place]? = none →
    (after.ports direction)[place]? = some port → port.links = []

namespace Graph

/-- The port at the end of a link on one side. -/
def endPort? (graph : Graph) (link : Link) (direction : Direction) : Option Port :=
  graph.port? (link.endAt direction).1 direction (link.endAt direction).2

/-- Slots and links refer to each other, and ids ascend below the counters. -/
structure Tied (graph : Graph) : Prop where
  nodesAscend : graph.nodeIds.Pairwise fun first second => first.number < second.number
  linksAscend : graph.links.Pairwise fun first second => first.id.number < second.id.number
  nodesCounted : ∀ id ∈ graph.nodeIds, id.number < graph.nextNode
  linksCounted : ∀ link ∈ graph.links, link.id.number < graph.nextLink
  ends : ∀ link ∈ graph.links, ∃ output input,
    graph.endPort? link .output = some output ∧ graph.endPort? link .input = some input ∧
      compatible output.info.rawType input.info.rawType = true
  references : ∀ id direction place port, graph.port? id direction place = some port →
    port.links = graph.idsAt id direction place

namespace Tied

variable {graph : Graph}

theorem empty : Tied {} where
  nodesAscend := List.Pairwise.nil
  linksAscend := List.Pairwise.nil
  nodesCounted := by simp [nodeIds]
  linksCounted := by simp
  ends := by simp
  references := by simp [port?, node?]

theorem exists_endPort (tied : graph.Tied) {link : Link} (member : link ∈ graph.links)
    (direction : Direction) : ∃ port, graph.endPort? link direction = some port := by
  obtain ⟨output, input, isOutput, isInput, -⟩ := tied.ends link member
  cases direction with
  | input => exact ⟨input, isInput⟩
  | output => exact ⟨output, isOutput⟩

/-- No link ends where there is no slot. -/
theorem idsAt_eq_nil (tied : graph.Tied) {id : NodeId} {direction : Direction} {place : Nat}
    (absent : graph.port? id direction place = none) : graph.idsAt id direction place = [] := by
  rw [List.eq_nil_iff_forall_not_mem]
  intro link member
  obtain ⟨stored, inLinks, atEnd, -⟩ := mem_idsAt.1 member
  obtain ⟨port, found⟩ := tied.exists_endPort inLinks direction
  rw [endPort?, atEnd, absent] at found
  cases found

theorem link_eq_of_id (tied : graph.Tied) {first second : Link} (memberFirst : first ∈ graph.links)
    (memberSecond : second ∈ graph.links) (same : first.id = second.id) : first = second := by
  have found := link?_of_mem tied.linksAscend memberFirst
  rw [same, link?_of_mem tied.linksAscend memberSecond] at found
  exact (Option.some.inj found).symm

theorem nodup_nodeIds (tied : graph.Tied) : graph.nodeIds.Nodup := by
  refine tied.nodesAscend.imp fun less same => ?_
  rw [same] at less
  exact Nat.lt_irrefl _ less

theorem port?_of_mem (tied : graph.Tied) {node : Node} (member : node ∈ graph.nodes)
    (direction : Direction) (place : Nat) :
    graph.port? node.id direction place = (node.ports direction)[place]? := by
  rw [port?, node?_of_mem tied.nodesAscend member]
  rfl

/-- What a slot refers to is a link that ends there. -/
theorem exists_link (tied : graph.Tied) {node : Node} (member : node ∈ graph.nodes)
    {direction : Direction} {place : Nat} {port : Port}
    (isPort : (node.ports direction)[place]? = some port) {id : LinkId} (refers : id ∈ port.links) :
    ∃ link ∈ graph.links, link.id = id ∧ link.endAt direction = (node.id, place) := by
  rw [tied.references node.id direction place port
    ((tied.port?_of_mem member direction place).trans isPort)] at refers
  obtain ⟨link, isLink, atEnd, same⟩ := mem_idsAt.1 refers
  exact ⟨link, isLink, same, atEnd⟩

/-- The input that a link feeds names this link. -/
theorem link_of_input (tied : graph.Tied) {link : Link} (member : link ∈ graph.links)
    {input : InputSlot}
    (isInput : graph.port? link.target .input link.targetSlot = some input.port) :
    input.link = some link.id := by
  have named : link.id ∈ input.port.links := by
    rw [tied.references _ _ _ _ isInput]
    exact mem_idsAt.2 ⟨link, member, rfl, rfl⟩
  exact Option.mem_toList.1 named

/-- A link whose ends are carried over from a link of a tied graph, with the types of their slots,
has ends that fit. -/
theorem ends_of_carried (tied : graph.Tied) {after : Graph} {before link : Link}
    (member : before ∈ graph.links)
    (carried : ∀ direction port, graph.endPort? before direction = some port → ∃ same,
      after.endPort? link direction = some same ∧ same.info.rawType = port.info.rawType) :
    ∃ output input, after.endPort? link .output = some output ∧
      after.endPort? link .input = some input ∧
      compatible output.info.rawType input.info.rawType = true := by
  obtain ⟨output, input, wasOutput, wasInput, fits⟩ := tied.ends before member
  obtain ⟨sameOutput, isOutput, outputType⟩ := carried .output output wasOutput
  obtain ⟨sameInput, isInput, inputType⟩ := carried .input input wasInput
  refine ⟨sameOutput, sameInput, isOutput, isInput, ?_⟩
  rw [outputType, inputType]
  exact fits

/-! ### Nodes revised in place -/

theorem mapNodes (tied : graph.Tied) {change : Node → Node}
    (keeps : ∀ node, (change node).id = node.id)
    (extended : ∀ node ∈ graph.nodes, node.Extends (change node)) :
    (graph.mapNodes change).Tied := by
  have kept : ∀ id direction place port, graph.port? id direction place = some port →
      ∃ same, (graph.mapNodes change).port? id direction place = some same ∧
        port.Keeps same := by
    intro id direction place port found
    simp only [port?, node?_mapNodes graph change keeps] at found ⊢
    obtain ⟨node, foundNode, atPlace⟩ := Option.bind_eq_some_iff.1 found
    rw [foundNode]
    exact (extended node (mem_of_node? foundNode).1).kept direction place port atPlace
  have gained : ∀ id direction place port, graph.port? id direction place = none →
      (graph.mapNodes change).port? id direction place = some port → port.links = [] := by
    intro id direction place port absent found
    simp only [port?, node?_mapNodes graph change keeps] at absent found
    obtain ⟨after, foundAfter, atPlace⟩ := Option.bind_eq_some_iff.1 found
    obtain ⟨node, foundNode, rfl⟩ := Option.map_eq_some_iff.1 foundAfter
    rw [foundNode] at absent
    exact (extended node (mem_of_node? foundNode).1).gained direction place port absent atPlace
  have ids := nodeIds_mapNodes graph change keeps
  refine ⟨ids ▸ tied.nodesAscend, tied.linksAscend, ids ▸ tied.nodesCounted, tied.linksCounted,
    ?_, ?_⟩
  · refine fun link member => tied.ends_of_carried member fun direction port found => ?_
    obtain ⟨same, isSame, -, rawType⟩ := kept _ direction _ port found
    exact ⟨same, isSame, rawType⟩
  · intro id direction place after found
    cases foundBefore : graph.port? id direction place with
    | none =>
      exact (gained id direction place after foundBefore found).trans
        (tied.idsAt_eq_nil foundBefore).symm
    | some before =>
      obtain ⟨same, isSame, links, -⟩ := kept id direction place before foundBefore
      rw [found] at isSame
      cases isSame
      exact links.trans (tied.references id direction place before foundBefore)

/-- What a graph remembers besides nodes, links and counters plays no part. -/
theorem relabel (tied : graph.Tied) (seed : Seed) (events : List Event) (kind : Option String)
    (metadata : Object) :
    Tied { graph with seed := seed, events := events, kind := kind, metadata := metadata } :=
  ⟨tied.nodesAscend, tied.linksAscend, tied.nodesCounted, tied.linksCounted, tied.ends,
    tied.references⟩

/-- Links may be changed in all but their ids and their ends. -/
theorem mapLinks (tied : graph.Tied) {change : Link → Link}
    (keepsId : ∀ link, (change link).id = link.id)
    (keepsEnds : ∀ link direction, (change link).endAt direction = link.endAt direction) :
    Tied { graph with links := graph.links.map change } := by
  refine ⟨tied.nodesAscend, ?_, tied.nodesCounted, ?_, ?_, ?_⟩
  · refine List.pairwise_map.2 (tied.linksAscend.imp fun {first second} less => ?_)
    rw [keepsId first, keepsId second]
    exact less
  · intro link member
    obtain ⟨before, inLinks, rfl⟩ := List.mem_map.1 member
    rw [keepsId before]
    exact tied.linksCounted before inLinks
  · intro link member
    obtain ⟨before, inLinks, rfl⟩ := List.mem_map.1 member
    refine tied.ends_of_carried inLinks fun direction port found => ⟨port, ?_, rfl⟩
    rw [endPort?, keepsEnds before direction]
    exact found
  · intro id direction place port found
    have sameEnds : endsAt id direction place ∘ change = endsAt id direction place := by
      funext link
      rw [Function.comp_apply, Bool.eq_iff_iff, endsAt_iff, endsAt_iff, keepsEnds]
    rw [tied.references id direction place port found]
    simp only [idsAt, List.filter_map, List.map_map, sameEnds]
    exact List.map_congr_left fun link _ => (keepsId link).symm

end Tied

/-! ### Nodes added and taken away -/

theorem node?_addNode (graph : Graph) (make : NodeId → Node) (id : NodeId)
    (fresh : (make ⟨graph.nextNode⟩).id = ⟨graph.nextNode⟩) :
    (graph.addNode make).2.node? id =
      (graph.node? id).or
        (if ⟨graph.nextNode⟩ = id then some (make ⟨graph.nextNode⟩) else none) := by
  simp only [addNode, record, node?, List.find?_append, List.find?_singleton, fresh,
    decide_eq_true_eq]

/-- A node whose slots have no links can be added. -/
theorem Tied.addNode {graph : Graph} (tied : graph.Tied) {make : NodeId → Node}
    (fresh : (make ⟨graph.nextNode⟩).id = ⟨graph.nextNode⟩)
    (unlinked : ∀ direction, ∀ port ∈ (make ⟨graph.nextNode⟩).ports direction, port.links = []) :
    (graph.addNode make).2.Tied := by
  have found (id : NodeId) := node?_addNode graph make id fresh
  have ids : (graph.addNode make).2.nodeIds = graph.nodeIds ++ [⟨graph.nextNode⟩] := by
    rw [← fresh]
    exact List.map_append
  refine ⟨?_, tied.linksAscend, ?_, tied.linksCounted, ?_, ?_⟩
  · rw [ids, List.pairwise_append]
    refine ⟨tied.nodesAscend, List.pairwise_singleton _ _, fun id member added isAdded => ?_⟩
    rw [List.mem_singleton.1 isAdded]
    exact tied.nodesCounted id member
  · intro id member
    rw [ids] at member
    rcases List.mem_append.1 member with old | added
    · exact Nat.lt_succ_of_lt (tied.nodesCounted id old)
    · rw [List.mem_singleton.1 added]
      exact Nat.lt_succ_self _
  · refine fun link member => tied.ends_of_carried member fun direction port isPort => ?_
    obtain ⟨node, isNode, atPlace⟩ := Option.bind_eq_some_iff.1 isPort
    refine ⟨port, ?_, rfl⟩
    rw [endPort?, port?, found, isNode]
    exact atPlace
  · intro id direction place port isPort
    show port.links = graph.idsAt id direction place
    cases old : graph.node? id with
    | some node =>
      refine tied.references id direction place port ?_
      rw [port?, found id, old] at isPort
      rw [port?, old]
      exact isPort
    | none =>
      rw [tied.idsAt_eq_nil (by rw [port?, old]; rfl)]
      rw [port?, found id, old, Option.none_or] at isPort
      split at isPort
      · exact unlinked direction port (List.mem_of_getElem? isPort)
      · cases isPort

/-- The graph without the nodes of an id. -/
def dropNode (graph : Graph) (id : NodeId) : Graph :=
  { graph with nodes := graph.nodes.filter fun node => node.id ≠ id }

theorem node?_dropNode (graph : Graph) (id other : NodeId) :
    (graph.dropNode id).node? other = if other = id then none else graph.node? other := by
  simp only [dropNode, node?, List.find?_filter]
  split
  · next same =>
    rw [List.find?_eq_none]
    intro node _
    simp [same]
  · next different =>
    congr 1
    funext node
    by_cases same : node.id = other
    · simp [same, different]
    · simp [same]

/-- A node that no link touches can be taken away. -/
theorem Tied.dropNode {graph : Graph} (tied : graph.Tied) {id : NodeId}
    (untouched : ∀ link ∈ graph.links, ∀ direction, (link.endAt direction).1 ≠ id) :
    (graph.dropNode id).Tied := by
  have fewer : (graph.dropNode id).nodeIds.Sublist graph.nodeIds := List.filter_sublist.map _
  refine ⟨tied.nodesAscend.sublist fewer, tied.linksAscend,
    fun other member => tied.nodesCounted other (fewer.mem member), tied.linksCounted, ?_, ?_⟩
  · refine fun link member => tied.ends_of_carried member fun direction port isPort => ?_
    refine ⟨port, ?_, rfl⟩
    rw [endPort?, port?, node?_dropNode, if_neg (untouched link member direction)]
    exact isPort
  · intro other direction place port isPort
    rw [port?, node?_dropNode] at isPort
    split at isPort
    · cases isPort
    · exact tied.references other direction place port isPort

theorem Tied.clear {graph : Graph} : graph.clear.Tied where
  nodesAscend := List.Pairwise.nil
  linksAscend := List.Pairwise.nil
  nodesCounted := by simp [Graph.clear, record, nodeIds]
  linksCounted := by simp [Graph.clear, record]
  ends := by simp [Graph.clear, record]
  references := by simp [Graph.clear, record, port?, node?]

end Graph

end Workflow
