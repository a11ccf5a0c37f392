/-
This file reads the edges of a document into a graph whose nodes are there again.

The slots of an edge are found by their names, and the input is free because no
earlier edge leads to it. So every edge makes one link, and that link is written as
the edge it was read from.
-/

import Workflow.Proofs.Document.Nodes
import Workflow.Proofs.Document.Written

namespace Workflow

variable {registry : Registry} {withLayout : Bool} {base : Nat} {originals : List Node}
  {graph : Graph}

namespace Graph

/-! ### One edge -/

theorem connect_eq_ok {origin target : NodeId} {originSlot targetSlot : Nat}
    {originNode targetNode : Node} {output : OutputSlot} {input : InputSlot}
    (isOrigin : graph.node? origin = some originNode)
    (isTarget : graph.node? target = some targetNode)
    (isOutput : originNode.outputs[originSlot]? = some output)
    (isInput : targetNode.inputs[targetSlot]? = some input)
    (types : compatible output.info.rawType input.info.rawType = true)
    (free : input.link = none) :
    graph.connect origin originSlot target targetSlot =
      .ok (graph.addLink origin originSlot target targetSlot) := by
  rw [← output.rawType_eq, ← input.rawType_eq] at types
  simp only [connect, isOrigin, isTarget, isOutput, isInput, types, free]
  rfl

/-- A new link may be changed at once, and the others stay as they are. -/
theorem links_modifyLink_addLink (tied : graph.Tied) (origin : NodeId) (originSlot : Nat)
    (target : NodeId) (targetSlot : Nat) (change : Link → Link) :
    ((graph.addLink origin originSlot target targetSlot).2.modifyLink ⟨graph.nextLink⟩
      change).links =
      graph.links ++ [change (graph.nextLinkBetween origin originSlot target targetSlot)] := by
  show (graph.links ++ [graph.nextLinkBetween origin originSlot target targetSlot]).map _ = _
  rw [List.map_append]
  refine congrArg₂ (· ++ ·) ((List.map_congr_left fun link isLink => ?_).trans (List.map_id _))
    (congrArg (fun link => [link]) (if_pos rfl))
  refine if_neg fun same => ?_
  have counted := tied.linksCounted link isLink
  rw [same] at counted
  exact Nat.lt_irrefl _ counted

/-- A slot of an original node is found by its name on the node made again. -/
theorem Renews.resolveSlot_eq (renews : graph.Renews registry withLayout base originals)
    (tied : graph.Tied) {place : Nat} {before : Node} (isBefore : originals[place]? = some before)
    (direction : Direction) {info : SlotInfo} (member : info ∈ before.slots direction) :
    ∃ after spot, graph.nodes[place]? = some after ∧ graph.node? ⟨base + place⟩ = some after ∧
      (after.slots direction)[spot]? = some info ∧
      graph.resolveSlot ⟨base + place⟩ direction info.internalName = some (spot, graph) := by
  obtain ⟨after, isAfter, renewed⟩ := renews.exists_node isBefore
  obtain ⟨blueprint, described, restores⟩ := renewed.restores
  obtain ⟨spot, isSlot⟩ := List.mem_iff_getElem?.1 (restores.slots direction info member)
  have isNode := node?_of_mem tied.nodesAscend (List.mem_of_getElem? isAfter)
  rw [renewed.id] at isNode
  refine ⟨after, spot, isAfter, isNode, isSlot, ?_⟩
  rw [resolveSlot, isNode]
  dsimp only
  rw [restores.fits.slotNamed?_eq described.sound isSlot]
  rfl

/-- An input is free if no link is written as an edge to it. -/
theorem Renews.link_eq_none (renews : graph.Renews registry withLayout base originals)
    (tied : graph.Tied) {entry : EdgeEntry} {node : Node} {place : Nat} {input : InputSlot}
    (isNode : graph.nodes[entry.target]? = some node) (isInput : node.inputs[place]? = some input)
    (name : input.info.internalName = entry.targetSlot)
    (fresh : ∀ link ∈ graph.links, ∃ earlier, edge graph.nodes link = some earlier ∧
      ¬ earlier.Meets entry) : input.link = none := by
  rw [Option.eq_none_iff_forall_ne_some]
  intro id isLinked
  obtain ⟨_, -, renewed⟩ := renews.exists_original isNode
  obtain ⟨link, isLink, -, atEnd⟩ := tied.exists_link (List.mem_of_getElem? isNode)
    (Node.getElem?_ports_input isInput) (Option.mem_toList.2 isLinked)
  obtain ⟨sameNode, samePlace⟩ := Prod.mk.inj atEnd
  obtain ⟨earlier, isEarlier, apart⟩ := fresh link isLink
  obtain ⟨_, target, _, slot, known, -, targetId, -, atSlot⟩ := edge_cases isEarlier
  obtain ⟨_, -, other⟩ := renews.exists_original known.isTarget
  rw [other.id, sameNode, renewed.id, NodeId.mk.injEq] at targetId
  have sameTarget : earlier.target = entry.target := Nat.add_left_cancel targetId
  have isTarget := known.isTarget
  rw [sameTarget, isNode] at isTarget
  cases isTarget
  rw [samePlace, isInput] at atSlot
  cases atSlot
  exact apart ⟨sameTarget, known.targetSlot.symm.trans name⟩

/-- An edge whose input is free makes a link, which is written as the edge. -/
theorem Renews.linkEdge_eq (renews : graph.Renews registry withLayout base originals)
    (tied : graph.Tied) {created : List (Option NodeId)}
    (isCreated : created = (List.range originals.length).map fun place => some ⟨base + place⟩)
    {entry : EdgeEntry} (fits : entry.Fits originals)
    (fresh : ∀ link ∈ graph.links, ∃ earlier, edge graph.nodes link = some earlier ∧
      ¬ earlier.Meets entry) : ∃ originSlot targetSlot,
      graph.linkEdge created entry =
        ((graph.addLink ⟨base + entry.source⟩ originSlot ⟨base + entry.target⟩ targetSlot).2,
          .ok ⟨graph.nextLink⟩) ∧
      ∀ id, edge graph.nodes
        { id := id
          origin := ⟨base + entry.source⟩
          originSlot := originSlot
          target := ⟨base + entry.target⟩
          targetSlot := targetSlot
          isLoop := entry.isLoop
          data := entry.data
          extra := entry.extra } = some entry := by
  obtain ⟨origin, target, output, input, joins, types⟩ := fits
  obtain ⟨originNode, originSlot, isOrigin, atOrigin, isOutput, outputFound⟩ :=
    renews.resolveSlot_eq tied joins.isOrigin .output (List.mem_map_of_mem joins.isOutput)
  obtain ⟨targetNode, targetSlot, isTarget, atTarget, isInput, inputFound⟩ :=
    renews.resolveSlot_eq tied joins.isTarget .input (List.mem_map_of_mem joins.isInput)
  rw [show originNode.slots .output = originNode.outputs.map OutputSlot.info from rfl,
    List.getElem?_map] at isOutput
  rw [show targetNode.slots .input = targetNode.inputs.map InputSlot.info from rfl,
    List.getElem?_map] at isInput
  obtain ⟨producer, isProducer, sameOutput⟩ := Option.map_eq_some_iff.1 isOutput
  obtain ⟨consumer, isConsumer, sameInput⟩ := Option.map_eq_some_iff.1 isInput
  have free := renews.link_eq_none tied isTarget isConsumer (by rw [sameInput, joins.targetSlot])
    fresh
  refine ⟨originSlot, targetSlot, ?_, fun id => ?_⟩
  · have source : (created[entry.source]?).join = some ⟨base + entry.source⟩ := by
      rw [isCreated, List.getElem?_map, List.getElem?_range]
      · rfl
      · exact (List.getElem?_eq_some_iff.1 joins.isOrigin).1
    have destination : (created[entry.target]?).join = some ⟨base + entry.target⟩ := by
      rw [isCreated, List.getElem?_map, List.getElem?_range]
      · rfl
      · exact (List.getElem?_eq_some_iff.1 joins.isTarget).1
    have linked := connect_eq_ok atOrigin atTarget isProducer isConsumer
      (by rw [sameOutput, sameInput]; exact types) free
    rw [joins.sourceSlot] at outputFound
    rw [joins.targetSlot] at inputFound
    simp only [linkEdge, source, destination, outputFound, inputFound, linked]
    rfl
  · rw [edge_eq_some (renews.findIdx?_eq (List.getElem?_eq_some_iff.1 isOrigin).1)
      (renews.findIdx?_eq (List.getElem?_eq_some_iff.1 isTarget).1) isOrigin isTarget isProducer
      isConsumer, sameOutput, sameInput, joins.sourceSlot, joins.targetSlot, ← joins.type]

end Graph

/-! ### Reading the edges -/

open Workflow.Graph

/-- What is there once some edges were read, in a graph whose nodes were there before. -/
structure Importing.HasEdges (registry : Registry) (withLayout : Bool) (base : Nat)
    (originals : List Node) (importing start : Importing) (edges : List EdgeEntry) : Prop where
  renews : importing.graph.Renews registry withLayout base originals
  tied : importing.graph.Tied
  links : importing.graph.links.map (edge importing.graph.nodes) = edges.map some
  created : importing.created = start.created
  report : importing.report = { start.report with links := start.report.links + edges.length }
  kind : importing.graph.kind = start.graph.kind
  metadata : importing.graph.metadata = start.graph.metadata

namespace Importing.HasEdges

variable {start importing : Importing} {edges : List EdgeEntry}

theorem exists_edge (has : importing.HasEdges registry withLayout base originals start edges)
    {link : Link} (isLink : link ∈ importing.graph.links) :
    ∃ entry ∈ edges, edge importing.graph.nodes link = some entry := by
  have listed := List.mem_map_of_mem (f := edge importing.graph.nodes) isLink
  rw [has.links] at listed
  obtain ⟨entry, isEntry, same⟩ := List.mem_map.1 listed
  exact ⟨entry, isEntry, same.symm⟩

/-- Reading one more edge, to an input that no earlier edge leads to. -/
theorem addEdge (has : importing.HasEdges registry withLayout base originals start edges)
    (isCreated : start.created =
      (List.range originals.length).map fun place => some ⟨base + place⟩)
    {entry : EdgeEntry} (fits : entry.Fits originals)
    (fresh : ∀ earlier ∈ edges, ¬ earlier.Meets entry) (index : Nat) :
    (importing.addEdge (entry, index)).HasEdges registry withLayout base originals start
      (edges ++ [entry]) := by
  obtain ⟨originSlot, targetSlot, isLinked, written⟩ :=
    has.renews.linkEdge_eq has.tied (has.created.trans isCreated) fits fun link isLink => by
      obtain ⟨earlier, isEarlier, same⟩ := has.exists_edge isLink
      exact ⟨earlier, same, fresh earlier isEarlier⟩
  have edits : Edits (fun _ => False) False importing.graph
      (importing.addEdge (entry, index)).graph := edits_addEdge has.tied (entry, index)
  have tied := edits.tied has.tied
  have added : importing.addEdge (entry, index) = { importing with
      graph := (importing.graph.addLink ⟨base + entry.source⟩ originSlot ⟨base + entry.target⟩
        targetSlot).2.modifyLink ⟨importing.graph.nextLink⟩ fun link =>
          { link with isLoop := entry.isLoop, data := entry.data, extra := entry.extra }
      report := { importing.report with links := importing.report.links + 1 } } := by
    rw [Importing.addEdge, isLinked]
  have unlinked := importing.graph.unlinked_addLink ⟨base + entry.source⟩ originSlot
    ⟨base + entry.target⟩ targetSlot
  rw [added] at tied ⊢
  refine ⟨has.renews.of_unlinked unlinked, tied, ?_, has.created, ?_, has.kind, has.metadata⟩
  · have sameEdge (link : Link) : edge (importing.graph.addLink ⟨base + entry.source⟩ originSlot
        ⟨base + entry.target⟩ targetSlot).2.nodes link = edge importing.graph.nodes link := by
      rw [← edge_unlinked, unlinked, edge_unlinked]
    rw [links_modifyLink_addLink has.tied, List.map_append, List.map_append, ← has.links]
    refine congrArg₂ (· ++ ·) (List.map_congr_left fun link _ => sameEdge link) ?_
    exact congrArg (fun entry => [entry])
      ((sameEdge _).trans (written ⟨importing.graph.nextLink⟩))
  · show { importing.report with links := importing.report.links + 1 } = _
    rw [has.report, List.length_append]
    rfl

/-- Edges that fit, no two of them to the same input, are all read. -/
theorem foldl (has : start.HasEdges registry withLayout base originals start [])
    (edges : List EdgeEntry)
    (isCreated : start.created =
      (List.range originals.length).map fun place => some ⟨base + place⟩)
    (fits : ∀ entry ∈ edges, entry.Fits originals)
    (distinct : edges.Pairwise fun first second => ¬ first.Meets second) :
    (edges.zipIdx.foldl Importing.addEdge start).HasEdges registry withLayout base originals start
      edges := by
  induction edges using List.reverseRecOn with
  | nil => exact has
  | append_singleton edges entry inductionHypothesis =>
    obtain ⟨distinctBefore, -, apart⟩ := List.pairwise_append.1 distinct
    have before := inductionHypothesis
      (fun other member => fits other (List.mem_append_left _ member)) distinctBefore
    rw [List.zipIdx_append, List.foldl_append]
    exact before.addEdge isCreated (fits entry (List.mem_append_right _ List.mem_cons_self))
      (fun earlier member => apart earlier member entry List.mem_cons_self) _

end Importing.HasEdges

end Workflow
