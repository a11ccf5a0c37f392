/-
This file proves that the three places where a link is stored always agree, and that
ids are never used again.
-/

import Mathlib.Data.List.Nodup
import Workflow.Proofs.Graph.Run

namespace Workflow.Graph

/-- Links, outputs and inputs say the same, and nodes and links are stored in the order of their
ids. -/
structure LinksAgree (graph : Graph) : Prop where
  /-- A link joins an output that lists it once to an input that names it, of types that fit. -/
  ends : ∀ link ∈ graph.links, ∃ origin target output input,
    graph.node? link.origin = some origin ∧ graph.node? link.target = some target ∧
    origin.outputs[link.originSlot]? = some output ∧ target.inputs[link.targetSlot]? = some input ∧
    output.links.count link.id = 1 ∧ input.link = some link.id ∧
    compatible output.info.rawType input.info.rawType = true
  /-- What an output lists are links that leave it. -/
  outputs : ∀ node ∈ graph.nodes, ∀ place output, node.outputs[place]? = some output →
    ∀ id ∈ output.links, ∃ link ∈ graph.links,
      link.id = id ∧ link.origin = node.id ∧ link.originSlot = place
  /-- What an input names is a link that feeds it. -/
  inputs : ∀ node ∈ graph.nodes, ∀ place input, node.inputs[place]? = some input →
    ∀ id, input.link = some id → ∃ link ∈ graph.links,
      link.id = id ∧ link.target = node.id ∧ link.targetSlot = place
  unshared : ∀ first ∈ graph.links, ∀ second ∈ graph.links,
    first.target = second.target → first.targetSlot = second.targetSlot → first = second
  foundNodes : ∀ node ∈ graph.nodes, graph.node? node.id = some node
  foundLinks : ∀ link ∈ graph.links, graph.link? link.id = some link
  nodesAscend : graph.nodes.Pairwise fun first second => first.id.number < second.id.number
  linksAscend : graph.links.Pairwise fun first second => first.id.number < second.id.number
  nodesCounted : ∀ node ∈ graph.nodes, node.id.number < graph.nextNode
  linksCounted : ∀ link ∈ graph.links, link.id.number < graph.nextLink

/-- Ids that one graph has given out and no longer holds are not in another one. -/
structure NotReused (before after : Graph) : Prop where
  nodes : ∀ id : NodeId, id.number < before.nextNode → (∀ node ∈ before.nodes, node.id ≠ id) →
    ∀ node ∈ after.nodes, node.id ≠ id
  links : ∀ id : LinkId, id.number < before.nextLink → (∀ link ∈ before.links, link.id ≠ id) →
    ∀ link ∈ after.links, link.id ≠ id

theorem exists_output {graph : Graph} {id : NodeId} {place : Nat} {port : Port}
    (found : graph.port? id .output place = some port) :
    ∃ node output, graph.node? id = some node ∧ node.outputs[place]? = some output ∧
      output.port = port := by
  obtain ⟨node, isNode, atPlace⟩ := Option.bind_eq_some_iff.1 found
  rw [Node.ports, List.getElem?_map] at atPlace
  obtain ⟨output, isOutput, same⟩ := Option.map_eq_some_iff.1 atPlace
  exact ⟨node, output, isNode, isOutput, same⟩

theorem exists_input {graph : Graph} {id : NodeId} {place : Nat} {port : Port}
    (found : graph.port? id .input place = some port) :
    ∃ node input, graph.node? id = some node ∧ node.inputs[place]? = some input ∧
      input.port = port := by
  obtain ⟨node, isNode, atPlace⟩ := Option.bind_eq_some_iff.1 found
  rw [Node.ports, List.getElem?_map] at atPlace
  obtain ⟨input, isInput, same⟩ := Option.map_eq_some_iff.1 atPlace
  exact ⟨node, input, isNode, isInput, same⟩

namespace Tied

variable {graph : Graph}

/-- The links at a slot are told apart by their ids. -/
theorem nodup_idsAt (tied : graph.Tied) (id : NodeId) (direction : Direction) (place : Nat) :
    (graph.idsAt id direction place).Nodup := by
  refine List.pairwise_map.2 ((tied.linksAscend.filter _).imp fun less same => ?_)
  rw [same] at less
  exact Nat.lt_irrefl _ less

/-- Every link is listed at both its ends. -/
theorem mem_idsAt_end {link : Link} (member : link ∈ graph.links) (direction : Direction) :
    link.id ∈ graph.idsAt (link.endAt direction).1 direction (link.endAt direction).2 :=
  mem_idsAt.2 ⟨link, member, rfl, rfl⟩

theorem linksAgree (tied : graph.Tied) : graph.LinksAgree where
  ends link member := by
    obtain ⟨outputPort, inputPort, isOutput, isInput, types⟩ := tied.ends link member
    obtain ⟨origin, output, isOrigin, atOrigin, rfl⟩ := exists_output isOutput
    obtain ⟨target, input, isTarget, atTarget, rfl⟩ := exists_input isInput
    have listed : output.links = graph.idsAt link.origin .output link.originSlot :=
      tied.references _ _ _ _ isOutput
    refine ⟨origin, target, output, input, isOrigin, isTarget, atOrigin, atTarget, ?_,
      tied.link_of_input member isInput, types⟩
    rw [listed]
    exact List.count_eq_one_of_mem (tied.nodup_idsAt _ _ _) (mem_idsAt_end member .output)
  outputs node member place output isOutput id listed := by
    obtain ⟨link, isLink, same, atEnd⟩ :=
      tied.exists_link member (Node.getElem?_ports_output isOutput) listed
    exact ⟨link, isLink, same, congrArg Prod.fst atEnd, congrArg Prod.snd atEnd⟩
  inputs node member place input isInput id named := by
    obtain ⟨link, isLink, same, atEnd⟩ :=
      tied.exists_link member (Node.getElem?_ports_input isInput) (Option.mem_toList.2 named)
    exact ⟨link, isLink, same, congrArg Prod.fst atEnd, congrArg Prod.snd atEnd⟩
  unshared first isFirst second isSecond target slot := by
    obtain ⟨port, isPort⟩ := tied.exists_endPort isFirst .input
    obtain ⟨node, input, isNode, isInput, rfl⟩ := exists_input isPort
    refine tied.link_eq_of_id isFirst isSecond (Option.some.inj ?_)
    refine (tied.link_of_input isFirst isPort).symm.trans (tied.link_of_input isSecond ?_)
    rw [← target, ← slot]
    exact isPort
  foundNodes node member := node?_of_mem tied.nodesAscend member
  foundLinks link member := link?_of_mem tied.linksAscend member
  nodesAscend := by
    have ascend := tied.nodesAscend
    rw [nodeIds, List.pairwise_map] at ascend
    exact ascend
  linksAscend := tied.linksAscend
  nodesCounted node member := tied.nodesCounted node.id (List.mem_map_of_mem member)
  linksCounted := tied.linksCounted

end Tied

theorem Succeeds.notReused {made : Blueprint → Prop} {retags : Prop} {before after : Graph}
    (succeeds : Succeeds made retags before after) : before.NotReused after where
  nodes id given gone node member same := by
    obtain ⟨old, isOld, continues⟩ | ⟨isNew, -⟩ := succeeds.nodes node member
    · exact gone old isOld (continues.id.symm.trans same)
    · rw [same] at isNew
      omega
  links id given gone link member same := by
    obtain ⟨old, isOld, sameId⟩ | isNew := succeeds.links link member
    · exact gone old isOld (sameId.trans same)
    · rw [same] at isNew
      omega

/-- After any operations links and slots agree, and ids that are gone never come back, whatever
operations follow. -/
theorem linksAgree_run (operations : List Operation) :
    (run operations).LinksAgree ∧
      ∀ more : List Operation, (run operations).NotReused (run (operations ++ more)) :=
  ⟨(tied_run operations).linksAgree, fun more => (edits_run operations more).succeeds.notReused⟩

end Workflow.Graph
