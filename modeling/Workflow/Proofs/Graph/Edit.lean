/-
This file names the elementary changes that the operations of graphs are made of,
and what they have in common.

Every node of the graph after a change is a node of the graph before it, which goes
on fitting what it was made from, or a new one under an id that was not given out
before. A graph that is tied stays tied. Both hold for any number of changes, so an
operation is only ever taken apart into elementary changes once.
-/

import Mathlib.Logic.Relation
import Workflow.Proofs.Graph.Linking
import Workflow.Proofs.Node.Blueprint

namespace Workflow

/-! ### Nodes that go on -/

/-- A node goes on under its id and fits what it was made from; unless it may be retagged it also
keeps the constant that tells its type in documents. -/
structure Node.Continues (retags : Prop) (before after : Node) : Prop where
  id : after.id = before.id
  fits : ∀ blueprint, before.Fits blueprint → after.Fits blueprint
  tag : retags ∨ after.constants.get? typeTagField = before.constants.get? typeTagField

/-- A node goes on, and its slots keep their links. -/
structure Node.Revises (retags : Prop) (before after : Node) : Prop extends
    Node.Continues retags before after where
  extended : before.Extends after

namespace Node

variable {retags : Prop}

theorem Continues.refl (node : Node) : node.Continues retags node :=
  ⟨rfl, fun _ fits => fits, Or.inr rfl⟩

theorem Continues.trans {first second third : Node} (one : first.Continues retags second)
    (other : second.Continues retags third) : first.Continues retags third where
  id := other.id.trans one.id
  fits blueprint fits := other.fits blueprint (one.fits blueprint fits)
  tag := by
    obtain may | same := one.tag
    · exact Or.inl may
    · exact other.tag.imp_right fun next => next.trans same

theorem Extends.of_ports {before after : Node}
    (same : ∀ direction, after.ports direction = before.ports direction) :
    before.Extends after where
  kept direction place port found := ⟨port, same direction ▸ found, rfl, rfl⟩
  gained direction place port absent found := by
    rw [same direction, absent] at found
    cases found

theorem Extends.trans {first second third : Node} (one : first.Extends second)
    (other : second.Extends third) : first.Extends third where
  kept direction place port found := by
    obtain ⟨middle, isMiddle, links, rawType⟩ := one.kept direction place port found
    obtain ⟨same, isSame, sameLinks, sameType⟩ := other.kept direction place middle isMiddle
    exact ⟨same, isSame, sameLinks.trans links, sameType.trans rawType⟩
  gained direction place port absent found := by
    cases isMiddle : (second.ports direction)[place]? with
    | none => exact other.gained direction place port isMiddle found
    | some middle =>
      obtain ⟨same, isSame, links, -⟩ := other.kept direction place middle isMiddle
      rw [found] at isSame
      cases isSame
      exact links.trans (one.gained direction place middle absent isMiddle)

theorem Revises.trans {first second third : Node} (one : first.Revises retags second)
    (other : second.Revises retags third) : first.Revises retags third :=
  ⟨one.toContinues.trans other.toContinues, one.extended.trans other.extended⟩

theorem Revises.refl (node : Node) : node.Revises retags node :=
  ⟨.refl node, .of_ports fun _ => rfl⟩

/-- Retouching a node without touching its links revises it. -/
theorem Retouches.revises {before after : Node} (retouches : before.Retouches after)
    (id : after.id = before.id)
    (ports : ∀ direction, after.ports direction = before.ports direction)
    (tag : retags ∨ after.constants.get? typeTagField = before.constants.get? typeTagField) :
    before.Revises retags after :=
  ⟨⟨id, fun _ fits => retouches.fits fits, tag⟩, .of_ports ports⟩

end Node

namespace Graph

/-! ### Elementary changes -/

/-- A change that operations are made of. New nodes fit a blueprint of a given kind. -/
inductive Edit (made : Blueprint → Prop) (retags : Prop) : Graph → Graph → Prop
  | relabel (graph : Graph) (seed : Seed) (events : List Event) (kind : Option String)
      (metadata : Object) :
      Edit made retags graph
        { graph with seed := seed, events := events, kind := kind, metadata := metadata }
  | mapNodes (graph : Graph) (change : Node → Node)
      (keeps : ∀ node, (change node).id = node.id)
      (revises : ∀ node ∈ graph.nodes, node.Revises retags (change node)) :
      Edit made retags graph (graph.mapNodes change)
  | mapLinks (graph : Graph) (change : Link → Link) (keepsId : ∀ link, (change link).id = link.id)
      (keepsEnds : ∀ link direction, (change link).endAt direction = link.endAt direction) :
      Edit made retags graph { graph with links := graph.links.map change }
  | addNode (graph : Graph) (make : NodeId → Node) (blueprint : Blueprint)
      (isMade : made blueprint) (fits : (make ⟨graph.nextNode⟩).Fits blueprint)
      (tagged : (make ⟨graph.nextNode⟩).Tagged blueprint)
      (fresh : (make ⟨graph.nextNode⟩).id = ⟨graph.nextNode⟩)
      (unlinked : ∀ direction, ∀ port ∈ (make ⟨graph.nextNode⟩).ports direction,
        port.links = []) :
      Edit made retags graph (graph.addNode make).2
  | addLink (graph : Graph) (origin : NodeId) (originSlot : Nat) (target : NodeId)
      (targetSlot : Nat) (output input : Port)
      (isOutput : graph.port? origin .output originSlot = some output)
      (isInput : graph.port? target .input targetSlot = some input) (free : input.links = [])
      (types : compatible output.info.rawType input.info.rawType = true) :
      Edit made retags graph (graph.addLink origin originSlot target targetSlot).2
  | dropLink (graph : Graph) (link : Link)
      (only : ∀ other ∈ graph.links, other.id = link.id → other = link) :
      Edit made retags graph (graph.dropLink link)
  | removeSlot (graph : Graph) (id : NodeId) (side : Direction) (place : Nat)
      (empty : graph.idsAt id side place = [])
      (fits : ∀ node ∈ graph.nodes, node.id = id → ∀ blueprint, node.Fits blueprint →
        (node.eraseSlot side place).Fits blueprint) :
      Edit made retags graph (graph.removeSlot id side place)
  | dropNode (graph : Graph) (id : NodeId)
      (untouched : ∀ link ∈ graph.links, ∀ direction, (link.endAt direction).1 ≠ id) :
      Edit made retags graph (graph.dropNode id)
  | clear (graph : Graph) : Edit made retags graph graph.clear

/-- Any number of elementary changes. -/
abbrev Edits (made : Blueprint → Prop) (retags : Prop) : Graph → Graph → Prop :=
  Relation.ReflTransGen (Edit made retags)

variable {made : Blueprint → Prop} {retags : Prop} {before after : Graph}

theorem Edit.tied (edit : Edit made retags before after) (tied : before.Tied) : after.Tied := by
  cases edit with
  | relabel seed events kind metadata => exact tied.relabel seed events kind metadata
  | mapNodes change keeps revises => exact tied.mapNodes keeps fun node member =>
      (revises node member).extended
  | mapLinks change keepsId keepsEnds => exact tied.mapLinks keepsId keepsEnds
  | addNode make blueprint isMade fits tagged fresh unlinked => exact tied.addNode fresh unlinked
  | addLink origin originSlot target targetSlot output input isOutput isInput free types =>
    exact tied.addLink isOutput isInput free types
  | dropLink link only => exact tied.dropLink only
  | removeSlot id side place empty fits => exact tied.removeSlot empty
  | dropNode id untouched => exact tied.dropNode untouched
  | clear => exact Tied.clear

/-- Elementary changes keep a graph tied. -/
theorem Edits.tied (edits : Edits made retags before after) (tied : before.Tied) : after.Tied := by
  induction edits with
  | refl => exact tied
  | tail _ edit inductionHypothesis => exact edit.tied inductionHypothesis

/-! ### Changes of links only -/

/-- If the nodes are the same but for links, every node was there but for links. -/
theorem exists_unlinked {graph : Graph}
    (same : after.nodes.map Node.unlinked = graph.nodes.map Node.unlinked) {node : Node}
    (member : node ∈ after.nodes) : ∃ old ∈ graph.nodes, old.unlinked = node.unlinked :=
  List.mem_map.1 (same ▸ List.mem_map_of_mem member)

theorem unlinked_reviseOutput (node : Node) (place : Nat) (change : OutputSlot → OutputSlot)
    (keeps : ∀ slot, (change slot).info = slot.info) :
    (node.reviseOutput place change).unlinked = node.unlinked := by
  have same (slot : OutputSlot) : { change slot with links := [] } = { slot with links := [] } :=
    OutputSlot.eq_of_parts (keeps slot) rfl
  rw [Node.unlinked, Node.reviseOutput, map_modify_of_keeps same]
  rfl

theorem unlinked_reviseInput (node : Node) (place : Nat) (change : InputSlot → InputSlot)
    (keeps : ∀ slot, (change slot).info = slot.info ∧ (change slot).native = slot.native) :
    (node.reviseInput place change).unlinked = node.unlinked := by
  have same (slot : InputSlot) : { change slot with link := none } = { slot with link := none } :=
    InputSlot.eq_of_parts (keeps slot).1 rfl (keeps slot).2
  rw [Node.unlinked, Node.reviseInput, map_modify_of_keeps same]
  rfl

theorem unlinked_addLink (graph : Graph) (origin : NodeId) (originSlot : Nat) (target : NodeId)
    (targetSlot : Nat) :
    (graph.addLink origin originSlot target targetSlot).2.nodes.map Node.unlinked =
      graph.nodes.map Node.unlinked := by
  refine (map_modifyNode Node.unlinked _ target fun node => ?_).trans
    (map_modifyNode Node.unlinked _ origin fun node => ?_)
  · exact unlinked_reviseInput node targetSlot _ fun _ => ⟨rfl, rfl⟩
  · exact unlinked_reviseOutput node originSlot _ fun _ => rfl

theorem unlinked_dropLink (graph : Graph) (link : Link) :
    (graph.dropLink link).nodes.map Node.unlinked = graph.nodes.map Node.unlinked := by
  refine (map_modifyNode Node.unlinked _ link.target fun node => ?_).trans
    (map_modifyNode Node.unlinked _ link.origin fun node => ?_)
  · exact unlinked_reviseInput node link.targetSlot _ fun _ => ⟨rfl, rfl⟩
  · exact unlinked_reviseOutput node link.originSlot _ fun _ => rfl

/-- Taking links away leaves the nodes as they are otherwise. -/
theorem unlinked_dropLinks (links : List Link) (graph : Graph) :
    (links.foldl dropLink graph).nodes.map Node.unlinked = graph.nodes.map Node.unlinked := by
  induction links generalizing graph with
  | nil => rfl
  | cons link rest inductionHypothesis =>
    exact (inductionHypothesis (graph.dropLink link)).trans (unlinked_dropLink graph link)

/-! ### What is there after a change -/

/-- What is in a graph after changes was there before or is new: old nodes go on, new ones were made
from blueprints, and new ids were not given out before. -/
structure Succeeds (made : Blueprint → Prop) (retags : Prop) (before after : Graph) : Prop where
  nextNode : before.nextNode ≤ after.nextNode
  nextLink : before.nextLink ≤ after.nextLink
  nodes : ∀ node ∈ after.nodes, (∃ old ∈ before.nodes, old.Continues retags node) ∨
    (before.nextNode ≤ node.id.number ∧
      ∃ blueprint, made blueprint ∧ node.Fits blueprint ∧ (retags ∨ node.Tagged blueprint))
  links : ∀ link ∈ after.links,
    (∃ old ∈ before.links, old.id = link.id) ∨ before.nextLink ≤ link.id.number

namespace Succeeds

/-- Nodes that go on and links with old ids, under the same counters. -/
theorem of_old (nextNode : after.nextNode = before.nextNode)
    (nextLink : after.nextLink = before.nextLink)
    (nodes : ∀ node ∈ after.nodes, ∃ old ∈ before.nodes, old.Continues retags node)
    (links : ∀ link ∈ after.links, ∃ old ∈ before.links, old.id = link.id) :
    Succeeds made retags before after :=
  ⟨Nat.le_of_eq nextNode.symm, Nat.le_of_eq nextLink.symm,
    fun node member => Or.inl (nodes node member), fun link member => Or.inl (links link member)⟩

theorem refl (graph : Graph) : Succeeds made retags graph graph :=
  of_old rfl rfl (fun node member => ⟨node, member, .refl node⟩) fun link member =>
    ⟨link, member, rfl⟩

theorem trans {first second third : Graph} (one : Succeeds made retags first second)
    (other : Succeeds made retags second third) : Succeeds made retags first third where
  nextNode := Nat.le_trans one.nextNode other.nextNode
  nextLink := Nat.le_trans one.nextLink other.nextLink
  nodes node member := by
    obtain ⟨middle, inSecond, continues⟩ | ⟨isNew, isMade⟩ := other.nodes node member
    · obtain ⟨old, inFirst, before⟩ | ⟨isNew, blueprint, isMade, fits, tagged⟩ :=
        one.nodes middle inSecond
      · exact Or.inl ⟨old, inFirst, before.trans continues⟩
      · refine Or.inr ⟨by rw [continues.id]; exact isNew, blueprint, isMade,
          continues.fits blueprint fits, ?_⟩
        obtain may | same := continues.tag
        · exact Or.inl may
        · exact tagged.imp_right fun tagged entry member isTag =>
            same.trans (tagged entry member isTag)
    · exact Or.inr ⟨Nat.le_trans one.nextNode isNew, isMade⟩
  links link member := by
    obtain ⟨middle, inSecond, same⟩ | isNew := other.links link member
    · rw [← same]
      exact one.links middle inSecond
    · exact Or.inr (Nat.le_trans one.nextLink isNew)

end Succeeds

theorem exists_of_modifyNode {graph : Graph} (id : NodeId) (change : Node → Node)
    (continues : ∀ node ∈ graph.nodes, node.id = id → node.Continues retags (change node))
    {node : Node} (member : node ∈ (graph.modifyNode id change).nodes) :
    ∃ old ∈ graph.nodes, old.Continues retags node := by
  obtain ⟨old, isOld, rfl⟩ := List.mem_map.1 member
  refine ⟨old, isOld, ?_⟩
  split
  · next same => exact continues old isOld same
  · exact .refl old

theorem exists_of_unlinked {graph : Graph}
    (same : after.nodes.map Node.unlinked = graph.nodes.map Node.unlinked) {node : Node}
    (member : node ∈ after.nodes) : ∃ old ∈ graph.nodes, old.Continues retags node := by
  obtain ⟨old, isOld, isSame⟩ := exists_unlinked same member
  exact ⟨old, isOld, (congrArg Node.id isSame.symm :),
    fun _ fits => (Node.Retouches.of_unlinked isSame.symm).fits fits,
    Or.inr (congrArg (fun node => node.constants.get? typeTagField) isSame.symm :)⟩

theorem Edit.succeeds (edit : Edit made retags before after) :
    Succeeds made retags before after := by
  have kept : ∀ graph : Graph, ∀ node ∈ graph.nodes,
      ∃ old ∈ graph.nodes, old.Continues retags node :=
    fun _ node member => ⟨node, member, .refl node⟩
  cases edit with
  | relabel => exact .of_old rfl rfl (kept before) fun link member => ⟨link, member, rfl⟩
  | mapNodes change keeps revises =>
    refine .of_old rfl rfl (fun node member => ?_) fun link member => ⟨link, member, rfl⟩
    obtain ⟨old, isOld, rfl⟩ := List.mem_map.1 member
    exact ⟨old, isOld, (revises old isOld).toContinues⟩
  | mapLinks change keepsId keepsEnds =>
    refine .of_old rfl rfl (kept before) fun link member => ?_
    obtain ⟨old, isOld, rfl⟩ := List.mem_map.1 member
    exact ⟨old, isOld, (keepsId old).symm⟩
  | addNode make blueprint isMade fits tagged fresh unlinked =>
    refine ⟨Nat.le_succ _, Nat.le_refl _, fun node member => ?_, fun link member =>
      Or.inl ⟨link, member, rfl⟩⟩
    rcases List.mem_append.1 member with old | added
    · exact Or.inl ⟨node, old, .refl node⟩
    · rw [List.mem_singleton.1 added]
      refine Or.inr ⟨?_, blueprint, isMade, fits, Or.inr tagged⟩
      exact Nat.le_of_eq (congrArg NodeId.number fresh).symm
  | addLink origin originSlot target targetSlot =>
    refine ⟨Nat.le_refl _, Nat.le_succ _, fun node member =>
      Or.inl (exists_of_unlinked (unlinked_addLink before ..) member), fun link member => ?_⟩
    rcases List.mem_append.1 member with old | added
    · exact Or.inl ⟨link, old, rfl⟩
    · rw [List.mem_singleton.1 added]
      exact Or.inr (Nat.le_refl _)
  | dropLink link =>
    exact .of_old rfl rfl
      (fun node member => exists_of_unlinked (unlinked_dropLink before link) member)
      fun other member => ⟨other, List.mem_of_mem_filter member, rfl⟩
  | removeSlot id side place empty fits =>
    refine .of_old rfl rfl (fun node member => ?_) fun link member => ?_
    · refine exists_of_modifyNode id _ (fun node isOld same =>
        ⟨?_, fits node isOld same, Or.inr ?_⟩) member
      · cases side <;> rfl
      · cases side <;> rfl
    · obtain ⟨old, isOld, rfl⟩ := List.mem_map.1 member
      exact ⟨old, isOld, (id_shiftLink id side place old).symm⟩
  | dropNode id =>
    exact .of_old rfl rfl (fun node member => ⟨node, List.mem_of_mem_filter member, .refl node⟩)
      fun link member => ⟨link, member, rfl⟩
  | clear =>
    exact ⟨Nat.le_refl _, Nat.le_refl _, fun node member => absurd member List.not_mem_nil,
      fun link member => absurd member List.not_mem_nil⟩

/-- Elementary changes leave what was there before or add what is new. -/
theorem Edits.succeeds (edits : Edits made retags before after) :
    Succeeds made retags before after := by
  induction edits with
  | refl => exact .refl before
  | tail _ edit inductionHypothesis => exact inductionHypothesis.trans edit.succeeds

end Graph

end Workflow
