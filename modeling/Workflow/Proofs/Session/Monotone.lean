/-
This file proves how readiness moves when inputs are filled and emptied.

Readiness follows from which fields are missing on which node and from the links. A value
that is not empty and a new link only take fields off what is missing, and a link that is
gone only adds some; a node that links lead to from there waits for them. Links into a
node do not change what it leads to, so it does not matter whether this is looked at
before or after.
-/

import Workflow.Proofs.Node.Filling
import Workflow.Proofs.Session.EditedValues

namespace Workflow

namespace Graph

variable {graph before after : Graph} {id other target : NodeId}

/-! ### What is missing on the nodes of a graph -/

/-- The fields that are missing on the node of an id. -/
def missing? (graph : Graph) (id : NodeId) : Option (List String) :=
  (graph.node? id).map Node.missingFields

/-- The same nodes, on which at most the same fields are missing. -/
def Eases (before after : Graph) : Prop :=
  ∀ id, Option.Rel List.Sublist (after.missing? id) (before.missing? id)

theorem missing?_of_mem (tied : graph.Tied) {node : Node} (isNode : node ∈ graph.nodes) :
    graph.missing? node.id = some node.missingFields := by
  rw [missing?, node?_of_mem tied.nodesAscend isNode, Option.map_some]

theorem mem_nodeIds_of_missing? {fields : List String}
    (isMissing : graph.missing? id = some fields) : id ∈ graph.nodeIds := by
  obtain ⟨node, isNode, -⟩ := Option.map_eq_some_iff.1 isMissing
  obtain ⟨member, rfl⟩ := mem_of_node? isNode
  exact List.mem_map_of_mem member

theorem missing?_mapNodes (graph : Graph) (change : Node → Node)
    (keeps : ∀ node, (change node).id = node.id) (id : NodeId) :
    (graph.mapNodes change).missing? id =
      (graph.node? id).map fun node => (change node).missingFields := by
  rw [missing?, node?_mapNodes graph change keeps, Option.map_map]
  rfl

theorem missing?_unmarked (graph : Graph) (id : NodeId) :
    graph.unmarked.missing? id = graph.missing? id := by
  show (graph.mapNodes Node.unmarked).missing? id = _
  rw [missing?_mapNodes graph Node.unmarked fun _ => rfl, missing?]
  exact Option.map_congr fun node _ => Node.missingFields_congr rfl rfl

theorem chainComplete_unmarked (graph : Graph) (id : NodeId) :
    graph.unmarked.ChainComplete id ↔ graph.ChainComplete id := by
  show (graph.mapNodes Node.unmarked).ChainComplete id ↔ _
  refine chainComplete_mapNodes ?_ ?_ id
  · exact fun _ => rfl
  · exact fun _ => Node.isComplete_congr rfl rfl

/-- A chain is complete if nothing is missing on the nodes that links lead from. -/
theorem Tied.chainComplete_iff (tied : graph.Tied) :
    graph.ChainComplete id ↔
      ∀ other fields, graph.Reaches other id → graph.missing? other = some fields →
        fields = [] := by
  constructor
  · intro chain other fields reaches isMissing
    obtain ⟨node, isNode, rfl⟩ := Option.map_eq_some_iff.1 isMissing
    obtain ⟨member, rfl⟩ := mem_of_node? isNode
    exact List.isEmpty_iff.1 (chain node member reaches)
  · intro filled node member reaches
    exact List.isEmpty_iff.2 (filled node.id _ reaches (missing?_of_mem tied member))

namespace Eases

theorem trans {first second third : Graph} (one : first.Eases second)
    (other : second.Eases third) : first.Eases third := by
  intro id
  have less := one id
  have least := other id
  generalize first.missing? id = most, second.missing? id = more, third.missing? id = fields
    at less least
  cases least with
  | none => exact less
  | some least =>
    cases less with
    | some less => exact .some (least.trans less)

theorem exists_missing (eases : before.Eases after) {fields : List String}
    (isMissing : before.missing? id = some fields) :
    ∃ less, after.missing? id = some less ∧ less.Sublist fields := by
  have related := eases id
  rw [isMissing] at related
  generalize after.missing? id = found at related
  cases related with
  | some sublist => exact ⟨_, rfl, sublist⟩

/-- A chain stays complete where less is missing and no more links lead to the node. -/
theorem chainComplete (eases : before.Eases after) (tiedBefore : before.Tied)
    (tiedAfter : after.Tied) (reaches : ∀ other, after.Reaches other id → before.Reaches other id)
    (chain : before.ChainComplete id) : after.ChainComplete id := by
  rw [tiedBefore.chainComplete_iff] at chain
  rw [tiedAfter.chainComplete_iff]
  intro other fields leads isMissing
  have less := eases other
  rw [isMissing] at less
  cases isMore : before.missing? other with
  | none =>
    rw [isMore] at less
    cases less
  | some more =>
    rw [isMore, chain other more (reaches other leads) isMore] at less
    cases less with
    | some sublist => exact List.sublist_nil.1 sublist

end Eases

/-- As much is missing on nodes that are not asked for. -/
theorem Agree.missing?_eq {asked : NodeId → Prop} (agree : Agree asked before after)
    (tiedBefore : before.Tied) {fields : List String}
    (isMissing : after.missing? id = some fields) (apart : ¬asked id) :
    before.missing? id = some fields := by
  obtain ⟨node, isNode, rfl⟩ := Option.map_eq_some_iff.1 isMissing
  obtain ⟨member, rfl⟩ := mem_of_node? isNode
  obtain ⟨old, isOld, sameId, -, missing⟩ := agree.nodes node member apart
  rw [sameId, missing?_of_mem tiedBefore isOld, missing]

/-! ### Filling and emptying inputs -/

theorem reaches_eq (links : after.links = before.links) : after.Reaches = before.Reaches := by
  have feeds : after.Feeds = before.Feeds := by
    funext producer consumer
    rw [Feeds, Feeds, links]
  rw [Reaches, Reaches, feeds]

theorem eases_modifyNode {change : Node → Node} (keeps : ∀ node, (change node).id = node.id)
    (less : ∀ node, (change node).missingFields.Sublist node.missingFields) :
    graph.Eases (graph.modifyNode target change) := by
  intro id
  rw [missing?, missing?, node?_modifyNode graph target id change keeps]
  cases graph.node? id with
  | none => exact .none
  | some node =>
    refine .some ?_
    split
    · exact less node
    · exact .refl _

/-- A value that is not empty takes fields off what is missing at most. -/
theorem eases_setInput {slot : Nat} {value : Json} (isSome : value.isEmpty = false)
    (success : graph.setInput id slot value = some after) : graph.Eases after := by
  obtain ⟨-, rfl⟩ := setInput_cases success
  refine eases_modifyNode (fun _ => rfl) fun node => Node.sublist_missingFields rfl ?_
  exact forall₂_modify .refl (fun slot => slot.fills_edited isSome) node.inputs slot

theorem links_setInput {slot : Nat} {value : Json}
    (success : graph.setInput id slot value = some after) : after.links = graph.links := by
  obtain ⟨-, rfl⟩ := setInput_cases success
  rfl

/-- A new link takes fields off what is missing at most. -/
theorem eases_addLink (graph : Graph) (origin : NodeId) (originSlot : Nat) (target : NodeId)
    (targetSlot : Nat) : graph.Eases (graph.addLink origin originSlot target targetSlot).2 := by
  have linked (node : Node) : (node.reviseInput targetSlot fun slot =>
      { slot with link := some ⟨graph.nextLink⟩ }).missingFields.Sublist node.missingFields :=
    Node.sublist_missingFields rfl
      (forall₂_modify .refl (fun slot => slot.fills_link _) node.inputs targetSlot)
  refine Eases.trans (eases_modifyNode ?_ fun node => ?_) (eases_modifyNode ?_ linked)
  · exact fun _ => rfl
  · exact Node.sublist_missingFields rfl (List.forall₂_same.2 fun slot _ => .refl slot)
  · exact fun _ => rfl

theorem missing?_dropLink (tied : graph.Tied) {link : Link} (isLink : link ∈ graph.links)
    (id : NodeId) : (graph.dropLink link).missing? id =
      (graph.node? id).map fun node => (node.forget [link.id]).missingFields := by
  rw [← missing?_mapNodes graph (Node.forget [link.id]) fun _ => rfl, missing?, missing?, node?,
    node?, mapNodes, nodes_dropLink tied isLink]

/-- A link that is gone leaves all fields missing that were. -/
theorem eases_dropLink (tied : graph.Tied) {link : Link} (isLink : link ∈ graph.links) :
    (graph.dropLink link).Eases graph := by
  intro id
  rw [missing?_dropLink tied isLink, missing?]
  cases graph.node? id with
  | none => exact .none
  | some node =>
    refine .some (Node.sublist_missingFields rfl ?_)
    rw [Node.forget, List.forall₂_map_left_iff, List.forall₂_same]
    exact fun slot _ => slot.fills_forget [link.id]

/-- Links into a node do not change what it leads to. -/
theorem Agree.reaches_iff_start (agree : Agree (· = target) before after) :
    after.Reaches target other ↔ before.Reaches target other :=
  ⟨.transfer_from fun producer consumer apart => (agree.feeds producer consumer apart).1,
    .transfer_from fun producer consumer apart => (agree.feeds producer consumer apart).2⟩

end Graph

/-- Less is missing, and what was complete is complete. -/
structure Readiness.Eases (before after : Readiness) : Prop where
  missing : after.missing.Sublist before.missing
  complete : before.complete = true → after.complete = true

namespace Session

open Workflow.Graph

variable {session next : Session} {graph : Graph} {id other : NodeId}

/-! ### Readiness of a session that is kept in order -/

/-- Readiness follows from what is missing and from the links. -/
theorem Kept.readiness_spec (kept : session.Kept) {readiness : Readiness}
    (found : session.readiness? id = some readiness) :
    session.graph.missing? id = some readiness.missing ∧
      (readiness.complete = true ↔ readiness.missing = []) ∧
      (readiness.chainComplete = true ↔ session.graph.ChainComplete id) := by
  obtain ⟨node, isNode, rfl⟩ := Option.map_eq_some_iff.1 found
  obtain ⟨member, rfl⟩ := mem_of_node? isNode
  obtain ⟨complete, missing⟩ := kept.current.own node member List.not_mem_nil
  refine ⟨?_, ?_, kept.current.chains node member fun _ waits => absurd waits List.not_mem_nil⟩
  · rw [missing?_of_mem kept.tied member, missing]
  · rw [complete, missing, Node.isComplete, List.isEmpty_iff]

theorem exists_readiness {fields : List String}
    (isMissing : session.graph.missing? id = some fields) :
    ∃ readiness, session.readiness? id = some readiness := by
  obtain ⟨node, isNode, -⟩ := Option.map_eq_some_iff.1 isMissing
  exact ⟨node.readiness, by rw [readiness?, isNode, Option.map_some]⟩

/-- Where less is missing in a session, its nodes are as ready at least. -/
theorem Kept.eases (kept : session.Kept) (keptNext : next.Kept)
    (eases : session.graph.Eases next.graph) {before : Readiness}
    (found : session.readiness? id = some before) :
    ∃ after, next.readiness? id = some after ∧ before.Eases after := by
  obtain ⟨isMissing, complete, -⟩ := kept.readiness_spec found
  obtain ⟨fields, isLess, sublist⟩ := eases.exists_missing isMissing
  obtain ⟨after, isAfter⟩ := exists_readiness isLess
  obtain ⟨isMissingNext, completeNext, -⟩ := keptNext.readiness_spec isAfter
  obtain rfl := Option.some.inj (isMissingNext.symm.trans isLess)
  refine ⟨after, isAfter, sublist, fun wasComplete => completeNext.2 ?_⟩
  rw [complete.1 wasComplete] at sublist
  exact List.sublist_nil.1 sublist

/-- Where the same is missing and the same chains are complete, nodes are equally ready. -/
theorem Kept.readiness_eq (kept : session.Kept) (keptNext : next.Kept) {before after : Readiness}
    (isBefore : session.readiness? id = some before) (isAfter : next.readiness? id = some after)
    (missing : next.graph.missing? id = session.graph.missing? id)
    (chain : next.graph.ChainComplete id ↔ session.graph.ChainComplete id) : after = before := by
  obtain ⟨isMissing, complete, chainComplete⟩ := kept.readiness_spec isBefore
  obtain ⟨isMissingNext, completeNext, chainNext⟩ := keptNext.readiness_spec isAfter
  have same : after.missing = before.missing :=
    Option.some.inj (isMissingNext.symm.trans (missing.trans isMissing))
  have sameComplete : after.complete = before.complete := by
    rw [Bool.eq_iff_iff, complete, completeNext, same]
  have sameChain : after.chainComplete = before.chainComplete := by
    rw [Bool.eq_iff_iff, chainComplete, chainNext, chain]
  cases before
  cases after
  congr

/-! ### Operations -/

theorem kept_of_perform (kept : session.Kept) {operation : Operation}
    (performed : session.perform operation = next) : next.Kept :=
  performed ▸ (step_perform kept operation).kept kept

theorem missing?_commitGraph (session : Session) (graph : Graph) (id : NodeId) :
    (session.commitGraph graph).graph.missing? id = graph.missing? id := by
  rw [← missing?_unmarked, unmarked_commitGraph, missing?_unmarked]

theorem chainComplete_commitGraph (session : Session) (graph : Graph) (id : NodeId) :
    (session.commitGraph graph).graph.ChainComplete id ↔ graph.ChainComplete id := by
  rw [← chainComplete_unmarked, unmarked_commitGraph, chainComplete_unmarked]

theorem reaches_commitGraph (session : Session) (graph : Graph) :
    (session.commitGraph graph).graph.Reaches = graph.Reaches :=
  reaches_eq (congrArg Graph.links (unmarked_commitGraph session graph) :)

theorem eases_commitGraph (eases : session.graph.Eases graph) :
    session.graph.Eases (session.commitGraph graph).graph := by
  intro id
  rw [missing?_commitGraph]
  exact eases id

/-- A value that is not empty leaves every node as ready at least. -/
theorem Kept.eases_setInput (kept : session.Kept) {slot : Nat} {value : Json}
    (success : session.setInput id slot value = some next) (isSome : value.isEmpty = false)
    {before : Readiness} (found : session.readiness? other = some before) :
    ∃ after, next.readiness? other = some after ∧ before.Eases after ∧
      (before.chainComplete = true → after.chainComplete = true) := by
  have performed : session.perform (.setInput id slot value) = next := by
    rw [perform, success]
    rfl
  have keptNext := kept_of_perform kept performed
  obtain ⟨graph, edited, rfl⟩ := Option.map_eq_some_iff.1 success
  have eases := eases_commitGraph (Graph.eases_setInput isSome edited)
  obtain ⟨after, isAfter, easesAfter⟩ := kept.eases keptNext eases found
  refine ⟨after, isAfter, easesAfter, fun wasComplete => ?_⟩
  obtain ⟨-, -, chain⟩ := kept.readiness_spec found
  obtain ⟨-, -, chainNext⟩ := keptNext.readiness_spec isAfter
  refine chainNext.2 (eases.chainComplete kept.tied keptNext.tied (fun start reaches => ?_)
    (chain.1 wasComplete))
  rw [reaches_commitGraph, reaches_eq (links_setInput edited)] at reaches
  exact reaches

/-- A new link leaves every node as complete at least, and changes nothing on nodes that its target
does not reach. -/
theorem Kept.eases_connect (kept : session.Kept) {origin target : NodeId}
    {originSlot targetSlot : Nat} {link : LinkId}
    (success : session.connect origin originSlot target targetSlot = .ok (link, next))
    {before : Readiness} (found : session.readiness? other = some before) :
    ∃ after, next.readiness? other = some after ∧ before.Eases after ∧
      (¬session.graph.Reaches target other → after = before) := by
  have performed : session.perform (.connect origin originSlot target targetSlot) = next := by
    rw [perform, success]
    rfl
  have keptNext := kept_of_perform kept performed
  obtain ⟨⟨added, graph⟩, linked, same⟩ := eq_ok_of_map (congrArg Except.toOption success)
  obtain rfl : session.commitGraph graph = next := congrArg Prod.snd same
  have isAdded : graph = _ := congrArg Prod.snd (connect_cases linked).1
  have eases : session.graph.Eases graph := by
    rw [isAdded]
    exact eases_addLink session.graph origin originSlot target targetSlot
  obtain ⟨after, isAfter, easesAfter⟩ := kept.eases keptNext (eases_commitGraph eases) found
  refine ⟨after, isAfter, easesAfter, fun apart => ?_⟩
  have agree : Agree (· = target) session.graph graph := by
    rw [isAdded]
    exact agree_addLink ..
  have edits : Edits session.registry.Makes False session.graph graph := edits_connect linked
  have tied := edits.tied kept.tied
  have unreached : ∀ start, start = target → ¬graph.Reaches start other := by
    rintro _ rfl reaches
    exact apart (agree.reaches_iff_start.1 reaches)
  obtain ⟨isMissing, -⟩ := keptNext.readiness_spec isAfter
  rw [missing?_commitGraph] at isMissing
  refine kept.readiness_eq keptNext found isAfter ?_ ?_
  · rw [missing?_commitGraph, isMissing]
    exact (agree.missing?_eq kept.tied isMissing fun same => unreached _ same .refl).symm
  · rw [chainComplete_commitGraph]
    exact agree.chainComplete_iff kept.tied tied (mem_nodeIds_of_missing? isMissing) unreached

variable {gone : LinkId} {link : Link}

theorem disconnect_spec (success : session.disconnect gone = some (link, next)) :
    link ∈ session.graph.links ∧ link.id = gone ∧
      next = session.commitGraph (session.graph.dropLink link) := by
  obtain ⟨⟨stored, graph⟩, removed, same⟩ := Option.map_eq_some_iff.1 success
  obtain ⟨rfl, rfl⟩ := Prod.mk.inj same
  obtain ⟨isLink, rfl⟩ := disconnect_cases removed
  obtain ⟨inLinks, isGone⟩ := mem_of_link? isLink
  exact ⟨inLinks, isGone, rfl⟩

theorem Kept.disconnect (kept : session.Kept)
    (success : session.disconnect gone = some (link, next)) : next.Kept := by
  have performed : session.perform (.disconnect gone) = next := by
    rw [perform, success]
    rfl
  exact kept_of_perform kept performed

/-- A link that is gone leaves every node as incomplete at least. -/
theorem Kept.eases_disconnect (kept : session.Kept)
    (success : session.disconnect gone = some (link, next)) {after : Readiness}
    (found : next.readiness? other = some after) :
    ∃ before, session.readiness? other = some before ∧ after.Eases before := by
  have keptNext := kept.disconnect success
  obtain ⟨inLinks, -, rfl⟩ := disconnect_spec success
  refine keptNext.eases kept (fun other => ?_) found
  rw [missing?_commitGraph]
  exact eases_dropLink kept.tied inLinks other

/-- Once the only link that fills a field is gone, its target is incomplete, and so are the chains
of all nodes that the target reaches. -/
theorem Kept.incomplete_disconnect (kept : session.Kept)
    (success : session.disconnect gone = some (link, next)) {node : Node} {blueprint : Blueprint}
    (sound : blueprint.Sound) (fits : node.Fits blueprint)
    (isTarget : session.graph.node? link.target = some node) (only : node.OnlyFiller gone) :
    (∃ after, next.readiness? link.target = some after ∧ after.complete = false) ∧
      ∀ other, session.graph.Reaches link.target other →
        ∃ after, next.readiness? other = some after ∧ after.chainComplete = false := by
  have keptNext := kept.disconnect success
  obtain ⟨inLinks, rfl, rfl⟩ := disconnect_spec success
  have isMissing : (session.graph.dropLink link).missing? link.target =
      some (node.forget [link.id]).missingFields := by
    rw [missing?_dropLink kept.tied inLinks, isTarget, Option.map_some]
  have incomplete : (node.forget [link.id]).missingFields ≠ [] := by
    have retouches := Node.Retouches.of_unlinked (node.unlinked_forget [link.id])
    exact List.isEmpty_eq_false_iff.1 (only.not_isComplete sound (retouches.fits fits))
  refine ⟨?_, fun other reaches => ?_⟩
  · obtain ⟨after, isAfter⟩ :=
      exists_readiness ((missing?_commitGraph session _ _).trans isMissing)
    refine ⟨after, isAfter, Bool.eq_false_iff.2 fun complete => incomplete ?_⟩
    obtain ⟨isMissingNext, completeNext, -⟩ := keptNext.readiness_spec isAfter
    rw [missing?_commitGraph, isMissing, completeNext.1 complete] at isMissingNext
    exact Option.some.inj isMissingNext
  · have only : ∀ stored ∈ session.graph.links, stored.id = link.id → stored = link :=
      fun stored isStored same => kept.tied.link_eq_of_id isStored inLinks same
    have isNode : other ∈ session.graph.nodeIds := by
      cases reaches with
      | refl => exact mem_nodeIds_of_missing? (Option.map_eq_some_iff.2 ⟨node, isTarget, rfl⟩)
      | tail _ feeds => exact (feeds.mem_nodeIds kept.tied).2
    obtain ⟨consumer, isConsumer, rfl⟩ := List.mem_map.1 isNode
    have found := node?_of_mem kept.tied.nodesAscend isConsumer
    obtain ⟨after, isAfter⟩ := exists_readiness <| (missing?_commitGraph session _ _).trans <|
      (missing?_dropLink kept.tied inLinks consumer.id).trans (by rw [found, Option.map_some])
    refine ⟨after, isAfter, Bool.eq_false_iff.2 fun complete => incomplete ?_⟩
    obtain ⟨-, -, chain⟩ := keptNext.readiness_spec isAfter
    rw [chainComplete_commitGraph, (kept.tied.dropLink only).chainComplete_iff] at chain
    exact chain.1 complete _ _ ((agree_dropLink only).reaches_iff_start.2 reaches) isMissing

/-- Whatever was done to a session, a value that is not empty leaves all nodes as ready at least;
a new link leaves all nodes as complete at least, and those that its target does not reach as they
were; and a link that is gone leaves all nodes as incomplete at least. If it was the only one that
filled a field, its target is incomplete then, and the chains that the target is part of are. -/
theorem monotone_run (resolution : Resolution) (operations : List Operation) :
    let session := run resolution operations
    (∀ id slot value next, session.setInput id slot value = some next → value.isEmpty = false →
      ∀ other before, session.readiness? other = some before →
        ∃ after, next.readiness? other = some after ∧ before.Eases after ∧
          (before.chainComplete = true → after.chainComplete = true)) ∧
    (∀ origin originSlot target targetSlot link next,
      session.connect origin originSlot target targetSlot = .ok (link, next) →
      ∀ other before, session.readiness? other = some before →
        ∃ after, next.readiness? other = some after ∧ before.Eases after ∧
          (¬session.graph.Reaches target other → after = before)) ∧
    ∀ gone link next, session.disconnect gone = some (link, next) →
      (∀ other after, next.readiness? other = some after →
        ∃ before, session.readiness? other = some before ∧ after.Eases before) ∧
      ∀ node, session.graph.node? link.target = some node → node.OnlyFiller gone →
        (∃ after, next.readiness? link.target = some after ∧ after.complete = false) ∧
        ∀ other, session.graph.Reaches link.target other →
          ∃ after, next.readiness? other = some after ∧ after.chainComplete = false := by
  have kept := kept_run resolution operations
  refine ⟨fun id slot value next success isSome other before found => ?_,
    fun origin originSlot target targetSlot link next success other before found => ?_,
    fun gone link next success => ⟨fun other after found => ?_, fun node isTarget only => ?_⟩⟩
  · exact kept.eases_setInput success isSome found
  · exact kept.eases_connect success found
  · exact kept.eases_disconnect success found
  · have known := History.knows_run resolution operations
    rw [History.session_run] at known
    obtain ⟨blueprint, sound, -, fits⟩ := (known node (mem_of_node? isTarget).1).exists_fits
    exact kept.incomplete_disconnect success sound fits isTarget only

end Session

end Workflow
