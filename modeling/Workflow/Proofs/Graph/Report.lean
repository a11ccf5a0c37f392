/-
This file proves that the events of an operation call into question all readiness
that the operation may change.

What decides the readiness of a node is what is missing on it and on all that feeds
it. An operation leaves this as it is, but for nodes that its events ask to refresh
from; nodes that these reach are refreshed with them. So a graph whose readiness was
up to date is settled but for the nodes that the events ask for.
-/

import Workflow.Proofs.Graph.Refresh

namespace Workflow.Graph

/-- What decides readiness is the same in two graphs, but for nodes under some ids. -/
structure Agree (asked : NodeId → Prop) (before after : Graph) : Prop where
  nodes : ∀ node ∈ after.nodes, ¬asked node.id → ∃ old ∈ before.nodes,
    node.id = old.id ∧ node.readiness = old.readiness ∧ node.missingFields = old.missingFields
  feeds : ∀ producer consumer, ¬asked consumer →
    (after.Feeds producer consumer ↔ before.Feeds producer consumer)

namespace Agree

variable {asked others : NodeId → Prop} {before after : Graph}

theorem refl (graph : Graph) : Agree asked graph graph :=
  ⟨fun node member _ => ⟨node, member, rfl, rfl, rfl⟩, fun _ _ _ => Iff.rfl⟩

theorem mono (agree : Agree asked before after) (implies : ∀ id, asked id → others id) :
    Agree others before after :=
  ⟨fun node member apart => agree.nodes node member fun isAsked => apart (implies _ isAsked),
    fun producer consumer apart => agree.feeds producer consumer fun isAsked =>
      apart (implies _ isAsked)⟩

theorem record (agree : Agree asked before after) (event : Event) :
    Agree asked before (after.record event) := ⟨agree.nodes, agree.feeds⟩

theorem trans {first second third : Graph} (one : Agree asked first second)
    (other : Agree asked second third) : Agree asked first third where
  nodes node member apart := by
    obtain ⟨middle, isMiddle, id, readiness, missing⟩ := other.nodes node member apart
    obtain ⟨old, isOld, sameId, sameReadiness, sameMissing⟩ :=
      one.nodes middle isMiddle (id ▸ apart)
    exact ⟨old, isOld, id.trans sameId, readiness.trans sameReadiness, missing.trans sameMissing⟩
  feeds producer consumer apart :=
    (other.feeds producer consumer apart).trans (one.feeds producer consumer apart)

/-- Where no node that is asked for reaches, the same nodes reach in both graphs. -/
theorem reaches_iff (agree : Agree asked before after) {id other : NodeId}
    (apart : ∀ start, asked start → ¬after.Reaches start id) :
    after.Reaches other id ↔ before.Reaches other id := by
  have unasked : ∀ start, after.Reaches start id → ¬asked start :=
    fun start reaches isAsked => apart start isAsked reaches
  exact ⟨.transfer_toward fun producer consumer reaches _ =>
      (agree.feeds producer consumer (unasked consumer reaches)).1,
    .transfer_toward fun producer consumer _ reaches =>
      (agree.feeds producer consumer (unasked consumer reaches)).2⟩

/-- Where no node that is asked for reaches, the same chains are complete in both graphs. -/
theorem chainComplete_iff (agree : Agree asked before after) (tiedBefore : before.Tied)
    (tiedAfter : after.Tied) {id : NodeId} (isNode : id ∈ after.nodeIds)
    (apart : ∀ start, asked start → ¬after.Reaches start id) :
    after.ChainComplete id ↔ before.ChainComplete id := by
  have unasked : ∀ other, after.Reaches other id → ¬asked other :=
    fun other reaches isAsked => apart other isAsked reaches
  refine ⟨fun chain other isOther reaches => ?_, fun chain other isOther reaches => ?_⟩
  · have still := (agree.reaches_iff apart).2 reaches
    obtain ⟨later, isLater, same⟩ := List.mem_map.1 (still.isNode tiedAfter isNode)
    obtain ⟨earlier, isEarlier, sameId, -, missing⟩ :=
      agree.nodes later isLater (same ▸ unasked _ still)
    obtain rfl : other = earlier := by
      refine tiedBefore.eq_of_node? (node?_of_mem tiedBefore.nodesAscend isEarlier) isOther ?_
      exact same.symm.trans sameId
    rw [Node.isComplete, ← missing]
    exact chain later isLater (same ▸ still)
  · obtain ⟨earlier, isEarlier, sameId, -, missing⟩ :=
      agree.nodes other isOther (unasked _ reaches)
    rw [Node.isComplete, missing]
    refine chain earlier isEarlier ?_
    rw [← sameId]
    exact (agree.reaches_iff apart).1 reaches

/-- If readiness was up to date, it still is where no node that is asked for reaches. -/
theorem settled {waiting : List NodeId} (agree : Agree (· ∈ waiting) before after)
    (tiedBefore : before.Tied) (tiedAfter : after.Tied) (current : before.Current) :
    after.Settled waiting where
  own node member apart := by
    obtain ⟨old, isOld, -, readiness, missing⟩ := agree.nodes node member apart
    refine (current.own old isOld List.not_mem_nil).congr ?_ ?_ missing
    · rw [readiness]
    · rw [readiness]
  chains node member apart := by
    obtain ⟨old, isOld, sameId, readiness, -⟩ :=
      agree.nodes node member fun waits => apart node.id waits .refl
    rw [ChainCurrent, readiness,
      agree.chainComplete_iff tiedBefore tiedAfter (List.mem_map_of_mem member) apart, sameId]
    exact current.chains old isOld fun _ waits => absurd waits List.not_mem_nil

end Agree

/-- The events that a change adds ask for every node whose readiness they do not leave as it was,
unless one of them calls everything into question. -/
def Reports (before after : Graph) : Prop :=
  ∃ more, after.events = before.events ++ more ∧
    ((∀ event ∈ more, event.refreshScope ≠ .everything) →
      Agree (fun id => ∃ event ∈ more, event.refreshScope = .downstreamOf id) before after)

namespace Reports

variable {before after : Graph}

theorem of_agree (agree : Agree (fun _ => False) before after)
    (events : after.events = before.events) : Reports before after :=
  ⟨[], events.trans (List.append_nil _).symm, fun _ => agree.mono fun _ none => none.elim⟩

theorem refl (graph : Graph) : Reports graph graph := of_agree (.refl graph) rfl

/-- Changes at one node are reported by an event that asks for it. -/
theorem of_event {id : NodeId} {event : Event} (agree : Agree (· = id) before after)
    (events : after.events = before.events ++ [event])
    (asks : event.refreshScope = .downstreamOf id) : Reports before after :=
  ⟨[event], events, fun _ => agree.mono fun _ same =>
    ⟨event, List.mem_singleton.2 rfl, same ▸ asks⟩⟩

theorem trans {first second third : Graph} (one : Reports first second)
    (other : Reports second third) : Reports first third := by
  obtain ⟨some, eventsOne, agreeOne⟩ := one
  obtain ⟨more, eventsOther, agreeOther⟩ := other
  refine ⟨some ++ more, by rw [eventsOther, eventsOne, List.append_assoc], fun limited => ?_⟩
  refine ((agreeOne fun event member => limited event (List.mem_append_left _ member)).mono
    fun id asks => ?_).trans ((agreeOther fun event member =>
      limited event (List.mem_append_right _ member)).mono fun id asks => ?_)
  · exact asks.imp fun event both => ⟨List.mem_append_left _ both.1, both.2⟩
  · exact asks.imp fun event both => ⟨List.mem_append_right _ both.1, both.2⟩

/-- A change that ends with calling everything into question. -/
theorem of_everything {middle : Graph} (reports : Reports before middle) {event : Event}
    (events : after.events = middle.events ++ [event])
    (asks : event.refreshScope = .everything) : Reports before after := by
  obtain ⟨more, eventsMiddle, -⟩ := reports
  refine ⟨more ++ [event], by rw [events, eventsMiddle, List.append_assoc], fun limited => ?_⟩
  exact absurd asks (limited event (List.mem_append_right _ (List.mem_singleton.2 rfl)))

end Reports

/-! ### Elementary changes -/

variable {graph after : Graph} {id : NodeId}

theorem agree_mapNodes {asked : NodeId → Prop} {change : Node → Node}
    (keeps : ∀ node ∈ graph.nodes, ¬asked (change node).id → (change node).id = node.id ∧
      (change node).readiness = node.readiness ∧
      (change node).missingFields = node.missingFields) :
    Agree asked graph (graph.mapNodes change) := by
  refine ⟨fun node member apart => ?_, fun _ _ _ => Iff.rfl⟩
  obtain ⟨old, isOld, rfl⟩ := List.mem_map.1 member
  exact ⟨old, isOld, keeps old isOld apart⟩

/-- Whatever changes on a node, only its own readiness and that of nodes it reaches may change. -/
theorem agree_modifyNode {change : Node → Node} (keeps : ∀ node, (change node).id = node.id) :
    Agree (· = id) graph (graph.modifyNode id change) := by
  refine agree_mapNodes fun node _ apart => ?_
  by_cases same : node.id = id
  · rw [if_pos same] at apart
    exact absurd ((keeps node).trans same) apart
  · rw [if_neg same]
    exact ⟨rfl, rfl, rfl⟩

/-- Changes that leave inputs and readiness alone do not matter. -/
theorem agree_modifyNode_of_eq {change : Node → Node} (keeps : ∀ node, (change node).id = node.id)
    (readiness : ∀ node, (change node).readiness = node.readiness)
    (inputs : ∀ node, (change node).inputs = node.inputs)
    (multiInputs : ∀ node, (change node).multiInputs = node.multiInputs)
    {asked : NodeId → Prop} : Agree asked graph (graph.modifyNode id change) := by
  refine agree_mapNodes fun node _ _ => ?_
  split
  · exact ⟨keeps node, readiness node, Node.missingFields_congr (inputs node) (multiInputs node)⟩
  · exact ⟨rfl, rfl, rfl⟩

/-- A node changed at an event that asks for it. -/
theorem reports_modifyNode (event : Event) (asks : event.refreshScope = .downstreamOf id)
    {change : Node → Node} (keeps : ∀ node, (change node).id = node.id) :
    Reports graph ((graph.modifyNode id change).record event) :=
  .of_event ((agree_modifyNode keeps).record event) rfl asks

theorem agree_links {asked : NodeId → Prop} (nodes : after.nodes = graph.nodes)
    (feeds : ∀ producer consumer, ¬asked consumer →
      (after.Feeds producer consumer ↔ graph.Feeds producer consumer)) :
    Agree asked graph after :=
  ⟨fun node member _ => ⟨node, nodes ▸ member, rfl, rfl, rfl⟩, feeds⟩

theorem reports_addNode {make : NodeId → Node}
    (fresh : (make ⟨graph.nextNode⟩).id = ⟨graph.nextNode⟩) :
    Reports graph (graph.addNode make).2 := by
  have agree : Agree (· = ⟨graph.nextNode⟩) graph (graph.addNode make).2 := by
    refine ⟨fun node member apart => ?_, fun _ _ _ => Iff.rfl⟩
    rcases List.mem_append.1 member with old | added
    · exact ⟨node, old, rfl, rfl, rfl⟩
    · rw [List.mem_singleton.1 added] at apart
      exact absurd fresh apart
  exact .of_event agree rfl rfl

/-- A new link matters to its target alone. -/
theorem agree_addLink (graph : Graph) (origin : NodeId) (originSlot : Nat) (target : NodeId)
    (targetSlot : Nat) :
    Agree (· = target) graph (graph.addLink origin originSlot target targetSlot).2 := by
  have links : Agree (· = target) graph
      { graph with
        links := graph.links ++ [graph.nextLinkBetween origin originSlot target targetSlot]
        nextLink := graph.nextLink + 1 } := by
    refine agree_links rfl fun producer consumer apart => exists_congr fun link => ?_
    refine and_congr_left fun ends => ?_
    rw [List.mem_append, List.mem_singleton, or_iff_left]
    rintro rfl
    exact apart ends.2.symm
  refine .record (links.trans (.trans (agree_modifyNode_of_eq ?_ ?_ ?_ ?_) (agree_modifyNode ?_))) _
  all_goals exact fun _ => rfl

theorem reports_addLink (graph : Graph) (origin : NodeId) (originSlot : Nat) (target : NodeId)
    (targetSlot : Nat) :
    Reports graph (graph.addLink origin originSlot target targetSlot).2 :=
  .of_event (agree_addLink ..) rfl rfl

/-- A link that is gone matters to its target alone. -/
theorem agree_dropLink {link : Link}
    (only : ∀ other ∈ graph.links, other.id = link.id → other = link) :
    Agree (· = link.target) graph (graph.dropLink link) := by
  have links : Agree (· = link.target) graph
      { graph with links := graph.links.filter fun other => other.id ≠ link.id } := by
    refine agree_links rfl fun producer consumer apart => exists_congr fun other => ?_
    refine and_congr_left fun ends => ?_
    rw [List.mem_filter, decide_eq_true_eq, and_iff_left_iff_imp]
    intro member same
    rw [only other member same] at ends
    exact apart ends.2.symm
  refine .record (links.trans (.trans (agree_modifyNode_of_eq ?_ ?_ ?_ ?_) (agree_modifyNode ?_))) _
  all_goals exact fun _ => rfl

theorem reports_dropLink {link : Link}
    (only : ∀ other ∈ graph.links, other.id = link.id → other = link) :
    Reports graph (graph.dropLink link) :=
  .of_event (agree_dropLink only) rfl rfl

theorem reports_dropLinks (links : List Link)
    (only : ∀ link ∈ links, ∀ other ∈ graph.links, other.id = link.id → other = link) :
    Reports graph (links.foldl dropLink graph) :=
  dropLinks_keeps (Reports graph) links only
    (fun _ _ onlyFirst reports => reports.trans (reports_dropLink onlyFirst)) (.refl graph)

theorem reports_dropAccepted (tied : graph.Tied) (accepts : Link → Bool) :
    Reports graph ((graph.links.filter accepts).foldl dropLink graph) :=
  reports_dropLinks _ fun _ member _ isLink same =>
    tied.link_eq_of_id isLink (List.mem_of_mem_filter member) same

/-- Erasing a slot moves ends of links on their nodes, but no link to another node. -/
theorem agree_removeSlot (graph : Graph) (id : NodeId) (side : Direction) (place : Nat) :
    Agree (· = id) graph (graph.removeSlot id side place) := by
  have ends (link : Link) : (shiftLink id side place link).origin = link.origin ∧
      (shiftLink id side place link).target = link.target := by
    cases side <;> rw [shiftLink] <;> split <;> exact ⟨rfl, rfl⟩
  have links : Agree (· = id) graph
      { graph with links := graph.links.map (shiftLink id side place) } := by
    refine agree_links rfl fun producer consumer _ => ?_
    constructor
    · rintro ⟨link, member, rfl, rfl⟩
      obtain ⟨old, isOld, rfl⟩ := List.mem_map.1 member
      exact ⟨old, isOld, (ends old).1.symm, (ends old).2.symm⟩
    · rintro ⟨link, member, rfl, rfl⟩
      exact ⟨_, List.mem_map_of_mem member, (ends link).1, (ends link).2⟩
  refine links.trans ?_
  exact agree_modifyNode fun node => by cases side <;> rfl

/-! ### Operations -/

theorem reports_createNode (modelRef : String) (model : Model) (fragment : Object) :
    Reports graph (graph.createNode modelRef model fragment).2 :=
  reports_addNode (congrArg Node.id (Node.bare_ofModel graph.seed _ modelRef model fragment) :)

theorem reports_createPrimitive (kind : NativeKind) (value : Json) :
    Reports graph (graph.createPrimitive kind value).2 := reports_addNode rfl

theorem reports_removeNode (tied : graph.Tied) {node : Node}
    (success : graph.removeNode id = some (node, after)) : Reports graph after := by
  obtain ⟨-, rfl⟩ := removeNode_cases success
  exact (reports_dropAccepted tied _).of_everything rfl rfl

theorem reports_connect {origin target : NodeId} {originSlot targetSlot : Nat} {link : LinkId}
    (success : graph.connect origin originSlot target targetSlot = .ok (link, after)) :
    Reports graph after := by
  obtain ⟨isAdded, -⟩ := connect_cases success
  obtain rfl : after = _ := congrArg Prod.snd isAdded
  exact reports_addLink ..

theorem reports_disconnect (tied : graph.Tied) {link : LinkId} {stored : Link}
    (success : graph.disconnect link = some (stored, after)) : Reports graph after := by
  obtain ⟨isLink, rfl⟩ := disconnect_cases success
  exact reports_dropLink fun other member same =>
    tied.link_eq_of_id member (mem_of_link? isLink).1 same

theorem reports_setInput {slot : Nat} {value : Json}
    (success : graph.setInput id slot value = some after) : Reports graph after := by
  obtain ⟨-, rfl⟩ := setInput_cases success
  exact reports_modifyNode (.fieldChanged id slot) rfl fun _ => rfl

theorem reports_setPrimitive {value : Json} (success : graph.setPrimitive id value = some after) :
    Reports graph after := by
  obtain ⟨-, rfl⟩ := setConstant_cases (setPrimitive_cases success).2
  exact reports_modifyNode (.constantChanged id primitiveValueField) rfl fun _ => rfl

theorem reports_setPosition {position : Point}
    (success : graph.setPosition id position = some after) : Reports graph after := by
  obtain ⟨-, rfl⟩ := setPosition_cases success
  refine ⟨[.layoutChanged id], rfl, fun _ => .record (agree_modifyNode_of_eq ?_ ?_ ?_ ?_) _⟩
  all_goals exact fun _ => rfl

theorem reports_setPreviewOnly {previewOnly : Bool}
    (success : graph.setPreviewOnly id previewOnly = some after) : Reports graph after := by
  obtain ⟨-, rfl⟩ := setPreviewOnly_cases success
  refine .of_agree (agree_modifyNode_of_eq ?_ ?_ ?_ ?_) rfl
  all_goals exact fun _ => rfl

theorem events_setPreviewOnly {previewOnly : Bool}
    (success : graph.setPreviewOnly id previewOnly = some after) : after.events = graph.events := by
  obtain ⟨-, rfl⟩ := setPreviewOnly_cases success
  rfl

theorem reports_addKey {field key : String} {place : Nat}
    (success : graph.addKey id field key = .ok (place, after)) : Reports graph after := by
  obtain ⟨-, node, direction, first, others, template, -, -, -, -,
    ⟨-, -, -, rfl⟩ | ⟨-, -, rfl⟩⟩ := addKey_cases success
  · exact reports_modifyNode (.slotsChanged id field) rfl fun _ => by cases direction <;> rfl
  · exact reports_modifyNode (.slotsChanged id field) rfl fun _ => by cases direction <;> rfl

theorem reports_renameKey {field key newKey : String}
    (success : graph.renameKey id field key newKey = .ok after) : Reports graph after := by
  obtain ⟨-, node, direction, places, place, -, -, -, ⟨-, rfl⟩ | ⟨-, -, rfl⟩⟩ :=
    renameKey_cases success
  · exact .refl _
  · exact reports_modifyNode (.slotsChanged id field) rfl fun _ => by cases direction <;> rfl

theorem reports_removeKey (tied : graph.Tied) {field key : String}
    (success : graph.removeKey id field key = .ok after) : Reports graph after := by
  obtain ⟨node, direction, places, place, -, -, -, -, rfl⟩ := removeKey_cases success
  have agree := agree_removeSlot ((graph.links.filter (endsAt id direction place)).foldl dropLink
    graph) id direction place
  refine (reports_dropAccepted tied _).trans (.of_event (.record (agree.trans ?_) _) rfl rfl)
  exact agree_modifyNode fun _ => rfl

end Workflow.Graph
