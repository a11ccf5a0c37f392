/-
This file proves that the events of an operation tell which nodes and links there are
afterwards.

Whoever has seen a roster of the nodes and links of a graph keeps it up by the events
that follow. Every event is recorded when its change is made, and the graph is tied
after each of these changes, also amid the cascade that removing a node or a key sets
off. So the roster is closed at any event: no link is on it without its ends.
-/

import Workflow.Proofs.Graph.Operations
import Workflow.Proofs.Graph.Reach

namespace Workflow

/-- Events that do not matter to what is made of them leave it as it is. -/
theorem foldl_of_unminded {State : Type} {see : State → Event → State} {events : List Event}
    (unminded : ∀ event ∈ events, ∀ state, see state event = state) (state : State) :
    events.foldl see state = state := by
  refine List.foldlRecOn events see (motive := (· = state)) rfl fun seen same event member => ?_
  rw [unminded event member, same]

/-- The nodes of a graph, and its links with the nodes they join. -/
structure Roster where
  nodes : List NodeId := []
  links : List (LinkId × NodeId × NodeId) := []

namespace Roster

/-- The roster after an event. -/
def see (roster : Roster) : Event → Roster
  | .nodeCreated id => { roster with nodes := roster.nodes ++ [id] }
  | .nodeRemoved id => { roster with nodes := roster.nodes.filter (· ≠ id) }
  | .linkCreated id origin target => { roster with links := roster.links ++ [(id, origin, target)] }
  | .linkRemoved id _ _ => { roster with links := roster.links.filter fun link => link.1 ≠ id }
  | .graphCleared => {}
  | _ => roster

/-- The roster of someone who saw events from the start. -/
def of (events : List Event) : Roster := events.foldl see {}

/-- Every link on the roster joins nodes on it. -/
def Closed (roster : Roster) : Prop :=
  ∀ id origin target, (id, origin, target) ∈ roster.links →
    origin ∈ roster.nodes ∧ target ∈ roster.nodes

/-- The roster is closed after any first part of the events. -/
def StaysClosed (roster : Roster) (events : List Event) : Prop :=
  ∀ seen, seen <+: events → (seen.foldl see roster).Closed

theorem staysClosed_nil {roster : Roster} (closed : roster.Closed) : roster.StaysClosed [] := by
  intro seen isPrefix
  rw [List.prefix_nil.1 isPrefix]
  exact closed

theorem StaysClosed.append {roster : Roster} {events more : List Event}
    (first : roster.StaysClosed events) (later : (events.foldl see roster).StaysClosed more) :
    roster.StaysClosed (events ++ more) := by
  intro seen isPrefix
  rcases List.prefix_or_prefix_of_prefix isPrefix (List.prefix_append events more) with
    early | ⟨rest, rfl⟩
  · exact first seen early
  · rw [List.foldl_append]
    exact later rest ((List.prefix_append_right_inj events).1 isPrefix)

theorem staysClosed_of_unminded {events : List Event}
    (unminded : ∀ event ∈ events, ∀ roster : Roster, roster.see event = roster) {roster : Roster}
    (closed : roster.Closed) : roster.StaysClosed events := by
  intro seen isPrefix
  rw [foldl_of_unminded fun event member => unminded event (isPrefix.subset member)]
  exact closed

end Roster

/-- An event that tells of a change, and not of readiness. -/
def Event.IsChange : Event → Prop
  | .readinessChanged .. => False
  | _ => True

namespace Graph

/-- The roster of a graph. -/
def roster (graph : Graph) : Roster where
  nodes := graph.nodeIds
  links := graph.links.map fun link => (link.id, link.origin, link.target)

variable {graph before after : Graph} {id : NodeId}

theorem Tied.closed_roster (tied : graph.Tied) : graph.roster.Closed := by
  intro id origin target member
  obtain ⟨link, isLink, same⟩ := List.mem_map.1 member
  simp only [Prod.mk.injEq] at same
  have feeds : graph.Feeds origin target := ⟨link, isLink, same.2⟩
  exact feeds.mem_nodeIds tied

/-- The events that a change adds lead from the roster of one graph to that of the other, through
rosters that are closed. -/
def Told (before after : Graph) : Prop :=
  ∃ more, after.events = before.events ++ more ∧ (∀ event ∈ more, event.IsChange) ∧
    more.foldl Roster.see before.roster = after.roster ∧ before.roster.StaysClosed more

namespace Told

/-- Nothing has to be told where the roster stays. -/
theorem silent (tied : before.Tied) (events : after.events = before.events)
    (same : after.roster = before.roster) : Told before after := by
  exact ⟨[], by rw [events, List.append_nil], fun event none => absurd none List.not_mem_nil,
    same.symm, Roster.staysClosed_nil tied.closed_roster⟩

theorem refl (tied : graph.Tied) : Told graph graph := silent tied rfl rfl

/-- A change is told by one event. -/
theorem of_event (event : Event) (tiedBefore : before.Tied) (tiedAfter : after.Tied)
    (isChange : event.IsChange) (events : after.events = before.events ++ [event])
    (tells : after.roster = before.roster.see event) : Told before after := by
  refine ⟨[event], events, List.forall_mem_singleton.2 isChange, tells.symm,
    fun seen isPrefix => ?_⟩
  rcases List.prefix_cons_iff.1 isPrefix with rfl | ⟨rest, rfl, isRest⟩
  · exact tiedBefore.closed_roster
  · rw [List.prefix_nil.1 isRest, List.foldl_cons, ← tells]
    exact tiedAfter.closed_roster

theorem trans {middle : Graph} (one : Told before middle) (other : Told middle after) :
    Told before after := by
  obtain ⟨some, eventsOne, changesOne, leadsOne, closedOne⟩ := one
  obtain ⟨more, eventsOther, changesOther, leadsOther, closedOther⟩ := other
  refine ⟨some ++ more, by rw [eventsOther, eventsOne, List.append_assoc], ?_, ?_, ?_⟩
  · exact List.forall_mem_append.2 ⟨changesOne, changesOther⟩
  · rw [List.foldl_append, leadsOne, leadsOther]
  · exact closedOne.append (leadsOne ▸ closedOther)

end Told

/-! ### Elementary changes -/

/-- What changes on a node is not on the roster. -/
theorem roster_modifyNode {change : Node → Node} (keeps : ∀ node, (change node).id = node.id) :
    (graph.modifyNode id change).roster = graph.roster :=
  congrArg (Roster.mk · _) (nodeIds_modifyNode graph id change keeps)

/-- A node is changed at an event that the roster does not mind. -/
theorem told_modifyNode {event : Event} {change : Node → Node} (tied : graph.Tied)
    (keeps : ∀ node, (change node).id = node.id)
    (tiedAfter : ((graph.modifyNode id change).record event).Tied) (isChange : event.IsChange)
    (minds : ∀ roster : Roster, roster.see event = roster) :
    Told graph ((graph.modifyNode id change).record event) :=
  .of_event event tied tiedAfter isChange rfl ((roster_modifyNode keeps).trans (minds _).symm)

theorem told_addNode {make : NodeId → Node} (tied : graph.Tied)
    (tiedAfter : (graph.addNode make).2.Tied)
    (fresh : (make ⟨graph.nextNode⟩).id = ⟨graph.nextNode⟩) :
    Told graph (graph.addNode make).2 := by
  refine .of_event (.nodeCreated ⟨graph.nextNode⟩) tied tiedAfter trivial rfl ?_
  refine congrArg (Roster.mk · _) ?_
  show (graph.nodes ++ [make ⟨graph.nextNode⟩]).map Node.id = _
  rw [List.map_append, List.map_singleton, fresh]
  rfl

theorem told_addLink {origin target : NodeId} {originSlot targetSlot : Nat} (tied : graph.Tied)
    (tiedAfter : (graph.addLink origin originSlot target targetSlot).2.Tied) :
    Told graph (graph.addLink origin originSlot target targetSlot).2 := by
  refine .of_event (.linkCreated ⟨graph.nextLink⟩ origin target) tied tiedAfter trivial
    rfl ?_
  refine congrArg₂ Roster.mk (nodeIds_addLink ..) ?_
  exact List.map_append

theorem told_dropLink {link : Link} (tied : graph.Tied)
    (only : ∀ other ∈ graph.links, other.id = link.id → other = link) :
    Told graph (graph.dropLink link) := by
  refine .of_event (.linkRemoved link.id link.origin link.target) tied (tied.dropLink only)
    trivial rfl ?_
  refine congrArg₂ Roster.mk (nodeIds_dropLink ..) ?_
  show (graph.links.filter fun other => other.id ≠ link.id).map _ = (graph.links.map _).filter _
  rw [List.filter_map]
  rfl

theorem told_dropLinks (tied : graph.Tied) (links : List Link)
    (only : ∀ link ∈ links, ∀ other ∈ graph.links, other.id = link.id → other = link) :
    Told graph (links.foldl dropLink graph) := by
  refine (dropLinks_keeps (fun after => after.Tied ∧ Told graph after) links only
    (fun before link onlyFirst both => ?_) ⟨tied, .refl tied⟩).2
  exact ⟨both.1.dropLink onlyFirst, both.2.trans (told_dropLink both.1 onlyFirst)⟩

theorem told_dropAccepted (tied : graph.Tied) (accepts : Link → Bool) :
    Told graph ((graph.links.filter accepts).foldl dropLink graph) :=
  told_dropLinks tied _ fun _ member _ isLink same =>
    tied.link_eq_of_id isLink (List.mem_of_mem_filter member) same

theorem Tied.dropAccepted (tied : graph.Tied) (accepts : Link → Bool) :
    ((graph.links.filter accepts).foldl Graph.dropLink graph).Tied := by
  have edits : Edits Blueprint.Sound True graph
      ((graph.links.filter accepts).foldl Graph.dropLink graph) := edits_dropAccepted tied accepts
  exact edits.tied tied

/-- The slot of a link may move, but the link joins the same nodes. -/
theorem roster_removeSlot (graph : Graph) (id : NodeId) (side : Direction) (place : Nat) :
    (graph.removeSlot id side place).roster = graph.roster := by
  refine congrArg₂ Roster.mk (nodeIds_removeSlot ..) ?_
  show ((graph.links.map (shiftLink id side place)).map fun link =>
    (link.id, link.origin, link.target)) = _
  rw [List.map_map]
  refine List.map_congr_left fun link _ => ?_
  cases side <;> rw [Function.comp_apply, shiftLink] <;> split <;> rfl

/-! ### Operations -/

theorem told_createNode (tied : graph.Tied) (modelRef : String) (model : Model) (fragment : Object)
    (tiedAfter : (graph.createNode modelRef model fragment).2.Tied) :
    Told graph (graph.createNode modelRef model fragment).2 :=
  told_addNode tied tiedAfter
    (congrArg Node.id (Node.bare_ofModel graph.seed _ modelRef model fragment) :)

theorem told_createPrimitive (tied : graph.Tied) (kind : NativeKind) (value : Json)
    (tiedAfter : (graph.createPrimitive kind value).2.Tied) :
    Told graph (graph.createPrimitive kind value).2 := told_addNode tied tiedAfter rfl

/-- The links of a node are told to be gone before the node is. -/
theorem told_removeNode (tied : graph.Tied) (tiedAfter : after.Tied) {node : Node}
    (success : graph.removeNode id = some (node, after)) : Told graph after := by
  obtain ⟨-, rfl⟩ := removeNode_cases success
  refine (told_dropAccepted tied _).trans
    (.of_event (.nodeRemoved id) (tied.dropAccepted _) tiedAfter trivial rfl ?_)
  refine congrArg (Roster.mk · _) ?_
  show (List.filter _ _).map Node.id = (List.map Node.id _).filter _
  rw [List.filter_map]
  rfl

theorem told_connect (tied : graph.Tied) (tiedAfter : after.Tied) {origin target : NodeId}
    {originSlot targetSlot : Nat} {link : LinkId}
    (success : graph.connect origin originSlot target targetSlot = .ok (link, after)) :
    Told graph after := by
  obtain ⟨isAdded, -⟩ := connect_cases success
  obtain rfl : after = _ := congrArg Prod.snd isAdded
  exact told_addLink tied tiedAfter

theorem told_disconnect (tied : graph.Tied) {link : LinkId} {stored : Link}
    (success : graph.disconnect link = some (stored, after)) : Told graph after := by
  obtain ⟨isLink, rfl⟩ := disconnect_cases success
  exact told_dropLink tied fun other member same =>
    tied.link_eq_of_id member (mem_of_link? isLink).1 same

theorem told_setInput (tied : graph.Tied) (tiedAfter : after.Tied) {slot : Nat} {value : Json}
    (success : graph.setInput id slot value = some after) : Told graph after := by
  obtain ⟨-, rfl⟩ := setInput_cases success
  exact told_modifyNode tied (fun _ => rfl) tiedAfter trivial fun _ => rfl

theorem told_setPrimitive (tied : graph.Tied) (tiedAfter : after.Tied) {value : Json}
    (success : graph.setPrimitive id value = some after) : Told graph after := by
  obtain ⟨-, rfl⟩ := setConstant_cases (setPrimitive_cases success).2
  exact told_modifyNode tied (fun _ => rfl) tiedAfter trivial fun _ => rfl

theorem told_setPosition (tied : graph.Tied) (tiedAfter : after.Tied) {position : Point}
    (success : graph.setPosition id position = some after) : Told graph after := by
  obtain ⟨-, rfl⟩ := setPosition_cases success
  exact told_modifyNode tied (fun _ => rfl) tiedAfter trivial fun _ => rfl

theorem told_addKey (tied : graph.Tied) (tiedAfter : after.Tied) {field key : String} {place : Nat}
    (success : graph.addKey id field key = .ok (place, after)) : Told graph after := by
  obtain ⟨-, node, direction, first, others, template, -, -, -, -,
    ⟨-, -, -, rfl⟩ | ⟨-, -, rfl⟩⟩ := addKey_cases success
  · exact told_modifyNode tied (fun _ => by cases direction <;> rfl) tiedAfter trivial fun _ => rfl
  · exact told_modifyNode tied (fun _ => by cases direction <;> rfl) tiedAfter trivial fun _ => rfl

theorem told_renameKey (tied : graph.Tied) (tiedAfter : after.Tied) {field key newKey : String}
    (success : graph.renameKey id field key newKey = .ok after) : Told graph after := by
  obtain ⟨-, node, direction, places, place, -, -, -, ⟨-, rfl⟩ | ⟨-, -, rfl⟩⟩ :=
    renameKey_cases success
  · exact .refl tied
  · exact told_modifyNode tied (fun _ => by cases direction <;> rfl) tiedAfter trivial fun _ => rfl

/-- The links of a slot are told to be gone before the slot is. -/
theorem told_removeKey (tied : graph.Tied) (tiedAfter : after.Tied) {field key : String}
    (success : graph.removeKey id field key = .ok after) : Told graph after := by
  obtain ⟨node, direction, places, place, -, -, -, -, rfl⟩ := removeKey_cases success
  refine (told_dropAccepted tied _).trans
    (.of_event (.slotsChanged id field) (tied.dropAccepted _) tiedAfter trivial rfl ?_)
  refine (roster_modifyNode ?_).trans (roster_removeSlot ..)
  exact fun _ => rfl

end Graph

end Workflow
