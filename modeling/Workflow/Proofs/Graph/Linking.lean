/-
This file proves that links can be added and taken away, and slots without links
erased, in a tied graph.

Each of the three changes is described by what it does to the ports and to the
links at every slot. Erasing a slot moves the places behind it, on its side of its
node and for the ends of links there alike, so a slot is afterwards what the slot at
the place `shiftUp` of it was before.
-/

import Mathlib.Data.List.InsertIdx
import Workflow.Proofs.Graph.Tied
import Workflow.Proofs.Node.Places

namespace Workflow

/-! ### Slots changed in place -/

namespace Node

/-- The node with one output changed. -/
def reviseOutput (node : Node) (place : Nat) (change : OutputSlot → OutputSlot) : Node :=
  { node with outputs := node.outputs.modify place change }

/-- The node with one input changed. -/
def reviseInput (node : Node) (place : Nat) (change : InputSlot → InputSlot) : Node :=
  { node with inputs := node.inputs.modify place change }

theorem getElem?_ports_reviseOutput (node : Node) (place : Nat)
    (change : OutputSlot → OutputSlot) (revise : Port → Port)
    (agrees : ∀ slot : OutputSlot, (change slot).port = revise slot.port) (direction : Direction)
    (other : Nat) :
    ((node.reviseOutput place change).ports direction)[other]? =
      ((node.ports direction)[other]?).map fun port =>
        if Direction.output = direction ∧ place = other then revise port else port := by
  cases direction with
  | input => simp [reviseOutput, ports, Function.comp_def]
  | output =>
    rw [ports, reviseOutput, map_modify OutputSlot.port change revise agrees,
      List.getElem?_modify, ports]
    simp only [true_and, Option.map_eq_map]

theorem getElem?_ports_reviseInput (node : Node) (place : Nat)
    (change : InputSlot → InputSlot) (revise : Port → Port)
    (agrees : ∀ slot : InputSlot, (change slot).port = revise slot.port) (direction : Direction)
    (other : Nat) :
    ((node.reviseInput place change).ports direction)[other]? =
      ((node.ports direction)[other]?).map fun port =>
        if Direction.input = direction ∧ place = other then revise port else port := by
  cases direction with
  | output => simp [reviseInput, ports, Function.comp_def]
  | input =>
    rw [ports, reviseInput, map_modify InputSlot.port change revise agrees,
      List.getElem?_modify, ports]
    simp only [true_and, Option.map_eq_map]

theorem ports_eraseSlot (node : Node) (side : Direction) (place : Nat) (direction : Direction) :
    (node.eraseSlot side place).ports direction =
      if direction = side then (node.ports direction).eraseIdx place
      else node.ports direction := by
  cases side <;> cases direction <;> simp [eraseSlot, ports, List.eraseIdx_map]

end Node

namespace Graph

variable {graph : Graph}

/-- Changing one slot of a node changes one port of the graph. -/
theorem port?_revise (graph : Graph) (id : NodeId) (change : Node → Node)
    (keeps : ∀ node, (change node).id = node.id) {side : Direction} {spot : Nat}
    {revise : Port → Port}
    (ports : ∀ node direction place, ((change node).ports direction)[place]? =
      ((node.ports direction)[place]?).map fun port =>
        if side = direction ∧ spot = place then revise port else port)
    (other : NodeId) (direction : Direction) (place : Nat) :
    (graph.modifyNode id change).port? other direction place =
      (graph.port? other direction place).map fun port =>
        if id = other ∧ side = direction ∧ spot = place then revise port else port := by
  rw [port?_modifyNode _ _ _ change keeps, port?]
  cases graph.node? other with
  | none => simp
  | some node =>
    by_cases atNode : other = id
    · simp [atNode, ports]
    · simp [atNode, Ne.symm atNode]

theorem port?_reviseOutput (graph : Graph) (id : NodeId) (spot : Nat)
    (change : OutputSlot → OutputSlot) (revise : Port → Port)
    (agrees : ∀ slot : OutputSlot, (change slot).port = revise slot.port) (other : NodeId)
    (direction : Direction) (place : Nat) :
    (graph.modifyNode id fun node => node.reviseOutput spot change).port? other direction place =
      (graph.port? other direction place).map fun port =>
        if id = other ∧ Direction.output = direction ∧ spot = place then revise port
        else port :=
  graph.port?_revise id (fun node => node.reviseOutput spot change) (fun _ => rfl)
    (fun node => node.getElem?_ports_reviseOutput spot change revise agrees) other direction place

theorem port?_reviseInput (graph : Graph) (id : NodeId) (spot : Nat)
    (change : InputSlot → InputSlot) (revise : Port → Port)
    (agrees : ∀ slot : InputSlot, (change slot).port = revise slot.port) (other : NodeId)
    (direction : Direction) (place : Nat) :
    (graph.modifyNode id fun node => node.reviseInput spot change).port? other direction place =
      (graph.port? other direction place).map fun port =>
        if id = other ∧ Direction.input = direction ∧ spot = place then revise port
        else port :=
  graph.port?_revise id (fun node => node.reviseInput spot change) (fun _ => rfl)
    (fun node => node.getElem?_ports_reviseInput spot change revise agrees) other direction place

/-! ### Links added -/

/-- The link that is added next between two slots. -/
def nextLinkBetween (graph : Graph) (origin : NodeId) (originSlot : Nat) (target : NodeId)
    (targetSlot : Nat) : Link :=
  { id := ⟨graph.nextLink⟩
    origin := origin
    originSlot := originSlot
    target := target
    targetSlot := targetSlot }

/-- The new link stands at the end of the links of both its slots. -/
theorem port?_addLink (graph : Graph) (origin : NodeId) (originSlot : Nat) (target : NodeId)
    (targetSlot : Nat)
    (free : ∀ port, graph.port? target .input targetSlot = some port → port.links = [])
    (id : NodeId) (direction : Direction) (place : Nat) :
    (graph.addLink origin originSlot target targetSlot).2.port? id direction place =
      (graph.port? id direction place).map fun port =>
        if (graph.nextLinkBetween origin originSlot target targetSlot).endAt direction = (id, place)
        then { port with links := port.links ++ [⟨graph.nextLink⟩] } else port := by
  have output := port?_reviseOutput
    { graph with
      links := graph.links ++ [graph.nextLinkBetween origin originSlot target targetSlot]
      nextLink := graph.nextLink + 1 }
    origin originSlot (fun slot => { slot with links := slot.links ++ [⟨graph.nextLink⟩] })
    (fun port => { port with links := port.links ++ [⟨graph.nextLink⟩] }) (fun _ => rfl) id
    direction place
  refine (port?_reviseInput _ target targetSlot
    (fun slot => { slot with link := some ⟨graph.nextLink⟩ })
    (fun port => { port with links := [⟨graph.nextLink⟩] }) (fun _ => rfl) id direction
    place).trans ((congrArg (Option.map _) output).trans ?_)
  show ((graph.port? id direction place).map _).map _ = _
  cases found : graph.port? id direction place with
  | none => rfl
  | some port =>
    cases direction with
    | output => simp [nextLinkBetween, Link.endAt]
    | input =>
      by_cases atEnd : target = id ∧ targetSlot = place
      · obtain ⟨rfl, rfl⟩ := atEnd
        simp [nextLinkBetween, Link.endAt, free port found]
      · simp [nextLinkBetween, Link.endAt, atEnd]

theorem idsAt_addLink (graph : Graph) (origin : NodeId) (originSlot : Nat) (target : NodeId)
    (targetSlot : Nat) (id : NodeId) (direction : Direction) (place : Nat) :
    (graph.addLink origin originSlot target targetSlot).2.idsAt id direction place =
      graph.idsAt id direction place ++
        if (graph.nextLinkBetween origin originSlot target targetSlot).endAt direction = (id, place)
        then [⟨graph.nextLink⟩] else [] := by
  show ((graph.links ++ [graph.nextLinkBetween origin originSlot target targetSlot]).filter
    (endsAt id direction place)).map Link.id = _
  rw [List.filter_append, List.map_append]
  refine congrArg (graph.idsAt id direction place ++ ·) ?_
  by_cases atEnd : (graph.nextLinkBetween origin originSlot target targetSlot).endAt direction =
      (id, place)
  · rw [if_pos atEnd, List.filter_cons_of_pos ((endsAt_iff ..).2 atEnd)]
    rfl
  · rw [if_neg atEnd, List.filter_cons_of_neg fun holds => atEnd ((endsAt_iff ..).1 holds)]
    rfl

theorem nodeIds_addLink (graph : Graph) (origin : NodeId) (originSlot : Nat) (target : NodeId)
    (targetSlot : Nat) :
    (graph.addLink origin originSlot target targetSlot).2.nodeIds = graph.nodeIds := by
  refine (nodeIds_modifyNode _ target _ ?_).trans (nodeIds_modifyNode _ origin _ ?_)
  · exact fun _ => rfl
  · exact fun _ => rfl

/-- A link between a slot and a free one whose types fit can be added. -/
theorem Tied.addLink (tied : graph.Tied) {origin : NodeId} {originSlot : Nat} {target : NodeId}
    {targetSlot : Nat} {output input : Port}
    (isOutput : graph.port? origin .output originSlot = some output)
    (isInput : graph.port? target .input targetSlot = some input) (free : input.links = [])
    (fits : compatible output.info.rawType input.info.rawType = true) :
    (graph.addLink origin originSlot target targetSlot).2.Tied := by
  have port := port?_addLink graph origin originSlot target targetSlot fun port isPort => by
    rw [isInput] at isPort
    cases isPort
    exact free
  have carried : ∀ id direction place before, graph.port? id direction place = some before →
      ∃ same, (graph.addLink origin originSlot target targetSlot).2.port? id direction place =
        some same ∧ same.info.rawType = before.info.rawType := by
    intro id direction place before wasPort
    rw [port, wasPort]
    refine ⟨_, rfl, ?_⟩
    split <;> rfl
  have ids := nodeIds_addLink graph origin originSlot target targetSlot
  refine ⟨ids ▸ tied.nodesAscend, ?_, ids ▸ tied.nodesCounted, ?_, ?_, ?_⟩
  · refine List.pairwise_append.2 ⟨tied.linksAscend, List.pairwise_singleton _ _, ?_⟩
    intro link member added isAdded
    rw [List.mem_singleton.1 isAdded]
    exact tied.linksCounted link member
  · intro link member
    rcases List.mem_append.1 member with old | added
    · exact Nat.lt_succ_of_lt (tied.linksCounted link old)
    · rw [List.mem_singleton.1 added]
      exact Nat.lt_succ_self _
  · intro link member
    rcases List.mem_append.1 member with old | added
    · exact tied.ends_of_carried old fun direction => carried _ _ _
    · rw [List.mem_singleton.1 added]
      obtain ⟨sameOutput, isSameOutput, outputType⟩ := carried _ _ _ output isOutput
      obtain ⟨sameInput, isSameInput, inputType⟩ := carried _ _ _ input isInput
      refine ⟨sameOutput, sameInput, isSameOutput, isSameInput, ?_⟩
      rw [outputType, inputType]
      exact fits
  · intro id direction place after found
    rw [port] at found
    obtain ⟨before, wasPort, rfl⟩ := Option.map_eq_some_iff.1 found
    have references := tied.references id direction place before wasPort
    rw [idsAt_addLink]
    split
    · show before.links ++ _ = _
      rw [references]
    · rw [List.append_nil]
      exact references

/-! ### Links taken away -/

/-- A link that is taken away is forgotten at both its slots. -/
theorem port?_dropLink (graph : Graph) (link : Link) (id : NodeId) (direction : Direction)
    (place : Nat) :
    (graph.dropLink link).port? id direction place =
      (graph.port? id direction place).map fun port =>
        if link.endAt direction = (id, place)
        then { port with links := port.links.filter (· ≠ link.id) } else port := by
  have output := port?_reviseOutput
    { graph with links := graph.links.filter fun other => other.id ≠ link.id } link.origin
    link.originSlot (fun slot => { slot with links := slot.links.filter (· ≠ link.id) })
    (fun port => { port with links := port.links.filter (· ≠ link.id) }) (fun _ => rfl) id
    direction place
  refine (port?_reviseInput _ link.target link.targetSlot
    (fun slot => { slot with link := if slot.link = some link.id then none else slot.link })
    (fun port => { port with links := port.links.filter (· ≠ link.id) }) ?_ id direction
    place).trans ((congrArg (Option.map _) output).trans ?_)
  · intro slot
    cases linked : slot.link with
    | none => simp [InputSlot.port, linked]
    | some other =>
      by_cases same : other = link.id
      · simp [InputSlot.port, linked, same]
      · simp [InputSlot.port, linked, same]
  · show ((graph.port? id direction place).map _).map _ = _
    cases graph.port? id direction place with
    | none => rfl
    | some port => cases direction <;> simp [Link.endAt]

theorem idsAt_dropLink (graph : Graph) (link : Link) (id : NodeId) (direction : Direction)
    (place : Nat) :
    (graph.dropLink link).idsAt id direction place =
      (graph.idsAt id direction place).filter (· ≠ link.id) := by
  show ((graph.links.filter fun other => other.id ≠ link.id).filter
    (endsAt id direction place)).map Link.id = _
  rw [idsAt, List.filter_map, List.filter_filter, List.filter_filter]
  simp only [Function.comp_def, Bool.and_comm]

theorem nodeIds_dropLink (graph : Graph) (link : Link) :
    (graph.dropLink link).nodeIds = graph.nodeIds := by
  refine (nodeIds_modifyNode _ link.target _ ?_).trans (nodeIds_modifyNode _ link.origin _ ?_)
  · exact fun _ => rfl
  · exact fun _ => rfl

/-- The link of its id can be taken away. -/
theorem Tied.dropLink (tied : graph.Tied) {link : Link}
    (only : ∀ other ∈ graph.links, other.id = link.id → other = link) :
    (graph.dropLink link).Tied := by
  have ids := nodeIds_dropLink graph link
  refine ⟨ids ▸ tied.nodesAscend, tied.linksAscend.filter _, ids ▸ tied.nodesCounted, ?_, ?_, ?_⟩
  · exact fun other member => tied.linksCounted other (List.mem_of_mem_filter member)
  · refine fun other member => tied.ends_of_carried (List.mem_of_mem_filter member) ?_
    intro direction port found
    rw [endPort?, port?_dropLink, show graph.port? _ direction _ = some port from found]
    refine ⟨_, rfl, ?_⟩
    split <;> rfl
  · intro id direction place after found
    rw [port?_dropLink] at found
    obtain ⟨before, wasPort, rfl⟩ := Option.map_eq_some_iff.1 found
    have references := tied.references id direction place before wasPort
    rw [idsAt_dropLink, ← references]
    split
    · rfl
    · next elsewhere =>
      refine (List.filter_eq_self.2 fun listed member => ?_).symm
      rw [references] at member
      obtain ⟨other, isLink, atEnd, rfl⟩ := mem_idsAt.1 member
      refine decide_eq_true fun same => elsewhere ?_
      rw [← only other isLink same]
      exact atEnd

/-! ### Slots erased -/

/-- The place that a place had before one was removed. -/
def shiftUp (removed place : Nat) : Nat := if place < removed then place else place + 1

theorem shiftDown_eq_iff {removed place : Nat} (different : place ≠ removed) (other : Nat) :
    shiftDown removed place = other ↔ place = shiftUp removed other := by
  unfold shiftDown shiftUp
  split <;> split <;> omega

theorem id_shiftLink (id : NodeId) (side : Direction) (place : Nat) (link : Link) :
    (shiftLink id side place link).id = link.id := by
  cases side <;> simp only [shiftLink] <;> split <;> rfl

theorem endAt_shiftLink (id : NodeId) (side : Direction) (place : Nat) (link : Link)
    (direction : Direction) :
    (shiftLink id side place link).endAt direction =
      if direction = side ∧ (link.endAt direction).1 = id
      then (id, shiftDown place (link.endAt direction).2) else link.endAt direction := by
  cases side <;> cases direction <;> simp only [shiftLink, Link.endAt] <;> split <;> simp_all

/-- A link that does not end at the erased slot ends where its end was before. -/
theorem endAt_shiftLink_iff {id : NodeId} {side : Direction} {place : Nat} {link : Link}
    (apart : link.endAt side ≠ (id, place)) (other : NodeId) (direction : Direction) (spot : Nat) :
    (shiftLink id side place link).endAt direction = (other, spot) ↔
      link.endAt direction =
        (other, if other = id ∧ direction = side then shiftUp place spot else spot) := by
  rw [endAt_shiftLink]
  cases ends : link.endAt direction with
  | mk node slot =>
    by_cases same : direction = side
    · subst same
      by_cases atNode : node = id
      · subst atNode
        have different : slot ≠ place := fun atPlace => apart (by rw [ends, atPlace])
        have moved := shiftDown_eq_iff different spot
        by_cases here : node = other
        · simp [here, moved]
        · simp [here]
      · by_cases here : node = other
        · subst here
          simp [atNode]
        · simp [atNode, here]
    · simp [same]

theorem endAt_ne_of_idsAt_eq_nil {id : NodeId} {side : Direction} {place : Nat}
    (empty : graph.idsAt id side place = []) {link : Link} (member : link ∈ graph.links) :
    link.endAt side ≠ (id, place) := by
  intro atEnd
  have listed := mem_idsAt.2 ⟨link, member, atEnd, rfl⟩
  rw [empty] at listed
  cases listed

/-- Behind an erased slot the slots move up by one place. -/
theorem port?_removeSlot (graph : Graph) (id : NodeId) (side : Direction) (place : Nat)
    (other : NodeId) (direction : Direction) (spot : Nat) :
    (graph.removeSlot id side place).port? other direction spot =
      graph.port? other direction
        (if other = id ∧ direction = side then shiftUp place spot else spot) := by
  refine (port?_modifyNode _ id other _ (fun node => ?_) direction spot).trans ?_
  · cases side <;> rfl
  · show (if other = id then (graph.node? other).bind _ else graph.port? other direction spot) = _
    by_cases atNode : other = id
    · rw [if_pos atNode, port?]
      refine congrArg (graph.node? other).bind (funext fun node => ?_)
      rw [node.ports_eraseSlot]
      by_cases same : direction = side
      · rw [if_pos same, if_pos ⟨atNode, same⟩, List.getElem?_eraseIdx, shiftUp]
        split <;> rfl
      · rw [if_neg same, if_neg fun both => same both.2]
    · rw [if_neg atNode, if_neg fun both => atNode both.1]

theorem idsAt_removeSlot {id : NodeId} {side : Direction} {place : Nat}
    (empty : graph.idsAt id side place = []) (other : NodeId) (direction : Direction)
    (spot : Nat) :
    (graph.removeSlot id side place).idsAt other direction spot =
      graph.idsAt other direction
        (if other = id ∧ direction = side then shiftUp place spot else spot) := by
  show ((graph.links.map (shiftLink id side place)).filter (endsAt other direction spot)).map
    Link.id = _
  rw [List.filter_map, List.map_map, idsAt]
  rw [show Link.id ∘ shiftLink id side place = Link.id from funext (id_shiftLink id side place)]
  refine congrArg (List.map Link.id) (List.filter_congr fun link member => ?_)
  rw [Function.comp_apply, Bool.eq_iff_iff, endsAt_iff, endsAt_iff,
    endAt_shiftLink_iff (endAt_ne_of_idsAt_eq_nil empty member)]

theorem nodeIds_removeSlot (graph : Graph) (id : NodeId) (side : Direction) (place : Nat) :
    (graph.removeSlot id side place).nodeIds = graph.nodeIds := by
  refine nodeIds_modifyNode _ id _ fun node => ?_
  cases side <;> rfl

/-- A slot without links can be erased. -/
theorem Tied.removeSlot (tied : graph.Tied) {id : NodeId} {side : Direction} {place : Nat}
    (empty : graph.idsAt id side place = []) : (graph.removeSlot id side place).Tied := by
  have ids := nodeIds_removeSlot graph id side place
  refine ⟨ids ▸ tied.nodesAscend, ?_, ids ▸ tied.nodesCounted, ?_, ?_, ?_⟩
  · refine List.pairwise_map.2 (tied.linksAscend.imp fun {first second} less => ?_)
    rw [id_shiftLink, id_shiftLink]
    exact less
  · intro link member
    obtain ⟨before, inLinks, rfl⟩ := List.mem_map.1 member
    rw [id_shiftLink]
    exact tied.linksCounted before inLinks
  · intro link member
    obtain ⟨before, inLinks, rfl⟩ := List.mem_map.1 member
    refine tied.ends_of_carried inLinks fun direction port found => ⟨port, ?_, rfl⟩
    have was := (endAt_shiftLink_iff (endAt_ne_of_idsAt_eq_nil empty inLinks) _ direction _).1
      (rfl : (shiftLink id side place before).endAt direction = (_, _))
    rw [endPort?, was] at found
    rw [endPort?, port?_removeSlot]
    exact found
  · intro other direction spot port found
    rw [port?_removeSlot] at found
    rw [idsAt_removeSlot empty]
    exact tied.references other direction _ port found

end Graph

end Workflow
