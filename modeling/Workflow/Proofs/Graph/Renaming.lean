/-
This file compares graphs that differ in their ids.

Ids are only ever compared with each other, so graphs that are built by the same steps
stay alike if their counters differ at first: the ids of one are those of the other,
moved on or back by as much as the counters differ. Nothing else depends on ids but the
identifiers that are minted for notes; they also depend on the seed of the graph.
-/

import Mathlib.Data.List.Forall2
import Workflow.Proofs.Graph.Linking
import Workflow.Proofs.Node.Places

namespace Workflow

/-! ### Renamed ids -/

/-- Other ids for nodes and links. -/
structure Renaming where
  node : NodeId → NodeId
  link : LinkId → LinkId

def InputSlot.renamed (ids : Renaming) (slot : InputSlot) : InputSlot :=
  { slot with link := slot.link.map ids.link }

def OutputSlot.renamed (ids : Renaming) (slot : OutputSlot) : OutputSlot :=
  { slot with links := slot.links.map ids.link }

def Node.renamed (ids : Renaming) (node : Node) : Node :=
  { node with
    id := ids.node node.id
    inputs := node.inputs.map (InputSlot.renamed ids)
    outputs := node.outputs.map (OutputSlot.renamed ids) }

def Link.renamed (ids : Renaming) (link : Link) : Link :=
  { link with
    id := ids.link link.id
    origin := ids.node link.origin
    target := ids.node link.target }

def ConnectError.renamed (ids : Renaming) : ConnectError → ConnectError
  | nodeNotFound node => nodeNotFound (ids.node node)
  | slotOutOfRange node direction slot => slotOutOfRange (ids.node node) direction slot
  | incompatibleTypes producer consumer => incompatibleTypes producer consumer
  | slotOccupied node slot link => slotOccupied (ids.node node) slot (ids.link link)

/-- Notes that are the same, or that hold identifiers minted for one field of two nodes. -/
inductive NotesMatch (seed other : Seed) (id copy : NodeId) : String × Json → String × Json → Prop
  | same (note : String × Json) : NotesMatch seed other id copy note note
  | minted (name : String) (place : Nat) :
    NotesMatch seed other id copy (name, .string (seed.mint id place))
      (name, .string (other.mint copy place))

/-- Nodes of graphs with given seeds that differ in ids and minted identifiers only. -/
structure Node.Mirrors (ids : Renaming) (seed other : Seed) (node copy : Node) : Prop where
  rest : copy = { node.renamed ids with annotations := copy.annotations }
  notes : List.Forall₂ (NotesMatch seed other node.id copy.id) node.annotations.entries
    copy.annotations.entries

/-- Graphs that differ in ids and minted identifiers only. -/
structure Graph.Mirrors (ids : Renaming) (graph copy : Graph) : Prop where
  nodes : List.Forall₂ (Node.Mirrors ids graph.seed copy.seed) graph.nodes copy.nodes
  links : copy.links = graph.links.map (Link.renamed ids)
  kind : copy.kind = graph.kind
  metadata : copy.metadata = graph.metadata

/-! ### Nodes -/

namespace Node

variable {ids : Renaming} {seed other : Seed} {node copy : Node}

namespace Mirrors

variable (mirrors : node.Mirrors ids seed other copy)

include mirrors

theorem id_eq : copy.id = ids.node node.id := by
  rw [mirrors.rest]
  rfl

theorem slots_eq (direction : Direction) : copy.slots direction = node.slots direction := by
  rw [mirrors.rest]
  cases direction with
  | input => exact List.map_map
  | output => exact List.map_map

theorem multiSlots_eq (direction : Direction) :
    copy.multiSlots direction = node.multiSlots direction := by
  rw [mirrors.rest]
  cases direction <;> rfl

theorem inputs_eq : copy.inputs = node.inputs.map (InputSlot.renamed ids) := by
  rw [mirrors.rest]
  rfl

theorem outputs_eq : copy.outputs = node.outputs.map (OutputSlot.renamed ids) := by
  rw [mirrors.rest]
  rfl

theorem multiField?_eq (field : String) : copy.multiField? field = node.multiField? field := by
  rw [mirrors.rest]
  rfl

theorem placeOfKey?_eq (direction : Direction) (places : List Nat) (key : String) :
    copy.placeOfKey? direction places key = node.placeOfKey? direction places key := by
  simp only [placeOfKey?, keyAt?, mirrors.slots_eq]

/-- Changes that leave ids and notes alone, and come to the same but for renamed ids. -/
theorem change (revise twin : Node → Node) (id : (revise node).id = node.id)
    (annotations : (revise node).annotations = node.annotations)
    (agrees : ∀ notes, twin { node.renamed ids with annotations := notes } =
      { (revise node).renamed ids with annotations := notes }) :
    (revise node).Mirrors ids seed other (twin copy) := by
  obtain ⟨rest, notes⟩ := mirrors
  rw [rest, agrees]
  rw [rest] at notes
  refine ⟨rfl, ?_⟩
  rw [annotations, id]
  show List.Forall₂ (NotesMatch seed other node.id (ids.node (revise node).id)) _ _
  rw [id]
  exact notes

/-- A change that ids and notes play no part in. -/
theorem map (revise : Node → Node) (id : (revise node).id = node.id)
    (annotations : (revise node).annotations = node.annotations)
    (agrees : ∀ notes, revise { node.renamed ids with annotations := notes } =
      { (revise node).renamed ids with annotations := notes }) :
    (revise node).Mirrors ids seed other (revise copy) :=
  mirrors.change revise revise id annotations agrees

theorem reviseOutput (place : Nat) {revise twin : OutputSlot → OutputSlot}
    (agrees : ∀ slot : OutputSlot, (revise slot).renamed ids = twin (slot.renamed ids)) :
    (node.reviseOutput place revise).Mirrors ids seed other (copy.reviseOutput place twin) := by
  refine mirrors.change (fun node => node.reviseOutput place revise)
    (fun node => node.reviseOutput place twin) rfl rfl fun notes => ?_
  simp only [Node.reviseOutput, renamed]
  rw [map_modify (OutputSlot.renamed ids) revise twin agrees]

theorem reviseInput (place : Nat) {revise twin : InputSlot → InputSlot}
    (agrees : ∀ slot : InputSlot, (revise slot).renamed ids = twin (slot.renamed ids)) :
    (node.reviseInput place revise).Mirrors ids seed other (copy.reviseInput place twin) := by
  refine mirrors.change (fun node => node.reviseInput place revise)
    (fun node => node.reviseInput place twin) rfl rfl fun notes => ?_
  simp only [Node.reviseInput, renamed]
  rw [map_modify (InputSlot.renamed ids) revise twin agrees]

theorem rekey (direction : Direction) (place : Nat) (key : String) :
    (node.rekey direction place key).Mirrors ids seed other
      (copy.rekey direction place key) := by
  cases direction with
  | input => exact mirrors.reviseInput place fun _ => rfl
  | output => exact mirrors.reviseOutput place fun _ => rfl

theorem appendSlot (direction : Direction) (field : String) (info : SlotInfo) :
    (node.appendSlot direction field info).Mirrors ids seed other
      (copy.appendSlot direction field info) := by
  refine mirrors.map (fun node => node.appendSlot direction field info) ?_ ?_ fun notes => ?_
  · cases direction <;> rfl
  · cases direction <;> rfl
  · cases direction with
    | input => simp only [Node.appendSlot, renamed, List.map_append, List.length_map]; rfl
    | output => simp only [Node.appendSlot, renamed, List.map_append, List.length_map]; rfl

end Mirrors

end Node

/-! ### Graphs built by the same steps -/

/-- Renamed ids are in the order of the old ones. -/
structure Renaming.Ascends (ids : Renaming) (graph : Graph) : Prop where
  nodes : ∀ first ∈ graph.nodes, ∀ second ∈ graph.nodes, first.id.number < second.id.number →
    (ids.node first.id).number < (ids.node second.id).number
  links : ∀ first ∈ graph.links, ∀ second ∈ graph.links, first.id.number < second.id.number →
    (ids.link first.id).number < (ids.link second.id).number

/-- Ids moved on or back by as much as the counters of two graphs differ. -/
def Renaming.between (start other : Graph) : Renaming where
  node id := ⟨other.nextNode + (id.number - start.nextNode)⟩
  link id := ⟨other.nextLink + (id.number - start.nextLink)⟩

section Between

variable {start other : Graph}

theorem Renaming.node_between_inj {first second : NodeId}
    (isNew : start.nextNode ≤ first.number) (alsoNew : start.nextNode ≤ second.number) :
    (between start other).node first = (between start other).node second ↔ first = second := by
  obtain ⟨first⟩ := first
  obtain ⟨second⟩ := second
  simp only [between, NodeId.mk.injEq] at *
  omega

theorem Renaming.link_between_inj {first second : LinkId}
    (isNew : start.nextLink ≤ first.number) (alsoNew : start.nextLink ≤ second.number) :
    (between start other).link first = (between start other).link second ↔ first = second := by
  obtain ⟨first⟩ := first
  obtain ⟨second⟩ := second
  simp only [between, LinkId.mk.injEq] at *
  omega

namespace Graph

/-- Two graphs that the same steps made of two graphs without nodes and links. -/
structure Parallel (start other graph copy : Graph) : Prop where
  mirrors : graph.Mirrors (.between start other) copy
  newNodes : ∀ node ∈ graph.nodes, start.nextNode ≤ node.id.number
  newLinks : ∀ link ∈ graph.links, start.nextLink ≤ link.id.number
  nextNode : ∃ made, graph.nextNode = start.nextNode + made ∧
    copy.nextNode = other.nextNode + made
  nextLink : ∃ made, graph.nextLink = start.nextLink + made ∧
    copy.nextLink = other.nextLink + made
  kind : graph.kind = start.kind
  metadata : graph.metadata = start.metadata

/-- Slots found in the same place. -/
def SamePlace (start other : Graph) (found twin : Nat × Graph) : Prop :=
  twin.1 = found.1 ∧ Parallel start other found.2 twin.2

namespace Parallel

variable {graph copy : Graph}

/-- Two graphs without nodes and links are alike whatever their counters. -/
theorem empty (noNodes : start.nodes = []) (noLinks : start.links = [])
    (alsoNoNodes : other.nodes = []) (alsoNoLinks : other.links = [])
    (kind : other.kind = start.kind) (metadata : other.metadata = start.metadata) :
    Parallel start other start other := by
  refine ⟨⟨?_, ?_, kind, metadata⟩, fun node member => ?_, fun link member => ?_, ⟨0, rfl, rfl⟩,
    ⟨0, rfl, rfl⟩, rfl, rfl⟩
  · rw [noNodes, alsoNoNodes]
    exact .nil
  · rw [noLinks, alsoNoLinks]
    rfl
  · rw [noNodes] at member
    cases member
  · rw [noLinks] at member
    cases member

/-- New ids are renamed in their order. -/
theorem ascends (parallel : Parallel start other graph copy) :
    (Renaming.between start other).Ascends graph where
  nodes first isFirst second isSecond less := by
    have isNew := parallel.newNodes first isFirst
    have alsoNew := parallel.newNodes second isSecond
    simp only [Renaming.between]
    omega
  links first isFirst second isSecond less := by
    have isNew := parallel.newLinks first isFirst
    have alsoNew := parallel.newLinks second isSecond
    simp only [Renaming.between]
    omega

section Steps

variable (parallel : Parallel start other graph copy) {id : NodeId}
  (isNew : start.nextNode ≤ id.number)

include parallel

theorem record (event twin : Event) :
    Parallel start other (graph.record event) (copy.record twin) :=
  ⟨⟨parallel.mirrors.nodes, parallel.mirrors.links, parallel.mirrors.kind,
    parallel.mirrors.metadata⟩, parallel.newNodes, parallel.newLinks, parallel.nextNode,
    parallel.nextLink, parallel.kind, parallel.metadata⟩

theorem newNode_next : start.nextNode ≤ (⟨graph.nextNode⟩ : NodeId).number := by
  obtain ⟨made, counted, -⟩ := parallel.nextNode
  exact Nat.le.intro counted.symm

theorem newLink_next : start.nextLink ≤ (⟨graph.nextLink⟩ : LinkId).number := by
  obtain ⟨made, counted, -⟩ := parallel.nextLink
  exact Nat.le.intro counted.symm

/-- The next ids are the same ones. -/
theorem node_next : (Renaming.between start other).node ⟨graph.nextNode⟩ = ⟨copy.nextNode⟩ := by
  obtain ⟨made, counted, isCopy⟩ := parallel.nextNode
  rw [Renaming.between, NodeId.mk.injEq, counted, isCopy, Nat.add_sub_cancel_left]

theorem link_next : (Renaming.between start other).link ⟨graph.nextLink⟩ = ⟨copy.nextLink⟩ := by
  obtain ⟨made, counted, isCopy⟩ := parallel.nextLink
  rw [Renaming.between, LinkId.mk.injEq, counted, isCopy, Nat.add_sub_cancel_left]

include isNew

theorem node? : Option.Rel (Node.Mirrors (.between start other) graph.seed copy.seed)
    (graph.node? id) (copy.node? ((Renaming.between start other).node id)) := by
  have each := (List.forall₂_and_left _ _).2 ⟨parallel.newNodes, parallel.mirrors.nodes⟩
  rw [Graph.node?, Graph.node?]
  generalize graph.nodes = nodes, copy.nodes = twins at each
  induction each with
  | nil => exact .none
  | @cons node twin _ _ pair _ inductionHypothesis =>
    have same : twin.id = (Renaming.between start other).node id ↔ node.id = id := by
      rw [pair.2.id_eq]
      exact Renaming.node_between_inj pair.1 isNew
    by_cases isNode : node.id = id
    · rw [List.find?_cons_of_pos (by simpa using isNode),
        List.find?_cons_of_pos (by simpa [same] using isNode)]
      exact .some pair.2
    · rw [List.find?_cons_of_neg (by simpa using isNode),
        List.find?_cons_of_neg (by simpa [same] using isNode)]
      exact inductionHypothesis

theorem modifyNode {revise twin : Node → Node} (id_revise : ∀ node, (revise node).id = node.id)
    (agrees : ∀ node copied, node.Mirrors (.between start other) graph.seed copy.seed copied →
      (revise node).Mirrors (.between start other) graph.seed copy.seed (twin copied)) :
    Parallel start other (graph.modifyNode id revise)
      (copy.modifyNode ((Renaming.between start other).node id) twin) := by
  have each := (List.forall₂_and_left _ _).2 ⟨parallel.newNodes, parallel.mirrors.nodes⟩
  refine ⟨⟨?_, parallel.mirrors.links, parallel.mirrors.kind, parallel.mirrors.metadata⟩,
    fun node member => ?_, parallel.newLinks, parallel.nextNode, parallel.nextLink, parallel.kind,
    parallel.metadata⟩
  · refine List.forall₂_map_left_iff.2 (List.forall₂_map_right_iff.2 (each.imp ?_))
    rintro node copied ⟨newNode, mirrors⟩
    have same : copied.id = (Renaming.between start other).node id ↔ node.id = id := by
      rw [mirrors.id_eq]
      exact Renaming.node_between_inj newNode isNew
    rw [if_congr same rfl rfl]
    split
    · exact agrees node copied mirrors
    · exact mirrors
  · obtain ⟨old, isOld, rfl⟩ := List.mem_map.1 member
    have newNode := parallel.newNodes old isOld
    split
    · rw [id_revise]
      exact newNode
    · exact newNode

theorem reviseOutput (place : Nat) {revise twin : OutputSlot → OutputSlot}
    (agrees : ∀ slot : OutputSlot, (revise slot).renamed (.between start other) =
      twin (slot.renamed (.between start other))) :
    Parallel start other (graph.modifyNode id fun node => node.reviseOutput place revise)
      (copy.modifyNode ((Renaming.between start other).node id) fun node =>
        node.reviseOutput place twin) :=
  parallel.modifyNode isNew (fun _ => rfl) fun _ _ mirrors => mirrors.reviseOutput place agrees

theorem reviseInput (place : Nat) {revise twin : InputSlot → InputSlot}
    (agrees : ∀ slot : InputSlot, (revise slot).renamed (.between start other) =
      twin (slot.renamed (.between start other))) :
    Parallel start other (graph.modifyNode id fun node => node.reviseInput place revise)
      (copy.modifyNode ((Renaming.between start other).node id) fun node =>
        node.reviseInput place twin) :=
  parallel.modifyNode isNew (fun _ => rfl) fun _ _ mirrors => mirrors.reviseInput place agrees

/-- The key is added in the same place, or neither graph can have it. -/
theorem addKey (field key : String) : Option.Rel (SamePlace start other)
    (graph.addKey id field key).toOption
    (copy.addKey ((Renaming.between start other).node id) field key).toOption := by
  have found := parallel.node? isNew
  rw [Graph.addKey, Graph.addKey, multiField, multiField]
  dsimp only
  split
  · exact .none
  · generalize graph.node? id = held, copy.node? _ = twin at found
    cases found with
    | none => exact .none
    | @some node twin mirrors =>
      dsimp only
      rw [mirrors.multiField?_eq]
      rcases node.multiField? field with _ | ⟨direction, places⟩
      · exact .none
      · dsimp only
        rw [mirrors.placeOfKey?_eq, mirrors.slots_eq]
        generalize (places.head?.bind fun place => (node.slots direction)[place]?) = template
        rcases places with _ | ⟨place, others⟩
        · split <;> exact .none
        rcases template with _ | template
        · split <;> exact .none
        dsimp only
        split
        · exact .none
        split
        · refine .some ⟨rfl, (parallel.modifyNode isNew (fun _ => ?_)
            fun _ _ mirrors => mirrors.rekey direction place (trimKey key)).record _ _⟩
          cases direction <;> rfl
        · refine .some ⟨rfl, (parallel.modifyNode isNew (fun _ => ?_)
            fun _ _ mirrors => mirrors.appendSlot direction field _).record _ _⟩
          cases direction <;> rfl

end Steps

section Links

variable (parallel : Parallel start other graph copy)

include parallel

/-- The next link joins nodes of the same places. -/
theorem addLink {origin target : NodeId} (newOrigin : start.nextNode ≤ origin.number)
    (newTarget : start.nextNode ≤ target.number) (originSlot targetSlot : Nat) :
    Parallel start other (graph.addLink origin originSlot target targetSlot).2
      (copy.addLink ((Renaming.between start other).node origin) originSlot
        ((Renaming.between start other).node target) targetSlot).2 := by
  let link : Link :=
    { id := ⟨graph.nextLink⟩
      origin := origin
      originSlot := originSlot
      target := target
      targetSlot := targetSlot }
  have linked : Parallel start other
      { graph with links := graph.links ++ [link], nextLink := graph.nextLink + 1 }
      { copy with
        links := copy.links ++ [link.renamed (.between start other)]
        nextLink := copy.nextLink + 1 } := by
    refine ⟨⟨parallel.mirrors.nodes, ?_, parallel.mirrors.kind, parallel.mirrors.metadata⟩,
      parallel.newNodes, fun old member => ?_, parallel.nextNode, ?_, parallel.kind,
      parallel.metadata⟩
    · rw [parallel.mirrors.links, List.map_append, List.map_singleton]
    · rcases List.mem_append.1 member with early | isLast
      · exact parallel.newLinks old early
      · rw [List.mem_singleton.1 isLast]
        exact parallel.newLink_next
    · obtain ⟨made, counted, isCopy⟩ := parallel.nextLink
      exact ⟨made + 1, congrArg (· + 1) counted, congrArg (· + 1) isCopy⟩
  have isNext : (Renaming.between start other).link link.id = ⟨copy.nextLink⟩ :=
    parallel.link_next
  rw [Link.renamed, isNext] at linked
  have atOrigin := @reviseOutput _ _ _ _ linked _ newOrigin originSlot
    (fun slot => { slot with links := slot.links ++ [link.id] })
    (fun slot => { slot with links := slot.links ++ [⟨copy.nextLink⟩] }) fun slot => by
      simp only [OutputSlot.renamed, List.map_append, List.map_singleton, isNext]
  have atTarget := @reviseInput _ _ _ _ atOrigin _ newTarget targetSlot
    (fun slot => { slot with link := some link.id })
    (fun slot => { slot with link := some ⟨copy.nextLink⟩ }) fun slot => by
      simp only [InputSlot.renamed, Option.map_some, isNext]
  exact atTarget.record _ _

theorem modifyLink {id : LinkId} (isNew : start.nextLink ≤ id.number) {revise : Link → Link}
    (keeps : ∀ link, (revise link).id = link.id)
    (agrees : ∀ link, revise (link.renamed (.between start other)) =
      (revise link).renamed (.between start other)) :
    Parallel start other (graph.modifyLink id revise)
      (copy.modifyLink ((Renaming.between start other).link id) revise) := by
  refine ⟨⟨parallel.mirrors.nodes, ?_, parallel.mirrors.kind, parallel.mirrors.metadata⟩,
    parallel.newNodes, fun link member => ?_, parallel.nextNode, parallel.nextLink, parallel.kind,
    parallel.metadata⟩
  · show (copy.links.map _) = (graph.links.map _).map _
    rw [parallel.mirrors.links, List.map_map, List.map_map]
    refine List.map_congr_left fun link member => ?_
    have same : (link.renamed (.between start other)).id =
        (Renaming.between start other).link id ↔ link.id = id :=
      Renaming.link_between_inj (parallel.newLinks link member) isNew
    rw [Function.comp_apply, Function.comp_apply, if_congr same rfl rfl]
    split
    · exact agrees link
    · rfl
  · obtain ⟨old, isOld, rfl⟩ := List.mem_map.1 member
    have newLink := parallel.newLinks old isOld
    split
    · rw [keeps]
      exact newLink
    · exact newLink

/-- The next node is made in both graphs. -/
theorem addNode {make twin : NodeId → Node}
    (isNext : (make ⟨graph.nextNode⟩).id = ⟨graph.nextNode⟩)
    (agrees : (make ⟨graph.nextNode⟩).Mirrors (.between start other) graph.seed copy.seed
      (twin ⟨copy.nextNode⟩)) :
    Parallel start other (graph.addNode make).2 (copy.addNode twin).2 := by
  refine ⟨⟨List.rel_append parallel.mirrors.nodes (.cons agrees .nil), parallel.mirrors.links,
    parallel.mirrors.kind, parallel.mirrors.metadata⟩, fun node member => ?_, parallel.newLinks,
    ?_, parallel.nextLink, parallel.kind, parallel.metadata⟩
  · rcases List.mem_append.1 member with early | isLast
    · exact parallel.newNodes node early
    · rw [List.mem_singleton.1 isLast, isNext]
      exact parallel.newNode_next
  · obtain ⟨made, counted, isCopy⟩ := parallel.nextNode
    exact ⟨made + 1, congrArg (· + 1) counted, congrArg (· + 1) isCopy⟩

/-- Linking is refused for the same reason, or adds the next link. -/
theorem connect {origin target : NodeId} (newOrigin : start.nextNode ≤ origin.number)
    (newTarget : start.nextNode ≤ target.number) (originSlot targetSlot : Nat) :
    (∃ problem, graph.connect origin originSlot target targetSlot = .error problem ∧
      copy.connect ((Renaming.between start other).node origin) originSlot
        ((Renaming.between start other).node target) targetSlot =
          .error (problem.renamed (.between start other))) ∨
    (graph.connect origin originSlot target targetSlot =
        .ok (graph.addLink origin originSlot target targetSlot) ∧
      copy.connect ((Renaming.between start other).node origin) originSlot
        ((Renaming.between start other).node target) targetSlot =
          .ok (copy.addLink ((Renaming.between start other).node origin) originSlot
            ((Renaming.between start other).node target) targetSlot)) := by
  have origins := parallel.node? newOrigin
  have targets := parallel.node? newTarget
  rw [Graph.connect, Graph.connect]
  generalize graph.node? origin = held, copy.node? _ = twin at origins
  cases origins with
  | none => exact Or.inl ⟨_, rfl, rfl⟩
  | @some node twin mirrors =>
  generalize graph.node? target = held, copy.node? _ = twin at targets
  cases targets with
  | none => exact Or.inl ⟨_, rfl, rfl⟩
  | @some consumer copied mirrored =>
  dsimp only
  rw [mirrors.outputs_eq, mirrored.inputs_eq, List.getElem?_map, List.getElem?_map]
  rcases node.outputs[originSlot]? with _ | output
  · exact Or.inl ⟨_, rfl, rfl⟩
  rcases consumer.inputs[targetSlot]? with _ | input
  · exact Or.inl ⟨_, rfl, rfl⟩
  dsimp only [Option.map_some, OutputSlot.renamed, InputSlot.renamed]
  split
  · exact Or.inl ⟨_, rfl, rfl⟩
  · rcases input.link with _ | link
    · exact Or.inr ⟨rfl, rfl⟩
    · exact Or.inl ⟨_, rfl, rfl⟩

end Links

end Parallel

end Graph

end Between

end Workflow
