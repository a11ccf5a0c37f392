/-
This file proves that graphs hold nothing but values there can be.

Whatever an operation does to the nodes of a graph, it does it node by node, and a link
only ever takes values from an edge of a document that was read. So it is enough to look
at one node and one link at a time, provided that the values that come from outside can
be and so do those that models start with.
-/

import Workflow.Proofs.Document.Written
import Workflow.Proofs.Graph.Refresh
import Workflow.Proofs.Graph.Success
import Workflow.Proofs.Node.Valid
import Workflow.Proofs.Registry

namespace Workflow

open Number

/-- A link that carries nothing or values that may be carried along. -/
structure Link.Valid (link : Link) : Prop where
  data : ∀ value ∈ link.data, value.Portable
  extra : ∀ value ∈ link.extra, value.Portable

/-- An edge carries along what its link does. -/
theorem Link.Valid.edge {link : Link} (valid : link.Valid) {nodes : List Node} {entry : EdgeEntry}
    (isEdge : Graph.edge nodes link = some entry) : entry.Valid := by
  simp only [Graph.edge, Option.bind_eq_bind, Option.bind_eq_some_iff, Option.some.injEq] at isEdge
  obtain ⟨_, -, _, -, _, -, _, -, _, -, _, -, rfl⟩ := isEdge
  exact ⟨valid.data, valid.extra⟩

namespace Graph

/-- A graph that holds values there can be. -/
structure Valid (graph : Graph) : Prop where
  nodes : ∀ node ∈ graph.nodes, node.Valid
  links : ∀ link ∈ graph.links, link.Valid
  metadata : graph.metadata.Beside documentMembers

theorem valid_empty : ({} : Graph).Valid where
  nodes := List.forall_mem_nil _
  links := List.forall_mem_nil _
  metadata := Object.beside_empty

namespace Valid

variable {graph after : Graph} {id : NodeId}

/-! ### Elementary changes -/

theorem mapNodes (isValid : graph.Valid) {change : Node → Node}
    (keeps : ∀ node, node.Valid → (change node).Valid) : (graph.mapNodes change).Valid :=
  { isValid with
    nodes := List.forall_mem_map.2 fun node member => keeps node (isValid.nodes node member) }

theorem modifyNode (isValid : graph.Valid) (id : NodeId) {change : Node → Node}
    (keeps : ∀ node, node.Valid → (change node).Valid) : (graph.modifyNode id change).Valid := by
  refine isValid.mapNodes fun node valid => ?_
  split
  · exact keeps node valid
  · exact valid

theorem record (isValid : graph.Valid) (event : Event) : (graph.record event).Valid :=
  { isValid with }

theorem addNode (isValid : graph.Valid) {make : NodeId → Node} (valid : ∀ id, (make id).Valid) :
    (graph.addNode make).2.Valid :=
  { isValid with
    nodes := List.forall_mem_append.2
      ⟨isValid.nodes, List.forall_mem_singleton.2 (valid _)⟩ }

theorem addLink (isValid : graph.Valid) (origin : NodeId) (originSlot : Nat) (target : NodeId)
    (targetSlot : Nat) : (graph.addLink origin originSlot target targetSlot).2.Valid := by
  have linked : Valid { graph with
      links := graph.links ++ [graph.nextLinkBetween origin originSlot target targetSlot]
      nextLink := graph.nextLink + 1 } := by
    refine { isValid with links := List.forall_mem_append.2 ⟨isValid.links, ?_⟩ }
    exact List.forall_mem_singleton.2
      ⟨fun _ isData => (by cases isData), fun _ isExtra => (by cases isExtra)⟩
  refine record (modifyNode (modifyNode linked origin ?_) target ?_) _
  · exact fun node valid => { valid with }
  · refine fun node valid => valid.modifyInput _ ?_ targetSlot
    exact fun _ => rfl

theorem dropLink (isValid : graph.Valid) (link : Link) : (graph.dropLink link).Valid := by
  have detached :
      Valid { graph with links := graph.links.filter fun other => other.id ≠ link.id } :=
    { isValid with
      links := fun other member => isValid.links other (List.mem_of_mem_filter member) }
  refine record (modifyNode (modifyNode detached link.origin ?_) link.target ?_) _
  · exact fun node valid => { valid with }
  · refine fun node valid => valid.modifyInput _ ?_ link.targetSlot
    exact fun _ => rfl

theorem dropLinks (isValid : graph.Valid) (links : List Link) :
    (links.foldl Graph.dropLink graph).Valid :=
  List.foldlRecOn links Graph.dropLink isValid fun _ valid link _ => valid.dropLink link

theorem removeSlot (isValid : graph.Valid) (id : NodeId) (direction : Direction) (place : Nat) :
    (graph.removeSlot id direction place).Valid := by
  have shifted : Valid { graph with links := graph.links.map (shiftLink id direction place) } := by
    refine { isValid with links := List.forall_mem_map.2 fun link member => ?_ }
    have valid := isValid.links link member
    cases direction <;> rw [shiftLink] <;> split <;> first | exact valid | exact { valid with }
  exact shifted.modifyNode id fun node valid => valid.eraseSlot direction place

/-- Readiness and events do not matter. -/
theorem of_unmarked (isValid : graph.Valid) (same : after.unmarked = graph.unmarked) :
    after.Valid := by
  have unmarked : (graph.mapNodes Node.unmarked).Valid :=
    isValid.mapNodes fun node valid => { valid with }
  have isUnmarked : after.unmarked.Valid := by
    rw [same]
    exact { unmarked with }
  have bare (node : Node) (member : node ∈ after.nodes) : node.unmarked.Valid :=
    isUnmarked.nodes _ (List.mem_map_of_mem member)
  exact ⟨fun node member => { bare node member with }, isUnmarked.links, isUnmarked.metadata⟩

/-! ### Operations -/

theorem createNode (isValid : graph.Valid) {model : Model} (declared : model.IsDeclared)
    {fragment : Object} (valid : (Json.object fragment).Valid) (modelRef : String) :
    (graph.createNode modelRef model fragment).2.Valid :=
  isValid.addNode fun id => Node.valid_ofModel valid declared.validStarts id modelRef

theorem createPrimitive (isValid : graph.Valid) (kind : NativeKind) {value : Json}
    (valid : value.Valid) : (graph.createPrimitive kind value).2.Valid :=
  isValid.addNode fun id => Node.valid_primitive id kind valid

theorem removeNode (isValid : graph.Valid) {node : Node}
    (success : graph.removeNode id = some (node, after)) : after.Valid := by
  obtain ⟨-, rfl⟩ := removeNode_cases success
  have isolated := isValid.dropLinks (graph.links.filter fun link =>
    link.origin = id ∨ link.target = id)
  exact { isolated with
    nodes := fun other member => isolated.nodes other (List.mem_of_mem_filter member) }

theorem connect (isValid : graph.Valid) {origin target : NodeId} {originSlot targetSlot : Nat}
    {link : LinkId}
    (success : graph.connect origin originSlot target targetSlot = .ok (link, after)) :
    after.Valid := by
  obtain ⟨isAdded, -⟩ := connect_cases success
  obtain rfl : after = _ := congrArg Prod.snd isAdded
  exact isValid.addLink ..

theorem disconnect (isValid : graph.Valid) {gone : LinkId} {link : Link}
    (success : graph.disconnect gone = some (link, after)) : after.Valid := by
  obtain ⟨-, rfl⟩ := disconnect_cases success
  exact isValid.dropLink link

theorem setInput (isValid : graph.Valid) {slot : Nat} {value : Json} (valid : value.Valid)
    (success : graph.setInput id slot value = some after) : after.Valid := by
  obtain ⟨-, rfl⟩ := setInput_cases success
  exact record (isValid.modifyNode id fun node isNode => isNode.editInput valid slot) _

theorem setPrimitive (isValid : graph.Valid) {value : Json} (valid : value.Valid)
    (success : graph.setPrimitive id value = some after) : after.Valid := by
  obtain ⟨-, rfl⟩ := setConstant_cases (setPrimitive_cases success).2
  exact record (isValid.modifyNode id fun node isNode => isNode.setConstant valid _) _

theorem setPosition (isValid : graph.Valid) {position : Point} (inFormat : position.InFormat)
    (success : graph.setPosition id position = some after) : after.Valid := by
  obtain ⟨-, rfl⟩ := setPosition_cases success
  refine record (isValid.modifyNode id fun node isNode => ?_) _
  exact { isNode with position := inFormat }

theorem setPreviewOnly (isValid : graph.Valid) {previewOnly : Bool}
    (success : graph.setPreviewOnly id previewOnly = some after) : after.Valid := by
  obtain ⟨-, rfl⟩ := setPreviewOnly_cases success
  refine isValid.modifyNode id fun node isNode => ?_
  exact { isNode with }

theorem addKey (isValid : graph.Valid) {field key : String} {place : Nat}
    (success : graph.addKey id field key = .ok (place, after)) : after.Valid := by
  obtain ⟨-, node, direction, first, others, template, -, -, -, -,
    ⟨-, -, -, rfl⟩ | ⟨-, -, rfl⟩⟩ := addKey_cases success
  · exact record (isValid.modifyNode id fun node valid => valid.rekey ..) _
  · exact record (isValid.modifyNode id fun node valid => valid.appendSlot ..) _

theorem removeKey (isValid : graph.Valid) {field key : String}
    (success : graph.removeKey id field key = .ok after) : after.Valid := by
  obtain ⟨node, direction, places, place, -, -, -, -, rfl⟩ := removeKey_cases success
  have removed := (isValid.dropLinks (graph.links.filter (endsAt id direction place))).removeSlot
    id direction place
  exact record (removed.modifyNode id fun node valid => valid.dropKeyedValue field key) _

theorem renameKey (isValid : graph.Valid) {field key newKey : String}
    (success : graph.renameKey id field key newKey = .ok after) : after.Valid := by
  obtain ⟨-, node, direction, places, place, -, -, -, ⟨-, rfl⟩ | ⟨-, -, rfl⟩⟩ :=
    renameKey_cases success
  · exact isValid
  · exact record (isValid.modifyNode id fun node valid =>
      (valid.moveKeyedValue field key _).rekey ..) _

/-! ### Documents read -/

theorem resolveSlot (isValid : graph.Valid) {direction : Direction} {name : String} {place : Nat}
    (success : graph.resolveSlot id direction name = some (place, after)) : after.Valid := by
  obtain rfl | ⟨-, field, key, -, -, added⟩ := resolveSlot_cases success
  · exact isValid
  · exact isValid.addKey added

theorem linkEdge (isValid : graph.Valid) (created : List (Option NodeId)) (edge : EdgeEntry) :
    (graph.linkEdge created edge).1.Valid :=
  linkEdge_induction (fun isValid isFound => isValid.resolveSlot isFound)
    (fun isValid isLinked => isValid.connect isLinked) isValid created edge

/-- A link takes over what an edge that was read carries along. -/
theorem addEdge {importing : Importing} (isValid : importing.graph.Valid) {entry : EdgeEntry × Nat}
    (accepted : entry.1.Accepted) : (importing.addEdge entry).graph.Valid := by
  have linked := isValid.linkEdge importing.created entry.1
  rw [Importing.addEdge]
  split
  · next isLinked =>
    rw [isLinked] at linked
    exact linked
  · next isLinked =>
    rw [isLinked] at linked
    refine { linked with links := List.forall_mem_map.2 fun link member => ?_ }
    split
    · exact ⟨fun value isData => (accepted.data value isData).portable,
        fun value isExtra => (accepted.extra value isExtra).portable⟩
    · exact linked.links link member

theorem instantiate (isValid : graph.Valid) {registry : Registry} (isRead : registry.IsRead)
    {entry : NodeEntry} (accepted : entry.Accepted)
    (success : graph.instantiate registry entry = some (id, after)) : after.Valid := by
  have fields := accepted.fields.beside.valid
  rw [Graph.instantiate] at success
  split at success
  · cases success
    exact isValid.createPrimitive _ (Object.valid_getD fields _)
  · split at success
    · cases success
    · next modelRef _ =>
      obtain ⟨model, isModel, same⟩ := Option.map_eq_some_iff.1 success
      obtain rfl : _ = after := congrArg Prod.snd same
      exact isValid.createNode (isRead.isDeclared isModel) fields modelRef

theorem addEntry {importing : Importing} (isValid : importing.graph.Valid) {registry : Registry}
    (isRead : registry.IsRead) {entry : NodeEntry} (accepted : entry.Accepted)
    (options : ImportOptions) (columns : Nat) :
    (importing.addNode registry options columns entry).graph.Valid := by
  rw [Importing.addNode]
  split
  · exact isValid
  · next isCreated =>
    refine (isValid.instantiate isRead accepted isCreated).modifyNode _ fun node valid =>
      valid.applyEntry accepted ?_ options _
    exact List.forall_mem_cons.2 ⟨Single.inFormat_mul _ _,
      List.forall_mem_singleton.2 (Single.inFormat_mul _ _)⟩

/-- Whatever a graph held, it holds what there can be once a document that was read replaces it. -/
theorem importDocument {registry : Registry} (isRead : registry.IsRead) (graph : Graph)
    {document : Document} (accepted : document.Accepted) (options : ImportOptions) :
    (graph.importDocument registry document options).2.Valid := by
  have emptied : Valid { graph.clear with kind := some document.kind
                                          metadata := document.metadata } :=
    ⟨List.forall_mem_nil _, List.forall_mem_nil _, accepted.metadata.beside⟩
  refine List.foldlRecOn (motive := fun importing : Importing => importing.graph.Valid) _
    Importing.addEdge ?_ fun importing isValid entry member => ?_
  · refine List.foldlRecOn (motive := fun importing : Importing => importing.graph.Valid) _ _
      emptied fun importing isValid entry member => ?_
    exact isValid.addEntry isRead (accepted.nodes entry member) options _
  · exact isValid.addEdge (accepted.edges entry.1 (List.fst_mem_of_mem_zipIdx member))

/-! ### Documents written -/

/-- What is written of a graph can be. -/
theorem toDocument (isValid : graph.Valid) (withLayout : Bool) :
    (graph.toDocument withLayout).Valid where
  nodes := by
    refine List.forall_mem_map.2 fun node member => Node.Valid.entry (isValid.nodes node ?_) _
    exact (mem_documentNodes.1 member).1
  edges edge member := by
    obtain ⟨link, isLink, isEdge⟩ := List.mem_filterMap.1 member
    exact (isValid.links link (List.mem_mergeSort.1 isLink)).edge isEdge
  metadata := isValid.metadata

end Valid

end Graph

end Workflow
