/-
This file says what becomes of the edited values of a session in its document.

A value is written with its node unless a link feeds the input, and that link is
written as an edge unless it comes from a node that documents leave out. Both are
decided apart from each other: the one looks at links of the graph, the other at the
nodes of the document. So an edited value is in the document in one way or the other,
but for inputs that are fed by a node which is left out; there it is lost.
-/

import Workflow.Proofs.Document.Listed
import Workflow.Proofs.Document.Shown
import Workflow.Proofs.Session.History

namespace Workflow

/-- A document has the value of an input of the node at a place: it is listed for the node, or an
edge leads to the input. -/
def Document.Keeps (document : Document) (place : Nat) (slot : InputSlot) (value : Json) : Prop :=
  (∃ entry, document.nodes[place]? = some entry ∧
    Object.get? entry.fields slot.info.field = some value) ∨
  ∃ edge ∈ document.edges, edge.target = place ∧ edge.targetSlot = slot.info.internalName

/-- What is edited is an input without keys, and what is listed for it is the value, if no link
feeds the input. -/
theorem Node.Fits.get?_edited {blueprint : Blueprint} {node : Node} (sound : blueprint.Sound)
    (parted : blueprint.Parted) (fits : node.Fits blueprint) {slot : InputSlot}
    (isInput : slot ∈ node.inputs) {value : Json} (edited : slot.edit? = some value)
    (free : slot.info.field ∉ reservedFields) (withLayout : Bool) :
    Object.get? (node.entry withLayout).fields slot.info.field =
      if slot.link.isNone then some value else none := by
  have plain : slot.info.isMulti = false := by
    cases isMulti : slot.info.isMulti with
    | false => rfl
    | true =>
      rw [InputSlot.edit?, (fits.natives slot isInput).keyed isMulti] at edited
      cases edited
  have isName : slot.info.field ∈ blueprint.names .inputs := by
    rw [← fits.map_field_inputs]
    exact List.mem_map_of_mem (List.mem_filter.2 ⟨isInput, by rw [plain]; rfl⟩)
  rw [fits.get?_of_names parted withLayout isName free, fits.get?_inputs sound parted isInput plain,
    edited]

namespace Graph

/-- An input is fed by a node that is left out of documents. -/
def FedUnseen (graph : Graph) (slot : InputSlot) : Prop :=
  ∃ link ∈ graph.links, slot.link = some link.id ∧
    ∃ origin ∈ graph.nodes, origin.id = link.origin ∧ origin.previewOnly = true

variable {graph : Graph} {place : Nat} {node : Node} {slot : InputSlot}

/-- An edge leads to an input exactly if a link feeds it from a node that is not left out. -/
theorem Tied.exists_edge_iff (tied : graph.Tied) {blueprint : Blueprint} (sound : blueprint.Sound)
    (fits : node.Fits blueprint) (isNode : graph.documentNodes[place]? = some node)
    (isInput : slot ∈ node.inputs) (withLayout : Bool) :
    (∃ edge ∈ (graph.toDocument withLayout).edges,
      edge.target = place ∧ edge.targetSlot = slot.info.internalName) ↔
      slot.link.isSome = true ∧ ¬ graph.FedUnseen slot := by
  obtain ⟨inNodes, seen⟩ := mem_documentNodes.1 (List.mem_of_getElem? isNode)
  obtain ⟨spot, atSlot⟩ := List.mem_iff_getElem?.1 isInput
  rw [tied.edges_eq]
  constructor
  · rintro ⟨entry, isEntry, rfl, name⟩
    obtain ⟨link, isLink, isEdge⟩ := List.mem_filterMap.1 isEntry
    obtain ⟨origin, target, output, input, joins, originId, -⟩ := Graph.edge_cases isEdge
    obtain ⟨_, consumer, _, entrance, leads, -, linked, atInput, -⟩ :=
      tied.edge_cases documentNodes_subset isLink isEdge
    obtain rfl := Option.some.inj (leads.isTarget.symm.trans isNode)
    have same := (fits.place_eq_of_internalName sound (Node.getElem?_slots_input atSlot)
      (Node.getElem?_slots_input atInput) (name.symm.trans leads.targetSlot.symm)).2
    rw [same, atInput] at atSlot
    obtain rfl := Option.some.inj atSlot
    refine ⟨by rw [linked]; rfl, ?_⟩
    rintro ⟨other, isOther, isLinked, hidden, isHidden, hiddenId, unseen⟩
    obtain rfl := tied.link_eq_of_id isLink isOther (Option.some.inj (linked.symm.trans isLinked))
    obtain ⟨isOrigin, seenOrigin⟩ := mem_documentNodes.1 (List.mem_of_getElem? joins.isOrigin)
    obtain rfl := tied.eq_of_node? (node?_of_mem tied.nodesAscend isOrigin) isHidden
      (hiddenId.trans originId.symm)
    rw [seenOrigin] at unseen
    cases unseen
  · rintro ⟨linked, notUnseen⟩
    obtain ⟨id, isLinked⟩ := Option.isSome_iff_exists.1 linked
    obtain ⟨link, isLink, rfl, atEnd⟩ := tied.exists_link inNodes
      (Node.getElem?_ports_input atSlot) (Option.mem_toList.2 isLinked)
    obtain ⟨sameNode, samePlace⟩ := Prod.mk.inj atEnd
    have shown : ∀ direction, ∀ other ∈ graph.nodes, other.id = (link.endAt direction).1 →
        other.previewOnly = false := by
      intro direction other isOther otherId
      cases direction with
      | input =>
        obtain rfl := tied.eq_of_node? (node?_of_mem tied.nodesAscend inNodes) isOther
          (otherId.trans sameNode)
        exact seen
      | output =>
        exact Bool.eq_false_iff.2 fun unseen =>
          notUnseen ⟨link, isLink, isLinked, other, isOther, otherId, unseen⟩
    obtain ⟨entry, isEdge⟩ := exists_edge_of_shown tied isLink shown
    obtain ⟨_, target, _, input, joins, -, targetId, -, atInput⟩ := Graph.edge_cases isEdge
    refine ⟨entry, List.mem_filterMap.2 ⟨link, isLink, isEdge⟩, ?_⟩
    obtain rfl := place_eq_of_id tied.nodup_documentNodes joins.isTarget isNode
      (targetId.trans sameNode)
    refine ⟨rfl, ?_⟩
    rw [samePlace, Option.some.inj (joins.isTarget.symm.trans isNode), atSlot] at atInput
    rw [← joins.targetSlot, Option.some.inj atInput]

/-- The document has an edited value unless the input is fed by a node that is left out. -/
theorem Tied.keeps_iff (tied : graph.Tied) {blueprint : Blueprint} (sound : blueprint.Sound)
    (parted : blueprint.Parted) (fits : node.Fits blueprint)
    (isNode : graph.documentNodes[place]? = some node) (isInput : slot ∈ node.inputs) {value : Json}
    (edited : slot.edit? = some value) (free : slot.info.field ∉ reservedFields)
    (withLayout : Bool) :
    (graph.toDocument withLayout).Keeps place slot value ↔ ¬ graph.FedUnseen slot := by
  have listed := fits.get?_edited sound parted isInput edited free withLayout
  rw [Document.Keeps, tied.exists_edge_iff sound fits isNode isInput,
    getElem?_nodes_toDocument withLayout isNode]
  simp only [Option.some.injEq, exists_eq_left', listed]
  cases linked : slot.link with
  | none =>
    refine iff_of_true (Or.inl rfl) ?_
    rintro ⟨link, -, isLinked, -⟩
    rw [linked] at isLinked
    cases isLinked
  | some link => simp

end Graph

namespace History

variable {history : History}

/-- What a node that is known was made from. -/
theorem Knows.exists_fits {node : Node} (knows : history.Knows node) :
    ∃ blueprint : Blueprint, blueprint.Sound ∧ blueprint.Parted ∧ node.Fits blueprint := by
  obtain ⟨kind, fits⟩ | ⟨model, -, -, sound, fits, -⟩ := knows
  · exact ⟨_, Blueprint.sound_ofKind kind, Blueprint.parted_ofKind kind, fits⟩
  · exact ⟨_, sound, Blueprint.parted_ofModel sound, fits⟩

end History

namespace Session

open Workflow.Graph

/-- Whatever was done to a session, an edited value of a node in the document, of a field whose name
is not reserved, is listed for the node or the document has an edge to the input, unless the input
is fed by a node that documents leave out. -/
theorem editedValues_run (resolution : Resolution) (operations : List Operation)
    (withLayout : Bool) :
    let graph := (run resolution operations).graph
    ∀ place node, graph.documentNodes[place]? = some node →
      ∀ slot ∈ node.inputs, ∀ value, slot.edit? = some value →
        slot.info.field ∉ reservedFields →
        ((graph.toDocument withLayout).Keeps place slot value ↔ ¬ graph.FedUnseen slot) := by
  intro graph place node isNode slot isInput value edited free
  have known := History.knows_run resolution operations
  rw [History.session_run] at known
  obtain ⟨blueprint, sound, parted, fits⟩ :=
    (known node (documentNodes_subset (List.mem_of_getElem? isNode))).exists_fits
  exact (kept_run resolution operations).tied.keeps_iff sound parted fits isNode isInput edited free
    withLayout

/-- A session with a sink whose two texts were edited before they were linked, the first of them to
a node that is left out of documents then. -/
def sink : List Operation :=
  [.registerSchema "flow"
    ("class Sink(BaseModel):\n" ++
      "    type: Annotated[Literal[\"sink\"], FieldRole.CONSTANT] = \"sink\"\n" ++
      "    text: Annotated[str, FieldRole.INPUT] = \"\"\n" ++
      "    note: Annotated[str, FieldRole.INPUT] = \"\"\n"),
    .createPrimitive .string (.string "hi"), .createNode "flow.Sink" [],
    .createPrimitive .string (.string "hello"), .setInput ⟨2⟩ 0 (.string "lost"),
    .setInput ⟨2⟩ 1 (.string "kept"), .connect ⟨1⟩ 0 ⟨2⟩ 0, .connect ⟨3⟩ 0 ⟨2⟩ 1,
    .setPreviewOnly ⟨1⟩ true]

/-- What is found out about the sink and its document by running the operations. -/
theorem checked_sink :
    let graph := (run {} sink).graph
    let seen := graph.nodes.filter fun node => !node.previewOnly
    seen.Pairwise (fun first second => first.comesBefore second) ∧
    (∃ node ∈ seen[0]?, (node.inputs.map fun slot =>
      (slot.info.field, slot.info.key, slot.edit?.isSome, slot.link)) =
        [("text", none, true, some ⟨1⟩), ("note", none, true, some ⟨2⟩)]) ∧
    (∀ link ∈ graph.links, ∀ node ∈ graph.nodes, link.id = ⟨2⟩ → node.id = link.origin →
      node.previewOnly = false) ∧
    (∀ node ∈ seen[0]?, (Object.get? (node.entry false).fields "text").isNone) ∧
    (graph.links.filterMap (edge seen)).map (fun edge => (edge.target, edge.targetSlot)) =
      [(0, "note")] := by
  decide +kernel

/-- The sink is the first node of its document, and each of its texts is an edited input. -/
theorem exists_input_sink {field : String} {link : LinkId}
    (isText : (field, none, true, some link) ∈
      ([("text", none, true, some ⟨1⟩), ("note", none, true, some ⟨2⟩)] :
        List (String × Option String × Bool × Option LinkId))) :
    ∃ node, (run {} sink).graph.documentNodes[0]? = some node ∧
      ∃ slot ∈ node.inputs, ∃ value, slot.edit? = some value ∧ slot.link = some link ∧
        slot.info.field = field ∧ slot.info.internalName = field := by
  obtain ⟨sorted, ⟨node, isNode, inputs⟩, -⟩ := checked_sink
  have listed : (run {} sink).graph.documentNodes = _ := List.mergeSort_of_pairwise sorted
  rw [← inputs] at isText
  obtain ⟨slot, isInput, same⟩ := List.mem_map.1 isText
  simp only [Prod.mk.injEq] at same
  obtain ⟨isField, noKey, edited, linked⟩ := same
  obtain ⟨value, isValue⟩ := Option.isSome_iff_exists.1 edited
  refine ⟨node, listed ▸ isNode, slot, isInput, value, isValue, linked, isField, ?_⟩
  rw [SlotInfo.internalName, noKey]
  exact isField

/-- The second text of the sink is in the document as an edge. -/
theorem editedValues_sink :
    let graph := (run {} sink).graph
    ∃ node, graph.documentNodes[0]? = some node ∧ ∃ slot ∈ node.inputs, ∃ value,
      slot.edit? = some value ∧ slot.info.field = "note" ∧ slot.info.field ∉ reservedFields ∧
        (graph.toDocument false).Keeps 0 slot value := by
  intro graph
  obtain ⟨node, isNode, slot, isInput, value, edited, linked, field, -⟩ :=
    @exists_input_sink "note" ⟨2⟩ (by decide)
  have free : slot.info.field ∉ reservedFields := by
    rw [field]
    decide
  refine ⟨node, isNode, slot, isInput, value, edited, field, free, ?_⟩
  refine (editedValues_run {} sink false 0 node isNode slot isInput value edited free).2 ?_
  rintro ⟨link, isLink, isLinked, origin, isOrigin, originId, unseen⟩
  have same : link.id = ⟨2⟩ := Option.some.inj (isLinked.symm.trans linked)
  rw [checked_sink.2.2.1 link isLink origin isOrigin same originId] at unseen
  cases unseen

/-- The first text of the sink is not in the document, though it was edited. -/
theorem editedValues_lost :
    let graph := (run {} sink).graph
    ∃ node, graph.documentNodes[0]? = some node ∧ ∃ slot ∈ node.inputs, ∃ value,
      slot.edit? = some value ∧ slot.info.field ∉ reservedFields ∧
        ¬ (graph.toDocument false).Keeps 0 slot value := by
  intro graph
  obtain ⟨node, isNode, slot, isInput, value, edited, -, field, name⟩ :=
    @exists_input_sink "text" ⟨1⟩ (by decide)
  refine ⟨node, isNode, slot, isInput, value, edited, by rw [field]; decide, ?_⟩
  obtain ⟨sorted, -, -, unlisted, edges⟩ := checked_sink
  have listed : graph.documentNodes = _ := List.mergeSort_of_pairwise sorted
  rintro (⟨entry, isEntry, isValue⟩ | ⟨edge, isEdge, isTarget, isSlot⟩)
  · rw [getElem?_nodes_toDocument false isNode] at isEntry
    rw [← Option.some.inj isEntry, field] at isValue
    have absent := unlisted node (listed ▸ isNode)
    rw [isValue] at absent
    cases absent
  · rw [(kept_run {} sink).tied.edges_eq, listed] at isEdge
    have isPair := List.mem_map_of_mem (f := fun edge : EdgeEntry => (edge.target, edge.targetSlot))
      isEdge
    rw [edges, isTarget, isSlot, name] at isPair
    exact absurd isPair (by decide)

end Session

end Workflow
