/-
This file proves that what a session exports is imported without loss, and exported
again as it was.

This needs that the document types of the nodes lead back to what the nodes were
created from, which a registry does not promise: it may have lost the model, and a
type may be an alias of another one. It also needs that no field with keys has a
name which documents keep for themselves.
-/

import Workflow.Proofs.Document.Copied
import Workflow.Proofs.Document.RoundTrip
import Workflow.Proofs.Session.History

namespace Workflow

open Text

variable {registry : Registry} {withLayout : Bool} {node : Node}

/-! ### Document types -/

theorem NativeKind.ofPrimitiveTag_primitiveTag (kind : NativeKind) : ∃ other,
    ofPrimitiveTag kind.primitiveTag = some other ∧ Blueprint.ofKind other = .ofKind kind := by
  cases kind with
  | boolean => exact ⟨.boolean, by decide, rfl⟩
  | integer => exact ⟨.integer, by decide, rfl⟩
  | real => exact ⟨.real, by decide, rfl⟩
  | string => exact ⟨.string, by decide, rfl⟩
  | choice => exact ⟨.string, by decide, rfl⟩
  | list => exact ⟨.list, by decide, rfl⟩
  | dictionary => exact ⟨.dictionary, by decide, rfl⟩

namespace Node

/-- A primitive node has its tag as document type. -/
theorem Fits.documentType_eq {kind : NativeKind} (fits : node.Fits (.ofKind kind)) :
    node.documentType = kind.primitiveTag := by
  have untagged : node.constants.get? typeTagField = none := by
    have absent : typeTagField ∉ [primitiveValueField] := by decide
    rw [OrderedMap.get?_eq_none_iff, fits.constants]
    exact absent
  have modelRef : node.modelRef = kind.primitiveTag := fits.modelRef
  have dotless : String.ofList (lastPart '.' kind.primitiveTag.toList) = kind.primitiveTag := by
    cases kind <;> decide
  rw [documentType, untagged, Option.bind_none, Option.getD_none, modelName, modelRef, dotless]

/-- A primitive node is made again from its entry. -/
theorem Fits.described_ofKind {kind : NativeKind} (fits : node.Fits (.ofKind kind)) :
    node.Described registry withLayout (.ofKind kind) where
  sound := Blueprint.sound_ofKind kind
  parted := Blueprint.parted_ofKind kind
  fits := fits
  tagged entry isEntry := absurd isEntry List.not_mem_nil
  keysFree direction name isName := by cases direction <;> exact absurd isName List.not_mem_nil
  again graph := by
    obtain ⟨other, isKind, same⟩ := kind.ofPrimitiveTag_primitiveTag
    have type : NativeKind.ofPrimitiveTag (node.entry withLayout).type = some other := by
      rw [← isKind, ← fits.documentType_eq]
      rfl
    refine ⟨fun id => primitive id other
      ((Object.get? (node.entry withLayout).fields primitiveValueField).getD .null), ?_, rfl, ?_⟩
    · rw [Graph.instantiate, type]
      rfl
    · rw [← same]
      exact remade_primitive _ other _

/-- A node of a model is made again from its entry, if the type of the entry leads to the model. -/
theorem Fits.described_ofModel {model : Model}
    (fits : node.Fits (.ofModel node.modelRef model))
    (sound : (Blueprint.ofModel node.modelRef model).Sound)
    (tagged : node.Tagged (.ofModel node.modelRef model))
    (keysFree : ∀ direction, ∀ field ∈ (node.multiSlots direction).keys, field ∉ reservedFields)
    (notPrimitive : NativeKind.ofPrimitiveTag node.documentType = none)
    (resolved : registry.resolve? node.documentType = some node.modelRef)
    (held : registry.model? node.modelRef = some model) :
    node.Described registry withLayout (.ofModel node.modelRef model) where
  sound := sound
  parted := Blueprint.parted_ofModel sound
  fits := fits
  tagged := tagged
  keysFree direction := by
    rw [← fits.keys_multiSlots]
    exact keysFree direction
  again graph := by
    exact ⟨fun id => ofModel graph.seed id node.modelRef model (node.entry withLayout).fields,
      Graph.instantiate_entry notPrimitive resolved held withLayout graph,
      (congrArg Node.id (bare_ofModel graph.seed _ node.modelRef model _) :),
      remade_ofModel sound _ _ _⟩

end Node

/-! ### Exports of sessions -/

namespace History

/-- The document type of a node leads back to what the node was created from: it is the node's own
tag, or no such tag and a type of the node's model, which the registry still holds. -/
def Leads (history : History) (node : Node) : Prop :=
  (∃ kind : NativeKind, node.modelRef = kind.primitiveTag ∧
    node.documentType = kind.primitiveTag) ∨
  (NativeKind.ofPrimitiveTag node.documentType = none ∧
    history.session.registry.resolve? node.documentType = some node.modelRef ∧
    ∃ model, history.models node.id = some model ∧
      history.session.registry.model? node.modelRef = some model)

variable {history : History}

/-- A node that is known is made again from its entry if its type leads back. -/
theorem Leads.described (leads : history.Leads node) (knows : history.Knows node)
    (keysFree : ∀ direction, ∀ field ∈ (node.multiSlots direction).keys, field ∉ reservedFields) :
    ∃ blueprint, node.Described history.session.registry withLayout blueprint := by
  obtain ⟨kind, fits⟩ | ⟨model, isModel, dotted, sound, fits, tagged⟩ := knows
  · exact ⟨_, fits.described_ofKind⟩
  · obtain ⟨kind, isTag, -⟩ | ⟨notPrimitive, resolved, other, isOther, held⟩ := leads
    · -- The tags of primitive nodes have no dots.
      have dotless : '.' ∉ kind.primitiveTag.toList := by cases kind <;> decide
      exact absurd (isTag ▸ dotted) dotless
    · rw [isModel] at isOther
      obtain rfl := Option.some.inj isOther
      exact ⟨_, fits.described_ofModel sound tagged keysFree notPrimitive resolved held⟩

/-- Whatever was done to a session: if the document types of the exported nodes lead back to what
the nodes were created from, and no field with keys has a reserved name, then the document is
imported into any graph without anything being skipped, and exported again as it was. -/
theorem roundTrip_run (resolution : Resolution) (operations : List Session.Operation)
    (withLayout : Bool) :
    let history := run resolution operations
    let nodes := history.session.graph.documentNodes
    let document := history.session.graph.toDocument withLayout
    (∀ node ∈ nodes, history.Leads node) →
    (∀ node ∈ nodes, ∀ direction, ∀ field ∈ (node.multiSlots direction).keys,
      field ∉ reservedFields) →
    ∀ (options : ImportOptions) (other : Graph), options.layout = withLayout →
      let imported := other.importDocument history.session.registry document options
      imported.1.isClean = true ∧ imported.2.toDocument withLayout = document := by
  intro history nodes document leads keysFree options other layout
  have kept : history.session.Kept := by
    rw [session_run]
    exact Session.kept_run resolution operations
  refine Graph.toDocument_importDocument kept.registry kept.tied (fun node member => ?_) layout
    other
  have knows := knows_run resolution operations node (Graph.mem_documentNodes.1 member).1
  exact (leads node member).described knows (keysFree node member)

/-- In a session that has registered a schema and imported a document, the models that nodes were
created from are those of the registry. -/
theorem models_import (resolution : Resolution) (name source : String) (document : Document)
    (options : ImportOptions) (id : NodeId) :
    let history := run resolution [.registerSchema name source, .importDocument document options]
    history.models id = (history.session.graph.node? id).bind fun node =>
      history.session.registry.model? node.modelRef := rfl

/-- A session with a primitive node and a node of a model with keys, which is linked to both. -/
def router : List Session.Operation :=
  [.registerSchema "flow"
    ("class Router(BaseModel):\n" ++
      "    type: Annotated[Literal[\"router\"], FieldRole.CONSTANT] = \"router\"\n" ++
      "    first: Annotated[str, FieldRole.INPUT] = \"\"\n" ++
      "    input: Annotated[Dict[str, str], FieldRole.MULTI_INPUT] = None\n" ++
      "    text: Annotated[str, FieldRole.OUTPUT] = None\n"),
    .importDocument
      { nodes :=
          [{ type := "$str", fields := [("value", .string "hi")] },
            { type := "router"
              fields := [("first", .string "x"),
                ("input", .array [.string "right", .string "left"])] }]
        edges :=
          [{ source := 0, target := 1, sourceSlot := "value", targetSlot := "input.left" },
            { source := 1, target := 1, sourceSlot := "text", targetSlot := "first" }] }
      {}]

/-- What is found out about the nodes by running the operations. -/
theorem checked_router : ∀ node ∈ (run {} router).session.graph.nodes,
    (node.modelRef = "$str" ∧ node.documentType = "$str" ∨
      NativeKind.ofPrimitiveTag node.documentType = none ∧
        (run {} router).session.registry.resolve? node.documentType = some node.modelRef ∧
        ((run {} router).session.registry.model? node.modelRef).isSome) ∧
    (∀ direction ∈ [Direction.input, .output], ∀ field ∈ (node.multiSlots direction).keys,
      field ∉ reservedFields) ∧
    node.previewOnly = false ∧
    ∀ model ∈ (run {} router).session.registry.model? node.modelRef, model.Unreserved := by
  decide +kernel

/-- The model of a node of the session is the one that the registry holds. -/
theorem models_router {node : Node} (isNode : node ∈ (run {} router).session.graph.nodes) :
    (run {} router).models node.id = (run {} router).session.registry.model? node.modelRef := by
  have kept : (run {} router).session.Kept := by
    rw [session_run]
    exact Session.kept_run {} router
  refine (models_import ..).trans ?_
  show ((run {} router).session.graph.node? node.id).bind _ = _
  rw [Graph.node?_of_mem kept.tied.nodesAscend isNode]
  rfl

theorem leads_router {node : Node} (isNode : node ∈ (run {} router).session.graph.nodes) :
    (run {} router).Leads node := by
  obtain ⟨isTag, isType⟩ | ⟨notPrimitive, resolved, isHeld⟩ := (checked_router node isNode).1
  · exact Or.inl ⟨.string, isTag, isType⟩
  · obtain ⟨model, held⟩ := Option.isSome_iff_exists.1 isHeld
    exact Or.inr ⟨notPrimitive, resolved, model, (models_router isNode).trans held, held⟩

/-- The session exports its document to an empty graph. -/
theorem roundTrip_router :
    let history := run {} router
    let nodes := history.session.graph.documentNodes
    let document := history.session.graph.toDocument true
    let imported := Graph.importDocument {} history.session.registry document {}
    (∀ node ∈ nodes, history.Leads node) ∧
    (∀ node ∈ nodes, ∀ direction, ∀ field ∈ (node.multiSlots direction).keys,
      field ∉ reservedFields) ∧
    imported.1.isClean = true ∧ imported.2.toDocument true = document := by
  intro history nodes document imported
  have leads : ∀ node ∈ nodes, history.Leads node := fun node member =>
    leads_router (Graph.documentNodes_subset member)
  have keysFree : ∀ node ∈ nodes, ∀ direction, ∀ field ∈ (node.multiSlots direction).keys,
      field ∉ reservedFields := by
    intro node member direction
    refine (checked_router node (Graph.documentNodes_subset member)).2.1 direction ?_
    cases direction <;> decide
  exact ⟨leads, keysFree, roundTrip_run {} router true leads keysFree {} {} rfl⟩

end History

end Workflow
