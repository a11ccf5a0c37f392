/-
This file proves when the type that a document names for a new node leads back to the
model of the node.

The document names the type tag of the model, or else its bare name; where the tag is an
expression that is not understood, it names the text of the expression. Aliases come
before tags and tags before names, and of models that share a tag or a name the first
one registered is found; so a model is found again if no alias leads elsewhere and no
such model was registered before it. Reading the document then makes the node from the
same model, unless its type is one of those reserved for primitive nodes.
-/

import Workflow.Proofs.Document.Skipped
import Workflow.Proofs.Registry.Lookup

namespace Workflow

open Text

/-! ### Types of new nodes -/

/-- The type tag is an expression that was kept word for word because it is not understood. -/
structure Model.TagIsVerbatim (model : Model) (text : String) : Prop where
  isConstant : model.role? typeTagField = some .constant
  isText : model.default? typeTagField = some (.verbatim text)

/-- A default that is not kept word for word starts with a value of the same text. -/
theorem Default.text?_start (start : Option Default) :
    (∃ text, start = some (.verbatim text)) ∨
      ((start.map Default.start).getD .null).text? = start.bind Default.text? := by
  cases start with
  | none => exact Or.inr rfl
  | some start =>
    cases start with
    | literal value => exact Or.inr rfl
    | message kind value => exact Or.inr rfl
    | factory name => exact Or.inr rfl
    | verbatim text => exact Or.inl ⟨text, rfl⟩

namespace Node

variable {model : Model} {seed : Seed} {id : NodeId} {modelRef : String}

/-- A new node is called by its tag, or else by the bare name of its model; if the tag is an
expression that is not understood, it is called by the text of the expression. -/
theorem documentType_ofModel (declared : model.IsDeclared) :
    model.TagIsVerbatim (ofModel seed id modelRef model []).documentType ∨
      (ofModel seed id modelRef model []).documentType =
        model.typeTag.getD (String.ofList (lastPart '.' modelRef.toList)) := by
  have made := made_ofModel (declared.sound modelRef) seed id []
  have isRef : (ofModel seed id modelRef model []).modelRef = modelRef :=
    (congrArg Node.modelRef (bare_ofModel seed id modelRef model []) :)
  rw [documentType, modelName, isRef, Model.typeTag]
  split
  · next isConstant =>
    obtain ⟨source, isModel⟩ := declared
    obtain ⟨field, isField, isTag⟩ := Model.exists_field_of_parse isModel isConstant
    have member : (field, Role.constant) ∈ fieldsOf .constant model.fieldsWithRoles := by
      refine mem_fieldsOf.2 ⟨List.mem_map.2 ⟨field, isField, ?_⟩, rfl⟩
      rw [isTag, isConstant]
      rfl
    have held := made.constants _ member
    rw [isTag, constantGiven, if_pos rfl, Option.none_or] at held
    rw [held, Option.bind_some]
    obtain ⟨text, isText⟩ | same := Default.text?_start (model.default? typeTagField)
    · rw [isText]
      exact Or.inl ⟨isConstant, isText⟩
    · rw [same]
      exact Or.inr rfl
  · next notConstant =>
    have absent : (ofModel seed id modelRef model []).constants.get? typeTagField = none := by
      rw [OrderedMap.get?_eq_none_iff, made.constantNames]
      intro listed
      obtain ⟨entry, isEntry, isTag⟩ := List.mem_map.1 listed
      obtain ⟨inFields, isConstant⟩ := mem_fieldsOf.1 isEntry
      obtain ⟨field, -, rfl⟩ := List.mem_map.1 inFields
      have role : (model.role? field.name).getD .input = .constant := isConstant
      have name : field.name = typeTagField := isTag
      rw [name] at role
      cases isRole : model.role? typeTagField with
      | none =>
        rw [isRole] at role
        cases role
      | some other =>
        rw [isRole, Option.getD_some] at role
        exact notConstant (by rw [isRole, role])
    rw [absent]
    exact Or.inr rfl

end Node

namespace Registry

variable {registry : Registry} {name : String} {model : Model}

theorem Orderly.isDeclared (orderly : registry.Orderly)
    (listed : (name, model) ∈ registry.models) : model.IsDeclared := by
  obtain ⟨-, source, -, -, isModel, -⟩ := orderly.mem_models listed
  exact ⟨source, isModel⟩

/-- The bare name of the model that is listed under a qualified name. -/
theorem Orderly.lastPart_eq (orderly : registry.Orderly)
    (listed : (name, model) ∈ registry.models) :
    String.ofList (lastPart '.' name.toList) = model.name := by
  obtain ⟨schema, source, -, -, -, dotless, isName⟩ := orderly.mem_models listed
  rw [isName, toList_qualify, lastPart, cutLast_append dotless]
  exact String.ofList_toList

/-- If a new node is called by the tag or the name of its model and no model has this tag, it is
called by the name. -/
theorem Orderly.isFirstKnown_of_untagged (orderly : registry.Orderly)
    (listed : (name, model) ∈ registry.models) {type : String}
    (isType : type = model.typeTag.getD model.name)
    (untagged : ∀ entry ∈ registry.models, entry.2.typeTag ≠ some type) :
    registry.IsFirstKnown (registry.candidates type) name ↔
      registry.IsFirst (fun other => other.name = type) name := by
  have isName : type = model.name := by
    cases isTag : model.typeTag with
    | none => rw [isType, isTag, Option.getD_none]
    | some tag =>
      rw [isTag, Option.getD_some] at isType
      exact absurd (isType ▸ isTag) (untagged _ listed)
  rw [isName]
  exact orderly.isFirstKnown_candidates listed

end Registry

/-! ### Nodes made again -/

namespace Graph

variable {registry : Registry} {name : String} {model : Model} {node : Node}

/-- A reserved type makes a primitive node, whatever else it leads to. -/
theorem instantiate_reserved {entry : NodeEntry} {kind : NativeKind}
    (reserved : NativeKind.ofPrimitiveTag entry.type = some kind) (registry : Registry)
    (graph : Graph) :
    ∃ value, graph.instantiate registry entry = some (graph.createPrimitive kind value) := by
  refine ⟨(Object.get? entry.fields primitiveValueField).getD .null, ?_⟩
  rw [instantiate, reserved]

/-- The document of a single node. -/
theorem toDocument_singleton (shown : node.previewOnly = false) (withLayout : Bool) :
    ({ nodes := [node] } : Graph).toDocument withLayout =
      { nodes := [node.entry withLayout] } := by
  have nodes : ({ nodes := [node] } : Graph).documentNodes = [node] := by
    rw [documentNodes, List.filter_cons_of_pos (by rw [shown]; rfl), List.filter_nil,
      List.mergeSort_singleton]
  rw [toDocument, nodes]
  simp [defaultDocumentType]

/-- A document with one entry that makes a node of a model is read as that node. -/
theorem importDocument_singleton {entry : NodeEntry}
    (makes : ∀ graph : Graph,
      graph.instantiate registry entry = some (graph.createNode name model entry.fields))
    (graph : Graph) (options : ImportOptions) :
    (graph.importDocument registry { nodes := [entry] } options).1.isClean = true ∧
    ∃ grid, (graph.importDocument registry { nodes := [entry] } options).2.nodes =
      [(Node.ofModel graph.seed ⟨graph.nextNode⟩ name model entry.fields).applyEntry options grid 0
        entry] := by
  let start := graph.emptied { nodes := [entry] }
  let grid := options.gridPoint (options.columnsFor 1) 0
  let made := Importing.addNode registry options (options.columnsFor 1) { graph := start } entry
  have added : made =
      { graph := (start.createNode name model entry.fields).2.modifyNode ⟨graph.nextNode⟩
          fun made => made.applyEntry options grid 0 entry
        created := [some ⟨graph.nextNode⟩]
        report := { nodes := 1 } } := by
    dsimp only [made]
    rw [Importing.addNode, makes]
    rfl
  have imported : graph.importDocument registry { nodes := [entry] } options =
      ({ nodes := 1 }, (start.createNode name model entry.fields).2.modifyNode ⟨graph.nextNode⟩
        fun made => made.applyEntry options grid 0 entry) := by
    show (made.report, made.graph) = _
    rw [added]
  rw [imported]
  have none : ∀ node ∈ start.nodes, node.id ≠ ⟨start.nextNode⟩ :=
    fun _ member => absurd member List.not_mem_nil
  have bare := Node.bare_ofModel start.seed ⟨start.nextNode⟩ name model entry.fields
  exact ⟨rfl, grid, nodes_modifyNode_addNode (congrArg Node.id bare :) none _⟩

end Graph

/-! ### Nodes of registered models -/

namespace Registry

/-- After any changes of an empty registry, the type of a new node leads back to the model of the
node if and only if an alias does, or no alias leads anywhere and the model is the first one with
the tag or, where no model has it, the first one that is known by a name made of the type. Unless
the type is the text of an expression that was kept word for word, it is the tag or the name of the
model, and where no model has it as its tag, the model has to be the first one of this name. If the
type leads back and is not reserved for primitive nodes, the document of the node makes it again
from its model. -/
theorem documentType_run (resolution : Resolution) (changes : List Change) {name : String}
    {model : Model} (listed : (name, model) ∈ (run resolution changes).models)
    (seed : Seed) (id : NodeId) :
    let registry := run resolution changes
    let node := Node.ofModel seed id name model []
    let type := node.documentType
    (registry.resolve? type = some name ↔
      registry.aliased? type = some name ∨ registry.aliased? type = none ∧
        (registry.IsFirst (fun other => other.typeTag = some type) name ∨
          (∀ entry ∈ registry.models, entry.2.typeTag ≠ some type) ∧
            registry.IsFirstKnown (registry.candidates type) name)) ∧
    (model.TagIsVerbatim type ∨ type = model.typeTag.getD model.name ∧
      ((∀ entry ∈ registry.models, entry.2.typeTag ≠ some type) →
        (registry.IsFirstKnown (registry.candidates type) name ↔
          registry.IsFirst (fun other => other.name = type) name))) ∧
    (registry.resolve? type = some name → NativeKind.ofPrimitiveTag type = none →
      ∀ (withLayout : Bool) (other : Graph) (options : ImportOptions),
        other.instantiate registry (node.entry withLayout) =
          some (other.createNode name model (node.entry withLayout).fields) ∧
        let imported := other.importDocument registry
          (({ nodes := [node] } : Graph).toDocument withLayout) options
        imported.1.isClean = true ∧ ∃ grid, imported.2.nodes =
          [(Node.ofModel other.seed ⟨other.nextNode⟩ name model
            (node.entry withLayout).fields).applyEntry options grid 0
              (node.entry withLayout)]) := by
  intro registry node type
  have orderly := orderly_run resolution changes
  refine ⟨resolve?_eq_some_iff, ?_, ?_⟩
  · refine (Node.documentType_ofModel (orderly.isDeclared listed)).imp_right fun isType => ?_
    rw [orderly.lastPart_eq listed] at isType
    exact ⟨isType, orderly.isFirstKnown_of_untagged listed isType⟩
  · intro resolved notPrimitive withLayout other options
    have makes := Graph.instantiate_entry notPrimitive resolved (orderly.model?_of_mem listed)
      withLayout
    have shown : node.previewOnly = false :=
      (congrArg Node.previewOnly (Node.bare_ofModel seed id name model []) :)
    rw [Graph.toDocument_singleton shown]
    exact ⟨makes other, Graph.importDocument_singleton makes other options⟩

/-- A model with a tag, one with a tag that an alias leads elsewhere, one that inherits its tag, and
one whose tag is reserved. -/
def figures : Registry :=
  run { aliases := ⟨[("total", "Sum")]⟩ }
    [.register "flow"
      ("class Sum(BaseModel):\n" ++
        "    type: Annotated[Literal[\"sum\"], FieldRole.CONSTANT] = \"sum\"\n" ++
        "class Total(BaseModel):\n" ++
        "    type: Annotated[Literal[\"total\"], FieldRole.CONSTANT] = \"total\"\n" ++
        "class Mean(Sum):\n" ++
        "    pass\n" ++
        "class Text(BaseModel):\n" ++
        "    type: Annotated[Literal[\"$str\"], FieldRole.CONSTANT] = \"$str\"\n")]

/-- The models with the types of their new nodes, and what these lead back to. -/
theorem types_figures :
    (figures.models.map fun (name, model) =>
      let type := (Node.ofModel 0 ⟨1⟩ name model []).documentType
      (name, type, figures.resolve? type)) =
      [("flow.Sum", "sum", some "flow.Sum"), ("flow.Total", "total", some "flow.Sum"),
        ("flow.Mean", "sum", some "flow.Sum"), ("flow.Text", "$str", some "flow.Text")] := by
  decide +kernel

theorem exists_figure {name type : String} {found : Option String}
    (listed : (name, type, found) ∈
      [("flow.Sum", "sum", some "flow.Sum"), ("flow.Total", "total", some "flow.Sum"),
        ("flow.Mean", "sum", some "flow.Sum"), ("flow.Text", "$str", some "flow.Text")]) :
    ∃ model, (name, model) ∈ figures.models ∧
      (Node.ofModel 0 ⟨1⟩ name model []).documentType = type ∧ figures.resolve? type = found := by
  rw [← types_figures] at listed
  obtain ⟨⟨_, model⟩, isModel, same⟩ := List.mem_map.1 listed
  cases same
  exact ⟨model, isModel, rfl, rfl⟩

/-- An alias leads elsewhere, so does a tag that is inherited, and a reserved tag makes a primitive
node. -/
theorem documentType_misleads :
    (∃ model, ("flow.Total", model) ∈ figures.models ∧
      figures.resolve? (Node.ofModel 0 ⟨1⟩ "flow.Total" model []).documentType =
        some "flow.Sum") ∧
    (∃ model, ("flow.Mean", model) ∈ figures.models ∧
      figures.resolve? (Node.ofModel 0 ⟨1⟩ "flow.Mean" model []).documentType =
        some "flow.Sum") ∧
    ∃ model, ("flow.Text", model) ∈ figures.models ∧
      let node := Node.ofModel 0 ⟨1⟩ "flow.Text" model []
      ∃ value, ({} : Graph).instantiate figures (node.entry true) =
        some (({} : Graph).createPrimitive .string value) := by
  refine ⟨?_, ?_, ?_⟩
  · obtain ⟨model, listed, isType, resolved⟩ :=
      @exists_figure "flow.Total" "total" (some "flow.Sum") (by simp)
    exact ⟨model, listed, isType ▸ resolved⟩
  · obtain ⟨model, listed, isType, resolved⟩ :=
      @exists_figure "flow.Mean" "sum" (some "flow.Sum") (by simp)
    exact ⟨model, listed, isType ▸ resolved⟩
  · obtain ⟨model, listed, isType, -⟩ :=
      @exists_figure "flow.Text" "$str" (some "flow.Text") (by simp)
    have reserved : NativeKind.ofPrimitiveTag
        ((Node.ofModel 0 ⟨1⟩ "flow.Text" model []).entry true).type = some .string := by
      show NativeKind.ofPrimitiveTag (Node.documentType _) = _
      rw [isType]
      decide
    exact ⟨model, listed, Graph.instantiate_reserved reserved figures {}⟩

/-- The node with the tag is made again from its model. -/
theorem documentType_sum :
    ∃ model, ("flow.Sum", model) ∈ figures.models ∧
      let node := Node.ofModel 0 ⟨1⟩ "flow.Sum" model []
      figures.resolve? node.documentType = some "flow.Sum" ∧
      NativeKind.ofPrimitiveTag node.documentType = none ∧
      ({} : Graph).instantiate figures (node.entry true) =
        some (({} : Graph).createNode "flow.Sum" model (node.entry true).fields) := by
  obtain ⟨model, listed, isType, found⟩ :=
    @exists_figure "flow.Sum" "sum" (some "flow.Sum") (by simp)
  have resolved := isType.symm ▸ found
  have notPrimitive : NativeKind.ofPrimitiveTag
      (Node.ofModel 0 ⟨1⟩ "flow.Sum" model []).documentType = none := by
    rw [isType]
    decide
  exact ⟨model, listed, resolved, notPrimitive,
    ((documentType_run _ _ listed 0 ⟨1⟩).2.2 resolved notPrimitive true {} {}).1⟩

end Registry

end Workflow
