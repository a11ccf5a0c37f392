/-
This file keeps a ledger of the values that came with the keys of fields.

The ledger knows nothing of slots, places or of what nodes keep for keys. It is written
alongside the operations: it starts with the objects that nodes are made from, and each
edit of a key that succeeds edits one object. What documents list for fields with keys is
what the ledger says, whatever else was done meanwhile.
-/

import Workflow.Proofs.Document.Skipped
import Workflow.Proofs.Graph.KeyValues
import Workflow.Proofs.Graph.Run

namespace Workflow

open Workflow.Graph

/-- The values under the keys of fields, by node and field, as far as they came as objects. -/
def Ledger : Type := NodeId → String → Option Object

/-- What is kept alongside steps. -/
def alongside {State Item Kept : Type} (step : State → Item → State)
    (keep : State → Item → Kept → Kept) : State → Kept → List Item → Kept
  | _, kept, [] => kept
  | state, kept, item :: rest => alongside step keep (step state item) (keep state item kept) rest

namespace Ledger

/-! ### Writing the ledger -/

/-- Nothing is known at first. -/
def blank : Ledger := fun _ _ => none

/-- A node is made from the members of an object. Those that are objects themselves give values to
keys; the empty key is none. -/
def enter (ledger : Ledger) (id : NodeId) (fragment : Object) : Ledger := fun node field =>
  if node = id then
    (documentObject (Object.get? fragment field)).map fun members => members.erase ""
  else ledger node field

/-- The object of one field is edited. -/
def edit (ledger : Ledger) (id : NodeId) (field : String) (change : Object → Object) : Ledger :=
  fun node other =>
    (ledger node other).map fun object =>
      if node = id ∧ other = field then change object else object

/-- A key is added without a value, if it can be. -/
def addKey (ledger : Ledger) (graph : Graph) (id : NodeId) (field key : String) : Ledger :=
  match graph.addKey id field key with
  | .ok _ => ledger.edit id field fun object => object.insert (trimKey key) .null
  | .error _ => ledger

/-- A key is removed, if it can be. -/
def removeKey (ledger : Ledger) (graph : Graph) (id : NodeId) (field key : String) : Ledger :=
  match graph.removeKey id field key with
  | .ok _ => ledger.edit id field fun object => object.erase key
  | .error _ => ledger

/-- A key is renamed with its value, if it can be. -/
def renameKey (ledger : Ledger) (graph : Graph) (id : NodeId) (field key newKey : String) :
    Ledger :=
  match graph.renameKey id field key newKey with
  | .ok _ => ledger.edit id field fun object => object.move key (trimKey newKey)
  | .error _ => ledger

/-- A node of a document is read. -/
def readNode (ledger : Ledger) (graph : Graph) (registry : Registry) (entry : NodeEntry) : Ledger :=
  match graph.instantiate registry entry with
  | some (id, _) => ledger.enter id entry.fields
  | none => ledger

/-- A slot is looked for by name, which adds the key that the name asks for. -/
def findSlot (ledger : Ledger) (graph : Graph) (id : NodeId) (direction : Direction)
    (name : String) : Ledger :=
  match (graph.node? id).bind fun node => node.keyedName? direction name with
  | some (field, key) =>
    if graph.AsksForKey id direction name then ledger.addKey graph id field key else ledger
  | none => ledger

/-- An edge of a document is read: its output is looked for, and then its input. -/
def readEdge (ledger : Ledger) (graph : Graph) (created : List (Option NodeId)) (edge : EdgeEntry) :
    Ledger :=
  match (created[edge.source]?).join, (created[edge.target]?).join with
  | some source, some target =>
    let found := ledger.findSlot graph source .output edge.sourceSlot
    match graph.resolveSlot source .output edge.sourceSlot with
    | some (_, after) => found.findSlot after target .input edge.targetSlot
    | none => found
  | _, _ => ledger

/-- A document is read: its nodes, and then its edges. -/
def importDocument (ledger : Ledger) (graph : Graph) (registry : Registry) (document : Document)
    (options : ImportOptions) : Ledger :=
  let addNode := Importing.addNode registry options (options.columnsFor document.nodes.length)
  let emptied : Importing := { graph := graph.emptied document }
  alongside Importing.addEdge
    (fun importing entry kept => kept.readEdge importing.graph importing.created entry.1)
    (document.nodes.foldl addNode emptied)
    (alongside addNode (fun importing entry kept => kept.readNode importing.graph registry entry)
      emptied ledger document.nodes)
    document.edges.zipIdx

/-- An operation is performed. -/
def perform (graph : Graph) (operation : Operation) (ledger : Ledger) : Ledger :=
  match operation with
  | .createNode modelRef model fragment =>
    ledger.enter (graph.createNode modelRef model.1 fragment).1 fragment
  | .addKey id field key => ledger.addKey graph id field key
  | .removeKey id field key => ledger.removeKey graph id field key
  | .renameKey id field key newKey => ledger.renameKey graph id field key newKey
  | .importDocument registry document options =>
    ledger.importDocument graph registry.1 document options
  | _ => ledger

/-- The ledger of operations on an empty graph. -/
def run (operations : List Operation) : Ledger :=
  alongside Graph.perform perform {} blank operations

end Ledger

/-- What holds at first and is kept by each step holds in the end. -/
theorem alongside_induction {State Item Kept : Type} {step : State → Item → State}
    {keep : State → Item → Kept → Kept} (Holds : State → Kept → Prop) {items : List Item}
    (each : ∀ item ∈ items, ∀ state kept, Holds state kept →
      Holds (step state item) (keep state item kept)) (state : State) (kept : Kept)
    (start : Holds state kept) :
    Holds (items.foldl step state) (alongside step keep state kept items) := by
  induction items generalizing state kept with
  | nil => exact start
  | cons item rest inductionHypothesis =>
    exact inductionHypothesis (fun later member => each later (List.mem_cons_of_mem item member))
      _ _ (each item List.mem_cons_self state kept start)

/-! ### What the ledger says -/

/-- A graph to which the ledger applies: nodes fit what they were made from, and the objects of the
ledger tell what they keep for keys. -/
structure Ledger.Covers (ledger : Ledger) (graph : Graph) : Prop where
  tied : graph.Tied
  made : ∀ node ∈ graph.nodes, ∃ blueprint : Blueprint, blueprint.IsMade ∧ node.Fits blueprint
  told : ∀ node ∈ graph.nodes, ∀ field object, ledger node.id field = some object →
    node.ToldBy field object

namespace Ledger.Covers

variable {ledger changed : Ledger} {graph after : Graph} {id : NodeId} {field key : String}

theorem fitted (covers : ledger.Covers graph) : graph.Fitted := fun node member =>
  let ⟨blueprint, isMade, fits⟩ := covers.made node member
  ⟨blueprint, isMade.sound, fits⟩

/-- After edits it is enough that the objects tell what the nodes keep. -/
theorem of_edits (covers : ledger.Covers graph) (edits : Edits Blueprint.IsMade True graph after)
    (told : ∀ node ∈ after.nodes, ∀ field object, changed node.id field = some object →
      node.ToldBy field object) : changed.Covers after where
  tied := edits.tied covers.tied
  made node member := by
    obtain ⟨old, isOld, continues⟩ | ⟨-, blueprint, isMade, fits, -⟩ :=
      edits.succeeds.nodes node member
    · obtain ⟨blueprint, isMade, fits⟩ := covers.made old isOld
      exact ⟨blueprint, isMade, continues.fits blueprint fits⟩
    · exact ⟨blueprint, isMade, fits⟩
  told := told

theorem keeps (covers : ledger.Covers graph) (edits : Edits Blueprint.IsMade True graph after)
    (keeps : graph.KeepsKeys after) : ledger.Covers after := by
  refine covers.of_edits edits fun node member field object found => ?_
  obtain ⟨old, isOld, same⟩ := keeps node member
  exact same.toldBy (covers.told old isOld field object (by rw [same.id, found]))

theorem edit (covers : ledger.Covers graph) (edits : Edits Blueprint.IsMade True graph after)
    {change : Object → Object} (edited : EditsKeys id field change graph after) :
    (ledger.edit id field change).Covers after := by
  obtain ⟨keep, each⟩ := edited
  refine covers.of_edits edits fun node member other object found => ?_
  obtain ⟨old, isOld, edits⟩ := each node member
  obtain ⟨before, isBefore, rfl⟩ := Option.map_eq_some_iff.1 found
  exact edits.toldBy (covers.told old isOld other before (by rw [edits.id, isBefore]))

/-! ### Edits of keys -/

theorem addKey (covers : ledger.Covers graph) (id : NodeId) (field key : String) :
    (ledger.addKey graph id field key).Covers
      (((graph.addKey id field key).toOption.map Prod.snd).getD graph) := by
  rw [Ledger.addKey]
  cases added : graph.addKey id field key with
  | error problem => exact covers
  | ok answer =>
    exact covers.edit (edits_addKey covers.tied added)
      (editsKeys_addKey covers.tied covers.fitted added)

theorem removeKey (covers : ledger.Covers graph) (id : NodeId) (field key : String) :
    (ledger.removeKey graph id field key).Covers
      ((graph.removeKey id field key).toOption.getD graph) := by
  rw [Ledger.removeKey]
  cases removed : graph.removeKey id field key with
  | error problem => exact covers
  | ok after =>
    exact covers.edit (edits_removeKey covers.tied removed)
      (editsKeys_removeKey covers.tied covers.fitted removed)

theorem renameKey (covers : ledger.Covers graph) (id : NodeId) (field key newKey : String) :
    (ledger.renameKey graph id field key newKey).Covers
      ((graph.renameKey id field key newKey).toOption.getD graph) := by
  rw [Ledger.renameKey]
  cases renamed : graph.renameKey id field key newKey with
  | error problem => exact covers
  | ok after =>
    exact covers.edit (edits_renameKey covers.tied renamed)
      (editsKeys_renameKey covers.tied covers.fitted renamed)

/-! ### New nodes -/

/-- A new node is covered if the ledger says of it what it keeps, and of others what it did. -/
theorem addNode (covers : ledger.Covers graph) {make : NodeId → Node}
    (edits : Edits Blueprint.IsMade True graph (graph.addNode make).2)
    (fresh : (make ⟨graph.nextNode⟩).id = ⟨graph.nextNode⟩)
    (others : ∀ id : NodeId, id.number < graph.nextNode → changed id = ledger id)
    (told : ∀ field object, changed ⟨graph.nextNode⟩ field = some object →
      (make ⟨graph.nextNode⟩).ToldBy field object) : changed.Covers (graph.addNode make).2 := by
  refine covers.of_edits edits fun node member field object found => ?_
  rcases List.mem_append.1 member with old | added
  · rw [others _ (covers.tied.nodesCounted _ (List.mem_map_of_mem old))] at found
    exact covers.told node old field object found
  · obtain rfl := List.mem_singleton.1 added
    rw [fresh] at found
    exact told field object found

theorem enter_of_lt (ledger : Ledger) (fragment : Object) {id : NodeId}
    (less : id.number < graph.nextNode) :
    ledger.enter ⟨graph.nextNode⟩ fragment id = ledger id := by
  funext field
  refine if_neg ?_
  rintro rfl
  exact Nat.lt_irrefl _ less

end Ledger.Covers

/-- The objects among the members come in the order of their keys, as all objects do. -/
def Object.HoldsObjects (fragment : Object) : Prop :=
  ∀ (name : String) (members : Object), fragment.get? name = some (.object members) →
    members.Ascending

/-- A primitive node has no field with keys. -/
theorem Node.toldBy_primitive (id : NodeId) (kind : NativeKind) (value : Json) (field : String)
    (object : Object) : (Node.primitive id kind value).ToldBy field object := by
  intro hasField
  obtain ⟨direction, listed⟩ := Node.hasField_byNames.1 hasField
  cases direction <;> cases listed

/-- A new node of a model keeps for the keys of a field what they were given with. -/
theorem Node.toldBy_ofModel {model : Model} (declared : model.IsDeclared) (seed : Seed)
    (id : NodeId) (modelRef : String) {fragment : Object} (ordered : fragment.HoldsObjects)
    {field : String} {members : Object}
    (given : documentObject (fragment.get? field) = some members) :
    (Node.ofModel seed id modelRef model fragment).ToldBy field (members.erase "") := by
  have sound := declared.sound modelRef
  have made := Node.made_ofModel sound seed id fragment
  have bare := Node.bare_ofModel seed id modelRef model fragment
  have fits := made.fits (congrArg Node.modelRef bare :)
  intro hasField
  obtain ⟨direction, listed⟩ := Node.hasField_byNames.1 hasField
  rw [fits.keys_multiSlots] at listed
  obtain ⟨entry, isEntry, rfl⟩ : ∃ entry ∈ fieldsOf direction.keyedRole model.fieldsWithRoles,
      entry.1.name = field := List.mem_map.1 listed
  refine ⟨members, (made.keyedValues direction entry isEntry).trans given, ?_⟩
  cases isObject : fragment.get? entry.1.name with
  | none =>
    rw [isObject] at given
    cases given
  | some value =>
    have slots := made.keys direction entry isEntry
    rw [isObject] at given
    cases value with
    | object kept =>
      cases given
      rw [keysGiven, isObject] at slots
      exact (Object.Tells.of_given (ordered _ _ isObject)).congr fun key =>
        fits.hasSlot_iff_mem sound isEntry slots
    | _ => cases given

/-! ### Operations -/

namespace Ledger.Covers

variable {ledger : Ledger} {graph : Graph} {registry : Registry}

theorem createNode (covers : ledger.Covers graph) {model : Model} (declared : model.IsDeclared)
    (modelRef : String) {fragment : Object} (ordered : fragment.HoldsObjects) :
    (ledger.enter ⟨graph.nextNode⟩ fragment).Covers
      (graph.createNode modelRef model fragment).2 := by
  have bare := Node.bare_ofModel graph.seed ⟨graph.nextNode⟩ modelRef model fragment
  refine covers.addNode (edits_createNode (Or.inl ⟨modelRef, model, declared, rfl⟩)
    (declared.sound modelRef) fragment) (congrArg Node.id bare :)
    (fun id => enter_of_lt ledger fragment) fun field object found => ?_
  rw [enter, if_pos rfl] at found
  obtain ⟨members, given, rfl⟩ := Option.map_eq_some_iff.1 found
  exact Node.toldBy_ofModel declared graph.seed _ modelRef ordered given

theorem createPrimitive (covers : ledger.Covers graph) {changed : Ledger} (kind : NativeKind)
    (value : Json) (others : ∀ id : NodeId, id.number < graph.nextNode → changed id = ledger id) :
    changed.Covers (graph.createPrimitive kind value).2 :=
  covers.addNode (edits_createPrimitive (Or.inr ⟨kind, rfl⟩) value) rfl others fun field object _ =>
    Node.toldBy_primitive _ kind value field object

/-- Reading a node of a document makes it from the members of its entry. -/
theorem readNode (covers : ledger.Covers graph) (isRead : registry.IsRead) {entry : NodeEntry}
    (ordered : entry.fields.HoldsObjects) :
    (ledger.readNode graph registry entry).Covers
      (((graph.instantiate registry entry).map Prod.snd).getD graph) := by
  cases created : graph.instantiate registry entry with
  | none =>
    rw [Ledger.readNode, created]
    exact covers
  | some answer =>
    obtain ⟨id, after⟩ := answer
    rw [Ledger.readNode, created]
    rw [instantiate] at created
    split at created
    · next kind _ =>
      cases created
      exact covers.createPrimitive kind _ fun id => enter_of_lt ledger entry.fields
    · split at created
      · cases created
      · next modelRef _ =>
        obtain ⟨model, isModel, same⟩ := Option.map_eq_some_iff.1 created
        cases same
        exact covers.createNode (isRead.isDeclared isModel) modelRef ordered

end Ledger.Covers

/-- Placing and drawing a node and setting its native values leaves its keys alone. -/
theorem Node.sameKeys_applyEntry (node : Node) (options : ImportOptions) (grid : Point)
    (index : Nat) (entry : NodeEntry) :
    node.SameKeys (node.applyEntry options grid index entry) := by
  refine List.foldlRecOn (motive := fun drawn : Node => node.SameKeys drawn) entry.fields
    Node.setNative ?_ fun drawn same field _ => ?_
  · cases entry.appearance <;> exact .of_parts rfl rfl rfl (by rintro (_ | _) <;> rfl) rfl
  · rw [Node.setNative]
    split
    · exact same
    · exact same.trans (.reviseInput drawn _ fun _ => rfl)

namespace Ledger.Covers

variable {ledger : Ledger} {graph : Graph} {registry : Registry}

theorem addEntry {importing : Importing} (covers : ledger.Covers importing.graph)
    (isRead : registry.IsRead) {entry : NodeEntry} (ordered : entry.fields.HoldsObjects)
    (options : ImportOptions) (columns : Nat) :
    (ledger.readNode importing.graph registry entry).Covers
      (importing.addNode registry options columns entry).graph := by
  have read := covers.readNode isRead ordered
  rw [Importing.addNode]
  dsimp only
  split
  · next isNone =>
    rw [isNone] at read
    exact read
  · next isCreated =>
    rw [isCreated] at read
    refine read.keeps ?_ (keepsKeys_modifyNode _ _ fun node =>
      node.sameKeys_applyEntry options _ _ entry)
    have revises (grid : Point) (index : Nat) (node : Node) :
        node.Revises True (node.applyEntry options grid index entry) :=
      node.revises_applyEntry options grid index entry
    exact edits_modifyNode (fun node => (revises _ _ node).id) fun node _ _ => revises _ _ node

/-- Looking for a slot adds no more than the key that its name asks for. -/
theorem findSlot (covers : ledger.Covers graph) (id : NodeId) (direction : Direction)
    (name : String) :
    (ledger.findSlot graph id direction name).Covers
      (((graph.resolveSlot id direction name).map Prod.snd).getD graph) := by
  rw [Ledger.findSlot, resolveSlot]
  cases isNode : graph.node? id with
  | none => exact covers
  | some node =>
    have asks : graph.AsksForKey id direction name ↔ node.slotNamed? direction name = none ∧
        node.slotShown? direction name = none ∧ (node.keyedName? direction name).isSome := by
      simp only [AsksForKey, isNode, Option.mem_def, Option.some.injEq, exists_eq_left']
    rw [Option.bind_some]
    dsimp only
    cases isSpot : (node.slotNamed? direction name).or (node.slotShown? direction name) with
    | some place =>
      have unasked : ¬graph.AsksForKey id direction name := by
        rw [asks, ← and_assoc, ← Option.or_eq_none_iff, isSpot]
        exact fun both => Option.some_ne_none _ both.1
      simp only [unasked, if_false]
      split <;> exact covers
    | none =>
      obtain ⟨notNamed, notShown⟩ := Option.or_eq_none_iff.1 isSpot
      cases keyed : node.keyedName? direction name with
      | none =>
        dsimp only
        split
        · split <;> exact covers
        · split <;> exact covers
      | some part =>
        dsimp only
        rw [if_pos (asks.2 ⟨notNamed, notShown, by rw [keyed]; rfl⟩)]
        exact covers.addKey id part.1 part.2

/-- Reading an edge finds its ends and links them. -/
theorem readEdge (covers : ledger.Covers graph) (created : List (Option NodeId))
    (edge : EdgeEntry) :
    (ledger.readEdge graph created edge).Covers (graph.linkEdge created edge).1 := by
  rw [Ledger.readEdge, linkEdge]
  cases isSource : (created[edge.source]?).join with
  | none => exact covers
  | some source =>
    cases isTarget : (created[edge.target]?).join with
    | none => exact covers
    | some target =>
      have output := covers.findSlot source .output edge.sourceSlot
      dsimp only
      cases isOutput : graph.resolveSlot source .output edge.sourceSlot with
      | none =>
        rw [isOutput] at output
        exact output
      | some found =>
        obtain ⟨originSlot, withOutput⟩ := found
        rw [isOutput, Option.map_some, Option.getD_some] at output
        have input := output.findSlot target .input edge.targetSlot
        dsimp only
        cases isInput : withOutput.resolveSlot target .input edge.targetSlot with
        | none =>
          rw [isInput] at input
          exact input
        | some found =>
          obtain ⟨targetSlot, withInput⟩ := found
          rw [isInput] at input
          dsimp only
          split
          · exact input
          · next isLinked => exact input.keeps (edits_connect isLinked) (keepsKeys_connect isLinked)

theorem addEdge {importing : Importing} (covers : ledger.Covers importing.graph)
    (entry : EdgeEntry × Nat) :
    (ledger.readEdge importing.graph importing.created entry.1).Covers
      (importing.addEdge entry).graph := by
  have linked := covers.readEdge importing.created entry.1
  rw [Importing.addEdge]
  split
  · next isError =>
    rw [isError] at linked
    exact linked
  · next isLinked =>
    rw [isLinked] at linked
    refine linked.keeps ?_ (.of_subset fun _ member => member)
    refine .single (.mapLinks _ _ (fun stored => ?_) fun stored direction => ?_)
    · split <;> rfl
    · split
      · cases direction <;> rfl
      · rfl

/-- Reading a document reads its nodes and then its edges. -/
theorem importDocument (ledger : Ledger) (graph : Graph) (isRead : registry.IsRead)
    {document : Document} (ordered : ∀ entry ∈ document.nodes, entry.fields.HoldsObjects)
    (options : ImportOptions) :
    (ledger.importDocument graph registry document options).Covers
      (graph.importDocument registry document options).2 := by
  have emptied : ledger.Covers (graph.emptied document) :=
    ⟨tied_emptied graph document, List.forall_mem_nil _, List.forall_mem_nil _⟩
  have nodes := alongside_induction
    (fun (importing : Importing) (ledger : Ledger) => ledger.Covers importing.graph)
    (fun entry member importing ledger covers => covers.addEntry isRead (ordered entry member)
      options (options.columnsFor document.nodes.length))
    { graph := graph.emptied document } ledger emptied
  exact alongside_induction
    (fun (importing : Importing) (ledger : Ledger) => ledger.Covers importing.graph)
    (fun entry _ importing ledger covers => covers.addEdge entry) _ _ nodes

end Ledger.Covers

/-- The objects that nodes are made from come in the order of their keys, as all objects do. -/
def Graph.Operation.HoldsObjects : Operation → Prop
  | .createNode _ _ fragment => fragment.HoldsObjects
  | .importDocument _ document _ => ∀ entry ∈ document.nodes, entry.fields.HoldsObjects
  | _ => True

namespace Ledger

/-- The ledger covers a graph after an operation if it did so before. -/
theorem Covers.perform {ledger : Ledger} {graph : Graph} (covers : ledger.Covers graph)
    (operation : Operation) (ordered : operation.HoldsObjects) :
    (ledger.perform graph operation).Covers (graph.perform operation) := by
  have other (keeps : graph.KeepsKeys (graph.perform operation)) :
      ledger.Covers (graph.perform operation) :=
    covers.keeps (edits_perform covers.tied operation) keeps
  cases operation with
  | createNode modelRef model fragment => exact covers.createNode model.2 modelRef ordered
  | createPrimitive kind value => exact covers.createPrimitive kind value fun _ _ => rfl
  | addKey id field key => exact covers.addKey id field key
  | removeKey id field key => exact covers.removeKey id field key
  | renameKey id field key newKey => exact covers.renameKey id field key newKey
  | importDocument registry document options =>
    exact Covers.importDocument ledger graph registry.2 ordered options
  | removeNode id => exact other (keepsKeys_map_getD fun _ _ => keepsKeys_removeNode)
  | clear => exact other (.of_subset (List.nil_subset _))
  | connect origin originSlot target targetSlot =>
    exact other (keepsKeys_map_getD fun _ _ success =>
      keepsKeys_connect (eq_ok_of_toOption success))
  | disconnect id => exact other (keepsKeys_map_getD fun _ _ => keepsKeys_disconnect)
  | setInput id slot value => exact other (keepsKeys_getD fun _ => keepsKeys_setInput)
  | setConstant id field value => exact other (keepsKeys_getD fun _ => keepsKeys_setConstant)
  | setPrimitive id value => exact other (keepsKeys_getD fun _ => keepsKeys_setPrimitive)
  | setPosition id position => exact other (keepsKeys_getD fun _ => keepsKeys_setPosition)
  | setPreviewOnly id previewOnly =>
    exact other (keepsKeys_getD fun _ => keepsKeys_setPreviewOnly)
  | reseed seed => exact other (.of_subset fun _ member => member)
  | takeEvents => exact other (.of_subset fun _ member => member)
  | refreshAll => exact other (keepsKeys_of_unmarked (unmarked_refreshAll graph))
  | refreshFrom start => exact other (keepsKeys_of_unmarked (unmarked_refreshFrom graph start))

theorem covers_run {operations : List Operation}
    (ordered : ∀ operation ∈ operations, operation.HoldsObjects) :
    (Ledger.run operations).Covers (Graph.run operations) :=
  alongside_induction (fun (graph : Graph) (ledger : Ledger) => ledger.Covers graph)
    (fun operation member _ _ covers => covers.perform operation (ordered operation member)) _ _
    ⟨Tied.empty, List.forall_mem_nil _, List.forall_mem_nil _⟩

end Ledger

/-! ### What documents list -/

/-- What a document lists for a field with keys is the object that tells of it. -/
theorem Node.Fits.get?_toldBy {blueprint : Blueprint} {node : Node} (sound : blueprint.Sound)
    (parted : blueprint.Parted) (fits : node.Fits blueprint) {field : String} {object : Object}
    (told : node.ToldBy field object) (isField : (node.multiField? field).isSome)
    (free : field ∉ reservedFields) (withLayout : Bool) :
    Object.get? (node.entry withLayout).fields field =
      if object.isEmpty then none else some (.object object) := by
  obtain ⟨⟨direction, places⟩, found⟩ := Option.isSome_iff_exists.1 isField
  obtain ⟨entry, isEntry, rfl, -⟩ := (fits.sides direction).entry_of_places (get?_multiSlots found)
  have isName : entry.1.name ∈ blueprint.names (.keys direction) := List.mem_map_of_mem isEntry
  obtain ⟨keys, distinct, -, slots, listed⟩ := fits.exists_keys sound parted isEntry
  obtain ⟨values, kept, tells⟩ := told (hasField_byNames.2
    ⟨direction, by rw [fits.keys_multiSlots]; exact isName⟩)
  rw [fits.get?_of_names parted withLayout isName free, listed]
  exact keysWritten_of_tells kept (tells.congr fun key =>
    (fits.hasSlot_iff_mem sound isEntry slots).symm) distinct

theorem Blueprint.IsMade.parted {blueprint : Blueprint} (isMade : blueprint.IsMade) :
    blueprint.Parted := by
  obtain ⟨modelRef, model, declared, rfl⟩ | ⟨kind, rfl⟩ := isMade
  · exact parted_ofModel (declared.sound modelRef)
  · exact parted_ofKind kind

namespace Graph

/-- Whatever is done to a graph, a document lists for a field with keys, unless its name is
reserved, the object that the ledger has for it, and nothing while that is empty. -/
theorem keyedValues_run (operations : List Operation)
    (ordered : ∀ operation ∈ operations, operation.HoldsObjects) (withLayout : Bool) :
    let graph := run operations
    ∀ (place : Nat) (node : Node), graph.documentNodes[place]? = some node →
      ∀ (field : String) (object : Object), Ledger.run operations node.id field = some object →
        (node.multiField? field).isSome → field ∉ reservedFields →
        ∃ entry, (graph.toDocument withLayout).nodes[place]? = some entry ∧
          entry.fields.get? field = if object.isEmpty then none else some (.object object) := by
  intro graph place node isNode field object found isField free
  have covers := Ledger.covers_run ordered
  have member := documentNodes_subset (List.mem_of_getElem? isNode)
  obtain ⟨blueprint, isMade, fits⟩ := covers.made node member
  refine ⟨_, getElem?_nodes_toDocument withLayout isNode, ?_⟩
  exact fits.get?_toldBy isMade.sound isMade.parted (covers.told node member field object found)
    isField free withLayout

/-- A sum read from a document that gives its parts as an object, with a key removed and added again
and another one renamed; one key cannot be added, for it is there. -/
def editedSum : List Operation :=
  [.importDocument ⟨sums, (Registry.isRead_empty {}).register "flow" _⟩
      { nodes := [{ type := "sum", fields := [("parts", .object
        [("", .string "none"), ("a", .string "first"), ("b", .string "second")])] }] } {},
    .removeKey ⟨1⟩ "parts" "a", .addKey ⟨1⟩ "parts" " a ", .addKey ⟨1⟩ "parts" "b",
    .renameKey ⟨1⟩ "parts" "b" "c"]

theorem holdsObjects_editedSum : ∀ operation ∈ editedSum, operation.HoldsObjects := by
  intro operation member
  simp only [editedSum, List.mem_cons, List.not_mem_nil, or_false] at member
  obtain rfl | rfl | rfl | rfl | rfl := member
  · refine List.forall_mem_singleton.2 fun name members found => ?_
    rw [Object.get?] at found
    split at found
    · cases found
      simp only [Object.Ascending]
      decide +kernel
    · cases found
  all_goals trivial

/-- What is found out about the sum by running the operations. -/
theorem checked_editedSum :
    let seen := (run editedSum).nodes.filter fun node => !node.previewOnly
    seen.Pairwise (fun first second => first.comesBefore second) ∧
    (∃ node ∈ seen[0]?, node.id = ⟨1⟩ ∧ (node.multiField? "parts").isSome) ∧
    ∃ object ∈ Ledger.run editedSum ⟨1⟩ "parts",
      object.map (fun entry => (entry.1, entry.2 matches .null, entry.2.text?)) =
        [("a", true, none), ("c", false, some "second")] := by
  decide +kernel

/-- The document of the sum lists null for the key that was added again, and the value of the other
key under its new name. -/
theorem keyedValues_editedSum :
    let graph := run editedSum
    ∃ entry, (graph.toDocument false).nodes[0]? = some entry ∧
      entry.fields.get? "parts" = some (.object [("a", .null), ("c", .string "second")]) := by
  intro graph
  obtain ⟨sorted, ⟨node, isNode, sameId, isField⟩, object, isObject, members⟩ := checked_editedSum
  have listed : graph.documentNodes = _ := List.mergeSort_of_pairwise sorted
  have told : object = [("a", .null), ("c", .string "second")] := by
    obtain ⟨⟨first, value⟩, rest, rfl, isFirst, others⟩ := List.map_eq_cons_iff.1 members
    obtain ⟨⟨second, other⟩, rfl, isSecond⟩ := List.map_eq_singleton_iff.1 others
    simp only [Prod.mk.injEq] at isFirst isSecond
    obtain ⟨rfl, isNull, -⟩ := isFirst
    obtain ⟨rfl, -, isText⟩ := isSecond
    have null : value = .null := by cases value <;> first | rfl | cases isNull
    have text : other = .string "second" := by
      cases other with
      | string text => rw [← Option.some.inj isText]
      | _ => cases isText
    rw [null, text]
  rw [← sameId] at isObject
  obtain ⟨entry, isEntry, isListed⟩ := keyedValues_run editedSum holdsObjects_editedSum false 0 node
    (by rw [listed]; exact isNode) "parts" object isObject isField (by decide)
  refine ⟨entry, isEntry, ?_⟩
  rw [isListed, told]
  rfl

end Graph

end Workflow
