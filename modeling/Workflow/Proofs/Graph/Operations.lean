/-
This file takes every operation of graphs apart into elementary changes.

Which changes an operation makes may depend on the graph being tied: an id then
finds the only node under it, and links are told apart by their ids.
-/

import Workflow.Graph.Readiness
import Workflow.Proofs.Graph.Edit
import Workflow.Proofs.Graph.Success
import Workflow.Proofs.Node.Make

namespace Workflow

/-! ### Nodes revised in place -/

namespace Node

variable {retags : Prop}

/-- The node with all that another one has besides what it was made from, its slots and its
values. -/
def drawnLike (node other : Node) : Node :=
  { node with
    position := other.position
    size := other.size
    keyedValues := other.keyedValues
    title := other.title
    displayName := other.displayName
    color := other.color
    extra := other.extra
    order := other.order
    previewOnly := other.previewOnly
    readiness := other.readiness }

/-- A node may change in all that neither its slots nor its values are. -/
theorem revises_of_drawnLike {before after : Node} (same : before.drawnLike after = after) :
    before.Revises retags after := by
  rw [← same]
  have retouches : before.Retouches (before.drawnLike after) :=
    ⟨rfl, fun direction => by cases direction <;> rfl, fun direction => by cases direction <;> rfl,
      fun slot member => ⟨slot, member, rfl, Or.inl rfl⟩, rfl, rfl⟩
  exact retouches.revises rfl (fun direction => by cases direction <;> rfl) (Or.inr rfl)

theorem ports_reviseInput_of_keeps (node : Node) (place : Nat) {change : InputSlot → InputSlot}
    (keeps : ∀ slot, (change slot).port = slot.port) (direction : Direction) :
    (node.reviseInput place change).ports direction = node.ports direction := by
  cases direction with
  | input => exact map_modify_of_keeps keeps node.inputs place
  | output => rfl

/-- An input may be given another native value. -/
theorem revises_edited (node : Node) (place : Nat) (value : Json) :
    node.Revises retags (node.reviseInput place fun slot =>
      { slot with native := slot.native.map (NativeValue.edited value) }) := by
  have retouches : node.Retouches (node.reviseInput place fun slot =>
      { slot with native := slot.native.map (NativeValue.edited value) }) :=
    node.retouches_reviseInput place (fun _ => rfl) fun _ => Or.inr ⟨value, rfl⟩
  exact retouches.revises rfl (node.ports_reviseInput_of_keeps place fun _ => rfl) (Or.inr rfl)

/-- A constant that is there may be replaced, the one that tells the type only where nodes may be
retagged. -/
theorem revises_insert {node : Node} {field : String} (present : node.constants.contains field)
    (may : retags ∨ field ≠ typeTagField) (value : Json) :
    node.Revises retags { node with constants := node.constants.insert field value } := by
  have retouches : node.Retouches { node with constants := node.constants.insert field value } :=
    ⟨rfl, fun direction => by cases direction <;> rfl, fun direction => by cases direction <;> rfl,
      fun slot member => ⟨slot, member, rfl, Or.inl rfl⟩, rfl,
      OrderedMap.keys_insert_of_mem (OrderedMap.contains_iff.1 present)⟩
  refine retouches.revises rfl (fun direction => by cases direction <;> rfl)
    (may.imp_right fun apart => ?_)
  rw [OrderedMap.get?_insert, if_neg apart]

theorem extends_rekey (node : Node) (direction : Direction) (place : Nat) (key : String) :
    node.Extends (node.rekey direction place key) := by
  have same (side : Direction) (spot : Nat) :
      ((node.rekey direction place key).ports side)[spot]? =
        ((node.ports side)[spot]?).map fun port =>
          if direction = side ∧ place = spot then { port with info := port.info.withKey key }
          else port := by
    cases direction with
    | input => exact node.getElem?_ports_reviseInput place _ _ (fun _ => rfl) side spot
    | output => exact node.getElem?_ports_reviseOutput place _ _ (fun _ => rfl) side spot
  refine ⟨fun side spot port found => ?_, fun side spot port absent found => ?_⟩
  · rw [same, found]
    refine ⟨_, rfl, ?_⟩
    split <;> exact ⟨rfl, rfl⟩
  · rw [same, absent] at found
    cases found

theorem ports_appendSlot (node : Node) (direction side : Direction) (field : String)
    (info : SlotInfo) :
    (node.appendSlot direction field info).ports side =
      if side = direction then node.ports side ++ [⟨info, []⟩] else node.ports side := by
  cases direction <;> cases side <;> simp [appendSlot, ports, InputSlot.port, OutputSlot.port]

theorem extends_appendSlot (node : Node) (direction : Direction) (field : String)
    (info : SlotInfo) : node.Extends (node.appendSlot direction field info) := by
  refine ⟨fun side spot port found => ?_, fun side spot port absent found => ?_⟩
  · refine ⟨port, ?_, rfl, rfl⟩
    rw [ports_appendSlot]
    split
    · exact (List.getElem?_append_left (List.getElem?_eq_some_iff.1 found).1).trans found
    · exact found
  · rw [ports_appendSlot] at found
    split at found
    · rw [List.getElem?_append_right (List.getElem?_eq_none_iff.1 absent)] at found
      rw [List.mem_singleton.1 (List.mem_of_getElem? found)]
    · rw [absent] at found
      cases found

end Node

namespace Graph

variable {made : Blueprint → Prop} {retags : Prop} {graph after : Graph} {id : NodeId}

/-- The only node under an id of a tied graph is the one that the id finds. -/
theorem Tied.eq_of_node? (tied : graph.Tied) {node other : Node}
    (found : graph.node? id = some node) (member : other ∈ graph.nodes) (same : other.id = id) :
    other = node := by
  have isFound := node?_of_mem tied.nodesAscend member
  rw [same, found] at isFound
  exact (Option.some.inj isFound).symm

theorem edits_record (graph : Graph) (event : Event) :
    Edits made retags graph (graph.record event) :=
  .single (.relabel graph graph.seed (graph.events ++ [event]) graph.kind graph.metadata)

theorem edits_takeEvents (graph : Graph) : Edits made retags graph graph.takeEvents.2 :=
  .single (.relabel graph graph.seed [] graph.kind graph.metadata)

theorem edits_modifyNode {change : Node → Node} (keeps : ∀ node, (change node).id = node.id)
    (revises : ∀ node ∈ graph.nodes, node.id = id → node.Revises retags (change node)) :
    Edits made retags graph (graph.modifyNode id change) := by
  refine .single (.mapNodes graph _ (fun node => ?_) fun node member => ?_)
  · split
    · exact keeps node
    · rfl
  · split
    · next same => exact revises node member same
    · exact .refl node

/-! ### Nodes -/

theorem edits_createNode {modelRef : String} {model : Model}
    (isMade : made (.ofModel modelRef model)) (sound : (Blueprint.ofModel modelRef model).Sound)
    (fragment : Object) : Edits made retags graph (graph.createNode modelRef model fragment).2 := by
  have isNode := Node.made_ofModel sound graph.seed ⟨graph.nextNode⟩ fragment
  have bare := Node.bare_ofModel graph.seed ⟨graph.nextNode⟩ modelRef model fragment
  refine .single (.addNode graph _ (.ofModel modelRef model) isMade
    (isNode.fits (congrArg Node.modelRef bare :)) isNode.tagged (congrArg Node.id bare :) ?_)
  refine Node.links_withFields _ (fun direction port member => ?_) _
  cases direction <;> cases member

theorem edits_createPrimitive {kind : NativeKind} (isMade : made (.ofKind kind)) (value : Json) :
    Edits made retags graph (graph.createPrimitive kind value).2 := by
  refine .single (.addNode graph _ (.ofKind kind) isMade (Node.fits_primitive _ kind value) ?_ rfl
    fun direction port member => ?_)
  · intro entry member
    cases member
  · cases direction with
    | input => cases member
    | output =>
      rw [List.mem_singleton.1 member]
      rfl

theorem links_dropLinks (links : List Link) (graph : Graph) :
    (links.foldl dropLink graph).links =
      graph.links.filter fun other => other.id ∉ links.map Link.id := by
  induction links generalizing graph with
  | nil => simp
  | cons link rest inductionHypothesis =>
    rw [List.foldl_cons, inductionHypothesis]
    show (graph.links.filter fun other => other.id ≠ link.id).filter _ = _
    rw [List.filter_filter]
    refine List.filter_congr fun other _ => ?_
    simp [Bool.and_comm, not_or]

/-- What taking one link away keeps is kept when links that are told apart by their ids are taken
away one after the other. -/
theorem dropLinks_keeps (Kept : Graph → Prop) (links : List Link)
    (only : ∀ link ∈ links, ∀ other ∈ graph.links, other.id = link.id → other = link)
    (step : ∀ before link, (∀ other ∈ before.links, other.id = link.id → other = link) →
      Kept before → Kept (before.dropLink link)) (start : Kept graph) :
    Kept (links.foldl dropLink graph) := by
  induction links generalizing graph with
  | nil => exact start
  | cons link rest inductionHypothesis =>
    refine inductionHypothesis (fun later member other isLink => ?_)
      (step graph link (only link List.mem_cons_self) start)
    exact only later (List.mem_cons_of_mem link member) other (List.mem_of_mem_filter isLink)

theorem edits_dropLinks (links : List Link)
    (only : ∀ link ∈ links, ∀ other ∈ graph.links, other.id = link.id → other = link) :
    Edits made retags graph (links.foldl dropLink graph) :=
  dropLinks_keeps (Edits made retags graph) links only
    (fun before link onlyFirst edits => edits.trans (.single (.dropLink before link onlyFirst)))
    .refl

theorem edits_dropAccepted (tied : graph.Tied) (accepts : Link → Bool) :
    Edits made retags graph ((graph.links.filter accepts).foldl dropLink graph) :=
  edits_dropLinks _ fun _ member _ isLink same =>
    tied.link_eq_of_id isLink (List.mem_of_mem_filter member) same

/-- Once the links that some test accepts are taken away, no link passes it. -/
theorem rejects_of_mem_dropLinks {accepts : Link → Bool} {link : Link}
    (member : link ∈ ((graph.links.filter accepts).foldl dropLink graph).links) :
    link ∈ graph.links ∧ accepts link = false := by
  rw [links_dropLinks, List.mem_filter, decide_eq_true_eq] at member
  refine ⟨member.1, Bool.eq_false_iff.2 fun accepted => member.2 ?_⟩
  exact List.mem_map_of_mem (List.mem_filter.2 ⟨member.1, accepted⟩)

theorem edits_removeNode (tied : graph.Tied) {node : Node}
    (success : graph.removeNode id = some (node, after)) : Edits made retags graph after := by
  obtain ⟨-, rfl⟩ := removeNode_cases success
  refine (edits_dropAccepted tied _).trans (.head (.dropNode _ id fun link member direction => ?_)
    (edits_record _ _))
  obtain ⟨-, apart⟩ := rejects_of_mem_dropLinks member
  rw [decide_eq_false_iff_not, not_or] at apart
  cases direction with
  | input => exact apart.2
  | output => exact apart.1

/-! ### Links -/

theorem edits_connect {origin target : NodeId} {originSlot targetSlot : Nat} {link : LinkId}
    (success : graph.connect origin originSlot target targetSlot = .ok (link, after)) :
    Edits made retags graph after := by
  obtain ⟨isAdded, output, input, isOutput, isInput, free, types⟩ := connect_cases success
  obtain rfl : after = _ := congrArg Prod.snd isAdded
  exact .single (.addLink graph origin originSlot target targetSlot output input isOutput isInput
    free types)

theorem edits_disconnect (tied : graph.Tied) {link : LinkId} {stored : Link}
    (success : graph.disconnect link = some (stored, after)) : Edits made retags graph after := by
  obtain ⟨isLink, rfl⟩ := disconnect_cases success
  exact .single (.dropLink graph stored fun other member same =>
    tied.link_eq_of_id member (mem_of_link? isLink).1 same)

/-! ### Values -/

theorem edits_setInput {slot : Nat} {value : Json}
    (success : graph.setInput id slot value = some after) : Edits made retags graph after := by
  obtain ⟨-, rfl⟩ := setInput_cases success
  refine .trans ?_ (edits_record _ _)
  exact edits_modifyNode (fun _ => rfl) fun node _ _ => node.revises_edited slot value

theorem edits_setConstant (tied : graph.Tied) {field : String} {value : Json}
    (may : retags ∨ field ≠ typeTagField)
    (success : graph.setConstant id field value = some after) :
    Edits made retags graph after := by
  obtain ⟨⟨node, found, contains⟩, rfl⟩ := setConstant_cases success
  refine .trans ?_ (edits_record _ _)
  refine edits_modifyNode (fun _ => rfl) fun other member same => ?_
  rw [tied.eq_of_node? found member same]
  exact Node.revises_insert contains may value

theorem edits_setPrimitive (tied : graph.Tied) {value : Json}
    (success : graph.setPrimitive id value = some after) : Edits made retags graph after :=
  edits_setConstant tied (Or.inr (by decide)) (setPrimitive_cases success).2

theorem edits_setPosition {position : Point}
    (success : graph.setPosition id position = some after) : Edits made retags graph after := by
  obtain ⟨-, rfl⟩ := setPosition_cases success
  refine .trans ?_ (edits_record _ _)
  exact edits_modifyNode (fun _ => rfl) fun _ _ _ => Node.revises_of_drawnLike rfl

theorem edits_setPreviewOnly {previewOnly : Bool}
    (success : graph.setPreviewOnly id previewOnly = some after) :
    Edits made retags graph after := by
  obtain ⟨-, rfl⟩ := setPreviewOnly_cases success
  exact edits_modifyNode (fun _ => rfl) fun _ _ _ => Node.revises_of_drawnLike rfl

/-! ### Keys -/

theorem edits_addKey (tied : graph.Tied) {field key : String} {place : Nat}
    (success : graph.addKey id field key = .ok (place, after)) :
    Edits made retags graph after := by
  obtain ⟨named, node, direction, first, others, template, isNode, isField, isNew, isTemplate,
    ⟨-, -, -, rfl⟩ | ⟨hasKeys, -, rfl⟩⟩ := addKey_cases success
  · refine .trans ?_ (edits_record _ _)
    refine edits_modifyNode (fun node => by cases direction <;> rfl) fun other member same => ?_
    obtain rfl := tied.eq_of_node? isNode member same
    refine ⟨⟨by cases direction <;> rfl, fun blueprint fits => ?_, Or.inr ?_⟩,
      other.extends_rekey direction first _⟩
    · obtain ⟨info, isInfo, isOf⟩ := fits.slot_of_place isField List.mem_cons_self
      exact fits.rekey isInfo isOf named (fits.key_ne_of_placeOfKey? isField isNew)
    · cases direction <;> rfl
  · refine .trans ?_ (edits_record _ _)
    refine edits_modifyNode (fun node => by cases direction <;> rfl) fun other member same => ?_
    obtain rfl := tied.eq_of_node? isNode member same
    refine ⟨⟨by cases direction <;> rfl, fun blueprint fits => ?_, Or.inr ?_⟩,
      other.extends_appendSlot direction field _⟩
    · obtain ⟨info, isInfo, isOf⟩ := fits.slot_of_place isField List.mem_cons_self
      rw [isTemplate] at isInfo
      cases isInfo
      have length := fits.length_places isField
      refine fits.appendSlot (List.mem_of_getElem? isTemplate) isOf
        (hasKeys.imp_right fun several => ?_) named (fits.key_ne_of_placeOfKey? isField isNew)
      rw [← length, List.length_cons]
      exact Nat.succ_lt_succ (List.length_pos_iff.2 several)
    · cases direction <;> rfl

theorem edits_renameKey (tied : graph.Tied) {field key newKey : String}
    (success : graph.renameKey id field key newKey = .ok after) :
    Edits made retags graph after := by
  obtain ⟨named, node, direction, places, place, isNode, isField, isPlace,
    ⟨-, rfl⟩ | ⟨-, isNew, rfl⟩⟩ := renameKey_cases success
  · exact .refl
  · refine .trans ?_ (edits_record _ _)
    refine edits_modifyNode (fun node => by cases direction <;> rfl) fun other member same => ?_
    obtain rfl := tied.eq_of_node? isNode member same
    have moved : other.Revises retags (other.moveKeyedValue field key (trimKey newKey)) :=
      Node.revises_of_drawnLike rfl
    have extended := (other.moveKeyedValue field key (trimKey newKey)).extends_rekey direction place
      (trimKey newKey)
    refine ⟨⟨by cases direction <;> rfl, fun blueprint fits => ?_, Or.inr ?_⟩,
      extended.kept, extended.gained⟩
    · obtain ⟨info, isInfo, isOf, -⟩ := fits.slot_of_placeOfKey? isField isPlace
      have fresh := fits.key_ne_of_placeOfKey? isField isNew
      cases direction with
      | input => exact (moved.fits blueprint fits).rekey isInfo isOf named fresh
      | output => exact (moved.fits blueprint fits).rekey isInfo isOf named fresh
    · cases direction <;> rfl

/-- Once its links are taken away, nothing ends at a slot. -/
theorem idsAt_dropLinks_eq_nil (graph : Graph) (id : NodeId) (direction : Direction)
    (place : Nat) :
    ((graph.links.filter (endsAt id direction place)).foldl dropLink graph).idsAt id direction
      place = [] := by
  rw [List.eq_nil_iff_forall_not_mem]
  intro link member
  obtain ⟨stored, isLink, atEnd, -⟩ := mem_idsAt.1 member
  obtain ⟨-, apart⟩ := rejects_of_mem_dropLinks isLink
  rw [(endsAt_iff ..).2 atEnd] at apart
  cases apart

theorem edits_removeKey (tied : graph.Tied) {field key : String}
    (success : graph.removeKey id field key = .ok after) : Edits made retags graph after := by
  obtain ⟨node, direction, places, place, isNode, isField, several, isPlace, rfl⟩ :=
    removeKey_cases success
  refine (edits_dropAccepted tied _).trans (.head (.removeSlot _ id direction place
    (idsAt_dropLinks_eq_nil ..) fun other member same blueprint fits => ?_) ?_)
  · obtain ⟨old, isOld, unlinked⟩ := exists_unlinked (unlinked_dropLinks _ graph) member
    obtain rfl := tied.eq_of_node? isNode isOld ((congrArg Node.id unlinked :).trans same)
    have retouches := Node.Retouches.of_unlinked unlinked.symm
    rw [← Node.multiField?_congr retouches.multiSlots] at isField
    obtain ⟨info, isInfo, isOf⟩ := fits.slot_of_place isField (Node.key_of_placeOfKey? isPlace).1
    exact fits.eraseSlot isInfo isOf (fits.length_places isField ▸ several)
  · refine .trans ?_ (edits_record _ _)
    exact edits_modifyNode (fun _ => rfl) fun _ _ _ => Node.revises_of_drawnLike rfl

/-! ### Readiness -/

/-- Nodes may be marked as ready or not. -/
theorem edits_of_marks (graph : Graph) {change : Node → Node}
    (marks : ∀ node, ∃ readiness, change node = { node with readiness := readiness }) :
    Edits made retags graph (graph.mapNodes change) := by
  refine .single (.mapNodes graph _ (fun node => ?_) fun node _ => ?_)
  · obtain ⟨readiness, same⟩ := marks node
    rw [same]
  · obtain ⟨readiness, same⟩ := marks node
    rw [same]
    exact Node.revises_of_drawnLike rfl

theorem edits_refreshComplete (graph : Graph) (ids : List NodeId) :
    Edits made retags graph (graph.refreshComplete ids) := by
  refine edits_of_marks graph fun node => ?_
  split
  · exact ⟨_, rfl⟩
  · exact ⟨node.readiness, rfl⟩

theorem edits_refreshChains (graph : Graph) (ids : List NodeId) :
    Edits made retags graph (graph.refreshChains ids) := by
  refine edits_of_marks graph fun node => ?_
  split
  · exact ⟨_, rfl⟩
  · exact ⟨node.readiness, rfl⟩

theorem edits_refreshAll (graph : Graph) : Edits made retags graph graph.refreshAll.2 :=
  (edits_refreshComplete graph _).trans (edits_refreshChains _ _)

theorem edits_refreshFrom (graph : Graph) (start : NodeId) :
    Edits made retags graph (graph.refreshFrom start).2 := by
  rw [refreshFrom]
  split
  · exact (edits_refreshComplete graph _).trans (edits_refreshChains _ _)
  · exact .refl

end Graph

/-! ### Documents -/

theorem Node.revises_applyEntry {retags : Prop} (node : Node) (options : ImportOptions)
    (grid : Point) (index : Nat) (entry : NodeEntry) :
    node.Revises retags (node.applyEntry options grid index entry) := by
  have natives : ∀ (fields : Object) (drawn : Node), node.Revises retags drawn →
      node.Revises retags (fields.foldl Node.setNative drawn) := by
    intro fields
    induction fields with
    | nil => exact fun _ drawn => drawn
    | cons field rest inductionHypothesis =>
      intro drawn revises
      refine inductionHypothesis _ (revises.trans ?_)
      rw [Node.setNative]
      split
      · exact .refl drawn
      · exact drawn.revises_edited _ _
  refine natives _ _ ?_
  cases entry.appearance <;> exact revises_of_drawnLike rfl

namespace Graph

variable {made : Blueprint → Prop} {retags : Prop} {graph after : Graph} {id : NodeId}

theorem edits_resolveSlot (tied : graph.Tied) {direction : Direction} {name : String} {place : Nat}
    (success : graph.resolveSlot id direction name = some (place, after)) :
    Edits made retags graph after := by
  obtain rfl | ⟨-, field, key, -, -, added⟩ := resolveSlot_cases success
  · exact .refl
  · exact edits_addKey tied added

theorem edits_linkEdge (tied : graph.Tied) (created : List (Option NodeId)) (edge : EdgeEntry) :
    Edits made retags graph (graph.linkEdge created edge).1 :=
  linkEdge_induction
    (fun edits isFound => edits.trans (edits_resolveSlot (edits.tied tied) isFound))
    (fun edits isLinked => edits.trans (edits_connect isLinked)) .refl created edge

theorem edits_addEdge {importing : Importing} (tied : importing.graph.Tied)
    (entry : EdgeEntry × Nat) :
    Edits made retags importing.graph (importing.addEdge entry).graph := by
  have linked : Edits made retags importing.graph
      (importing.graph.linkEdge importing.created entry.1).1 := edits_linkEdge tied _ _
  rw [Importing.addEdge]
  split
  · next graph problem isLinked =>
    rw [isLinked] at linked
    exact linked
  · next graph link isLinked =>
    rw [isLinked] at linked
    refine linked.tail (.mapLinks graph _ (fun stored => ?_) fun stored direction => ?_)
    · split <;> rfl
    · split
      · cases direction <;> rfl
      · rfl

/-- Steps that make edits of a tied graph make edits when taken one after the other. -/
theorem edits_foldl {State Item : Type} (view : State → Graph) {step : State → Item → State}
    (each : ∀ state item, (view state).Tied →
      Edits made retags (view state) (view (step state item)))
    (items : List Item) (state : State) (tied : (view state).Tied) :
    Edits made retags (view state) (view (items.foldl step state)) := by
  induction items generalizing state with
  | nil => exact .refl
  | cons item rest inductionHypothesis =>
    have first := each state item tied
    exact first.trans (inductionHypothesis _ (first.tied tied))

section Import

variable {registry : Registry}
  (models : ∀ type modelRef model, registry.resolve? type = some modelRef →
    registry.model? modelRef = some model → made (.ofModel modelRef model))
  (kinds : ∀ kind, made (.ofKind kind)) (sound : ∀ blueprint, made blueprint → blueprint.Sound)

include models kinds sound

theorem edits_instantiate {entry : NodeEntry}
    (success : graph.instantiate registry entry = some (id, after)) :
    Edits made retags graph after := by
  rw [instantiate] at success
  split at success
  · next kind _ =>
    cases success
    exact edits_createPrimitive (kinds kind) _
  · split at success
    · cases success
    · next modelRef isResolved =>
      obtain ⟨model, isModel, same⟩ := Option.map_eq_some_iff.1 success
      obtain rfl : _ = after := congrArg Prod.snd same
      have isMade := models _ modelRef model isResolved isModel
      exact edits_createNode isMade (sound _ isMade) _

theorem edits_addEntry (importing : Importing) (options : ImportOptions) (columns : Nat)
    (entry : NodeEntry) :
    Edits made retags importing.graph
      (importing.addNode registry options columns entry).graph := by
  rw [Importing.addNode]
  split
  · exact .refl
  · next isCreated =>
    have revises (grid : Point) (index : Nat) (node : Node) :
        node.Revises retags (node.applyEntry options grid index entry) :=
      node.revises_applyEntry options grid index entry
    exact (edits_instantiate models kinds sound isCreated).trans
      (edits_modifyNode (fun node => (revises _ _ node).id) fun node _ _ => revises _ _ node)

theorem edits_importDocument (graph : Graph) (document : Document) (options : ImportOptions) :
    Edits made retags graph (graph.importDocument registry document options).2 := by
  have emptied : Edits made retags graph
      { graph.clear with kind := some document.kind, metadata := document.metadata } :=
    .tail (.single (.clear graph)) (.relabel graph.clear _ _ _ _)
  have nodes : Edits made retags _ _ := edits_foldl Importing.graph
    (fun importing entry _ => edits_addEntry models kinds sound importing options
      (options.columnsFor document.nodes.length) entry)
    document.nodes
    { graph := { graph.clear with kind := some document.kind, metadata := document.metadata } }
    (Tied.clear.relabel _ _ _ _)
  have edges : Edits made retags _ _ := edits_foldl Importing.graph
    (fun importing entry tied => edits_addEdge tied entry) document.edges.zipIdx _
    (nodes.tied (Tied.clear.relabel _ _ _ _))
  exact emptied.trans (nodes.trans edges)

end Import

end Graph

end Workflow
