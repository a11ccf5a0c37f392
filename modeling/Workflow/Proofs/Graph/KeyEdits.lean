/-
This file proves that edits of keys do by places what they say by names.

Places change when a slot is removed, and the same place is written down in several
lists: the slots of the node, the places of its fields and the ends of its links.
Seen by names nothing moves, in whatever graph the edit is made.
-/

import Workflow.Proofs.Graph.Forget

namespace Workflow.Graph

variable {graph after : Graph} {id : NodeId} {field key : String}

/-! ### Edits by names -/

section Edits

variable {blueprint : Blueprint} {node : Node} {direction : Direction} {place : Nat}
  {info : SlotInfo}
  (tied : graph.Tied) (isNode : graph.node? id = some node)
  (sound : blueprint.Sound) (fits : node.Fits blueprint)
  (isSlot : (node.slots direction)[place]? = some info) (isOf : info.isOf field = true)

/-- Changing a node changes what is named on it. -/
theorem nameAt?_modifyNode (graph : Graph) (id : NodeId) (change : Node → Node)
    (keeps : ∀ node, (change node).id = node.id) (side : Direction) (spot : NodeId × Nat) :
    (graph.modifyNode id change).nameAt? side spot =
      ((graph.node? spot.1).bind fun other =>
        ((if spot.1 = id then change other else other).slots side)[spot.2]?).map SlotInfo.name := by
  rw [nameAt?, node?_modifyNode graph id spot.1 change keeps, Option.bind_map]
  rfl

include isNode in
theorem nameAt?_of_node? (side : Direction) (spot : Nat) :
    graph.nameAt? side (id, spot) = ((node.slots side)[spot]?).map SlotInfo.name := by
  rw [nameAt?, isNode]
  rfl

include tied isNode in
/-- Changing a node changes what is named on that node only. -/
theorem map_byNames_modifyNode {change : Node → Node} {view : NamedNode → NamedNode}
    (changed : (change node).byNames = view node.byNames) :
    (graph.modifyNode id change).nodes.map Node.byNames =
      (graph.nodes.map Node.byNames).map fun other =>
        if other.rest.id = id then view other else other := by
  rw [modifyNode, List.map_map, List.map_map]
  refine List.map_congr_left fun other member => ?_
  rw [Function.comp_apply, Function.comp_apply]
  by_cases same : other.id = id
  · obtain rfl := tied.eq_of_node? isNode member same
    rw [if_pos same]
    exact changed.trans (if_pos same).symm
  · rw [if_neg same]
    exact (if_neg same).symm

/-- Changes of a node that look the same by names give graphs that look the same. -/
theorem byNames_modifyNode_congr {one other : Node → Node}
    (keepsOne : ∀ node, (one node).id = node.id) (keepsOther : ∀ node, (other node).id = node.id)
    (same : ∀ node, (one node).byNames = (other node).byNames) :
    (graph.modifyNode id one).byNames = (graph.modifyNode id other).byNames := by
  refine congrArg₂ Names.mk ?_ ?_
  · rw [modifyNode, modifyNode, List.map_map, List.map_map]
    refine List.map_congr_left fun node _ => ?_
    rw [Function.comp_apply, Function.comp_apply]
    split
    · exact same node
    · rfl
  · refine List.map_congr_left fun link _ => ?_
    refine NamedLink.mk_congr fun side => ?_
    rw [nameAt?_modifyNode graph id one keepsOne, nameAt?_modifyNode graph id other keepsOther]
    have slots (node : Node) : (one node).slots side = (other node).slots side := by
      rw [← Node.map_info_namedSlots, ← Node.map_info_namedSlots]
      exact congrArg (fun view => (view.slots side).map NamedSlot.info) (same node)
    refine congrArg
      (fun found => NamedEnd.mk (link.endAt side).1 (Option.map SlotInfo.name found)) ?_
    refine congrArg (Option.bind _) (funext fun node => ?_)
    split
    · rw [slots]
    · rfl

include isNode sound fits isSlot in
theorem nameAt?_rekey (side : Direction) (spot : NodeId × Nat) :
    (graph.modifyNode id fun node => node.rekey direction place key).nameAt? side spot =
      if spot.1 = id ∧ graph.nameAt? side spot = some info.name
      then some ⟨info.field, some key⟩ else graph.nameAt? side spot := by
  rw [nameAt?_modifyNode _ _ _ fun node => by cases direction <;> rfl]
  obtain ⟨other, spot⟩ := spot
  by_cases same : other = id
  · subst same
    simp only [isNode, Option.bind_some, if_true, true_and, nameAt?_of_node? isNode]
    rw [fits.slots_rekeyed sound isSlot, List.getElem?_map]
    cases (node.slots side)[spot]? with
    | none => rfl
    | some found =>
      simp only [Option.map_some, Option.some.injEq]
      split
      · next named =>
        exact congrArg (fun name => some (SlotName.mk name (some key)))
          (congrArg SlotName.field named)
      · rfl
  · simp only [same, false_and, if_false]
    rfl

include tied isNode sound fits isSlot isOf

/-- Giving a slot another key gives its name another key, and links follow. -/
theorem byNames_rekey (fitsAfter : (node.rekey direction place key).Fits blueprint) :
    (graph.modifyNode id fun node => node.rekey direction place key).byNames =
      graph.byNames.rekey id field info.key key := by
  have ofField : info.field = field := (SlotInfo.isOf_iff.1 isOf).2
  refine congrArg₂ Names.mk ?_ ?_
  · exact map_byNames_modifyNode tied isNode (fits.byNames_rekey sound isSlot isOf fitsAfter)
  · show graph.links.map _ = (graph.links.map _).map _
    rw [List.map_map]
    refine List.map_congr_left fun link _ => ?_
    refine NamedLink.mk_congr fun side => ?_
    rw [nameAt?_rekey isNode sound fits isSlot, SlotInfo.name, ofField]
    simp only [namedLink, NamedEnd.mk.injEq]
    split
    · next here => rw [here.1]
    · rfl

/-- Adding a slot adds its name; all links stay where they are. -/
theorem byNames_appendSlot
    (fitsAfter : (node.appendSlot direction field (info.withKey key)).Fits blueprint) :
    (graph.modifyNode id fun node =>
      node.appendSlot direction field (info.withKey key)).byNames =
        graph.byNames.appendKey id field key := by
  refine congrArg₂ Names.mk ?_ ?_
  · exact map_byNames_modifyNode tied isNode (fits.byNames_appendSlot sound isSlot isOf fitsAfter)
  · refine List.map_congr_left fun link isLink => ?_
    refine NamedLink.mk_congr fun side => ?_
    refine congrArg (NamedEnd.mk (link.endAt side).1) ?_
    obtain ⟨port, isPort⟩ := tied.exists_endPort isLink side
    obtain ⟨other, isOther, atPlace⟩ := Option.bind_eq_some_iff.1 isPort
    have inRange : (link.endAt side).2 < (other.slots side).length := by
      rw [← other.ports_map_info, List.length_map]
      exact (List.getElem?_eq_some_iff.1 atPlace).1
    rw [nameAt?_modifyNode _ _ _ fun node => by cases direction <;> rfl, nameAt?, isOther,
      Option.bind_some, Option.bind_some]
    split
    · rw [Node.slots_appendSlot]
      split
      · rw [List.getElem?_append_left inRange]
      · rfl
    · rfl

omit isSlot isOf in
/-- A field shows a placeholder if it has one slot only, which has no key. -/
theorem showsPlaceholder_iff {places : List Nat}
    (isField : node.multiField? field = some (direction, places)) :
    graph.byNames.ShowsPlaceholder id field ↔
      ∃ info, (node.slots direction).filter (SlotInfo.isOf field) = [info] ∧ info.key = none := by
  obtain ⟨entry, isEntry, rfl, -⟩ :=
    (fits.sides direction).entry_of_places (Node.get?_multiSlots isField)
  have keys : (∃ info, (node.slots direction).filter (SlotInfo.isOf entry.1.name) = [info] ∧
      info.key = none) ↔
        ((node.slots direction).filter (SlotInfo.isOf entry.1.name)).map SlotInfo.key = [none] := by
    rw [List.map_eq_singleton_iff]
  rw [keys]
  constructor
  · rintro ⟨view, isView, same, side, shown⟩
    obtain ⟨other, member, rfl⟩ := List.mem_map.1 isView
    obtain rfl := tied.eq_of_node? isNode member same
    have listed : (entry.1.name, [none]) ∈ other.keysByField side := shown
    rw [fits.keysByField_eq] at listed
    obtain ⟨found, isFound, isSame⟩ := List.mem_map.1 listed
    obtain ⟨sameName, isNone⟩ := Prod.mk.inj isSame
    obtain ⟨inFound, foundRole⟩ := mem_fieldsOf.1 isFound
    obtain ⟨inEntry, entryRole⟩ := mem_fieldsOf.1 isEntry
    obtain rfl := sound.eq_of_name inFound inEntry sameName
    have sameSide : side.role true = direction.role true := foundRole.symm.trans entryRole
    rw [← (role_eq_iff.1 sameSide).1]
    exact isNone
  · intro isNone
    refine ⟨node.byNames, List.mem_map_of_mem (mem_of_node? isNode).1, (mem_of_node? isNode).2,
      direction, ?_⟩
    show _ ∈ node.keysByField direction
    rw [fits.keysByField_eq, ← isNone]
    exact List.mem_map_of_mem (f := fun entry : Field × Role => (entry.1.name,
      ((node.slots direction).filter (SlotInfo.isOf entry.1.name)).map SlotInfo.key)) isEntry

omit tied isOf in
/-- A slot is the only one with its name on its node. -/
theorem nameAt?_eq_iff (side : Direction) (spot : Nat) :
    graph.nameAt? side (id, spot) = some info.name ↔ side = direction ∧ spot = place := by
  rw [nameAt?_of_node? isNode]
  constructor
  · intro named
    obtain ⟨found, isFound, same⟩ := Option.map_eq_some_iff.1 named
    exact (fits.name_eq_iff sound isSlot isFound).1 same
  · rintro ⟨rfl, rfl⟩
    rw [isSlot]
    rfl

omit tied isOf in
theorem namedEnd_eq_iff (side : Direction) (spot : NodeId × Nat) :
    (⟨spot.1, graph.nameAt? side spot⟩ : NamedEnd) = ⟨id, some info.name⟩ ↔
      side = direction ∧ spot = (id, place) := by
  obtain ⟨other, spot⟩ := spot
  rw [NamedEnd.mk.injEq, Prod.mk.injEq, and_left_comm]
  refine and_congr_right fun same => ?_
  subst same
  exact nameAt?_eq_iff isNode sound fits isSlot side spot

omit tied isOf in
theorem touches_iff (link : Link) :
    (graph.namedLink link).Touches ⟨id, some info.name⟩ ↔
      endsAt id direction place link = true := by
  have ends := namedEnd_eq_iff isNode sound fits isSlot
  rw [endsAt_iff, NamedLink.Touches]
  refine (or_congr (ends .output (link.endAt .output)) (ends .input (link.endAt .input))).trans ?_
  cases direction <;> simp

omit tied in
/-- The links that are severed are the ones with an end at the name. -/
theorem map_id_severed (isKey : info.key = some key) :
    (graph.byNames.links.filter fun link => link.Touches ⟨id, some ⟨field, some key⟩⟩).map
      NamedLink.id = (graph.links.filter (endsAt id direction place)).map Link.id := by
  have touches := touches_iff isNode sound fits isSlot
  rw [SlotInfo.name, isKey, (SlotInfo.isOf_iff.1 isOf).2] at touches
  rw [byNames, List.filter_map, List.map_map]
  refine congrArg (List.map Link.id) (List.filter_congr fun link _ => ?_)
  rw [Bool.eq_iff_iff, Function.comp_apply, decide_eq_true_eq]
  exact touches link

/-- Removing a slot with its links leaves out its name on the node, and the links on all nodes. -/
theorem map_byNames_removeSlot (isKey : info.key = some key)
    (several : 1 < ((node.slots direction).filter (SlotInfo.isOf field)).length) :
    ((((graph.links.filter (endsAt id direction place)).foldl dropLink graph).removeSlot
      id direction place).modifyNode id fun node => node.dropKeyedValue field key).nodes.map
        Node.byNames = (graph.byNames.removeKey id field key).nodes := by
  show _ = (graph.nodes.map _).map _
  rw [nodes_removeSlot tied, map_id_severed isNode sound fits isSlot isOf isKey, List.map_map,
    List.map_map]
  refine List.map_congr_left fun other member => ?_
  simp only [Function.comp_apply]
  generalize (graph.links.filter (endsAt id direction place)).map Link.id = links
  by_cases same : other.id = id
  · obtain rfl := tied.eq_of_node? isNode member same
    have retouches : other.Retouches (other.forget links) :=
      .of_unlinked (other.unlinked_forget links)
    have isSlot' := isSlot
    rw [← other.slots_forget links] at isSlot' several
    have fits' := retouches.fits fits
    have erased := fits'.byNames_eraseSlot sound isSlot' isOf isKey
      (fits'.eraseSlot isSlot' isOf several)
    rw [if_pos same, if_pos (show other.byNames.rest.id = id from same)]
    refine erased.trans ?_
    rw [other.byNames_forget]
    refine congrArg (NamedNode.mk _ · _) (funext fun side => ?_)
    exact List.filter_map
  · rw [if_neg same, if_neg (show ¬other.byNames.rest.id = id from same)]
    exact other.byNames_forget links

/-- Removing a slot with its links leaves the other links at their names. -/
theorem map_namedLink_removeSlot (isKey : info.key = some key) :
    let after := (((graph.links.filter (endsAt id direction place)).foldl dropLink graph).removeSlot
      id direction place).modifyNode id fun node => node.dropKeyedValue field key
    after.links.map after.namedLink = (graph.byNames.removeKey id field key).links := by
  intro after
  have touches := touches_iff isNode sound fits isSlot
  rw [SlotInfo.name, isKey, (SlotInfo.isOf_iff.1 isOf).2] at touches
  show (List.map _ (((graph.links.filter (endsAt id direction place)).foldl dropLink
    graph).links)).map _ = (graph.links.map _).filter _
  rw [links_dropAccepted tied, List.map_map, List.filter_map]
  have left : (graph.links.filter fun link => !endsAt id direction place link) =
      graph.links.filter ((fun link => decide ¬link.Touches ⟨id, some ⟨field, some key⟩⟩) ∘
        graph.namedLink) := by
    refine List.filter_congr fun link _ => ?_
    rw [Bool.eq_iff_iff, Bool.not_eq_true', Bool.eq_false_iff, Function.comp_apply,
      decide_eq_true_eq]
    exact not_congr (touches link).symm
  rw [← left]
  refine List.map_congr_left fun link member => ?_
  have apart : link.endAt direction ≠ (id, place) := fun atEnd => by
    have free := (List.mem_filter.1 member).2
    rw [(endsAt_iff ..).2 atEnd] at free
    cases free
  rw [Function.comp_apply, namedLink, namedLink, id_shiftLink]
  have drawn : (shiftLink id direction place link).isLoop = link.isLoop ∧
      (shiftLink id direction place link).data = link.data ∧
      (shiftLink id direction place link).extra = link.extra := by
    cases direction <;> rw [shiftLink] <;> split <;> exact ⟨rfl, rfl, rfl⟩
  rw [drawn.1, drawn.2.1, drawn.2.2]
  refine NamedLink.mk_congr fun side => ?_
  have named := nameAt?_removeSlot tied id direction place field key side (link.endAt side)
    (by rintro rfl; exact apart)
  rw [endAt_shiftLink, named]
  refine congrArg (NamedEnd.mk · _) ?_
  split
  · next here => exact here.2.symm
  · rfl

/-- Removing a slot with its links removes its name with the links that end there. -/
theorem byNames_removeSlot (isKey : info.key = some key)
    (several : 1 < ((node.slots direction).filter (SlotInfo.isOf field)).length) :
    ((((graph.links.filter (endsAt id direction place)).foldl dropLink graph).removeSlot
      id direction place).modifyNode id fun node => node.dropKeyedValue field key).byNames =
        graph.byNames.removeKey id field key :=
  congrArg₂ Names.mk (map_byNames_removeSlot tied isNode sound fits isSlot isOf isKey several)
    (map_namedLink_removeSlot tied isNode sound fits isSlot isOf isKey)

end Edits

/-! ### Edits that succeed -/

/-- One node lost the slot of a key, and with it the native value there; the native values behind
the slot are where their inputs are, and those of all other nodes are where they were. -/
def MovesNatives (before : Graph) (id : NodeId) (field key : String) (after : Graph) : Prop :=
  ∃ direction place, before.nameAt? direction (id, place) = some ⟨field, some key⟩ ∧
    after.nodes.map Node.nativeInputs = before.nodes.map fun node =>
      if node.id = id then node.nativesWithout place direction else node.nativeInputs

section Successes

variable (tied : graph.Tied) (fitted : graph.Fitted)

include tied fitted

theorem byNames_of_removeKey (success : graph.removeKey id field key = .ok after) :
    after.byNames = graph.byNames.removeKey id field key := by
  obtain ⟨node, direction, places, place, isNode, isField, several, isPlace, rfl⟩ :=
    removeKey_cases success
  obtain ⟨blueprint, sound, fits⟩ := fitted node (mem_of_node? isNode).1
  obtain ⟨info, isSlot, isOf, isKey⟩ := fits.slot_of_placeOfKey? isField isPlace
  rw [fits.length_places isField] at several
  exact byNames_removeSlot tied isNode sound fits isSlot isOf isKey several

/-- Removing a key moves the native values of its node with their inputs. -/
theorem movesNatives_of_removeKey (success : graph.removeKey id field key = .ok after) :
    graph.MovesNatives id field key after := by
  obtain ⟨node, direction, places, place, isNode, isField, -, isPlace, rfl⟩ :=
    removeKey_cases success
  obtain ⟨blueprint, -, fits⟩ := fitted node (mem_of_node? isNode).1
  obtain ⟨info, isSlot, isOf, isKey⟩ := fits.slot_of_placeOfKey? isField isPlace
  refine ⟨direction, place, ?_, ?_⟩
  · rw [nameAt?_of_node? isNode, isSlot, Option.map_some, SlotInfo.name, isKey,
      (SlotInfo.isOf_iff.1 isOf).2]
  · exact nativeInputs_removeSlot tied id direction place field key

theorem byNames_of_renameKey {newKey : String}
    (success : graph.renameKey id field key newKey = .ok after) :
    after.byNames = graph.byNames.rekey id field (some key) (trimKey newKey) := by
  obtain ⟨named, node, direction, places, place, isNode, isField, isPlace, same | changed⟩ :=
    renameKey_cases success
  · obtain ⟨stays, rfl⟩ := same
    rw [stays]
    exact (Names.rekey_self _ id field key).symm
  · obtain ⟨-, isNew, rfl⟩ := changed
    obtain ⟨blueprint, sound, fits⟩ := fitted node (mem_of_node? isNode).1
    obtain ⟨info, isSlot, isOf, isKey⟩ := fits.slot_of_placeOfKey? isField isPlace
    have fresh := fits.key_ne_of_placeOfKey? isField isNew
    rw [← isKey, ← byNames_rekey tied isNode sound fits isSlot isOf
      (fits.rekey isSlot isOf named fresh)]
    refine byNames_modifyNode_congr ?_ ?_ ?_ <;> intro <;> cases direction <;> rfl

theorem byNames_of_addKey {place : Nat} (success : graph.addKey id field key = .ok (place, after)) :
    (graph.byNames.ShowsPlaceholder id field →
      after.byNames = graph.byNames.rekey id field none (trimKey key)) ∧
    (¬graph.byNames.ShowsPlaceholder id field →
      after.byNames = graph.byNames.appendKey id field (trimKey key)) ∧
    ∃ direction, ∀ side spot, after.nameAt? side (id, spot) = some ⟨field, some (trimKey key)⟩ ↔
      side = direction ∧ spot = place := by
  obtain ⟨named, node, direction, first, others, template, isNode, isField, isNew, isTemplate,
    ⟨rfl, isPlaceholder, rfl, rfl⟩ | ⟨hasKeys, rfl, rfl⟩⟩ := addKey_cases success
  all_goals
    obtain ⟨blueprint, sound, fits⟩ := fitted node (mem_of_node? isNode).1
    obtain ⟨same, isSame, isOf⟩ := fits.slot_of_place isField List.mem_cons_self
    rw [isTemplate] at isSame
    obtain rfl := Option.some.inj isSame
    have fresh := fits.key_ne_of_placeOfKey? isField isNew
    have length := fits.length_places isField
    have shows := showsPlaceholder_iff tied isNode sound fits isField
    have ofField : template.field = field := (SlotInfo.isOf_iff.1 isOf).2
    have listed : template ∈ (node.slots direction).filter (SlotInfo.isOf field) :=
      List.mem_filter.2 ⟨List.mem_of_getElem? isTemplate, isOf⟩
    have name : (template.withKey (trimKey key)).name = ⟨field, some (trimKey key)⟩ := by
      rw [SlotInfo.name, ← ofField]
      rfl
  · have fitsAfter := fits.rekey isTemplate isOf named fresh
    refine ⟨fun _ => ?_, fun hidden => absurd (shows.2 ?_) hidden, direction, fun side spot => ?_⟩
    · rw [← isPlaceholder]
      exact byNames_rekey tied isNode sound fits isTemplate isOf fitsAfter
    · obtain ⟨only, isOnly⟩ := List.length_eq_one_iff.1 length.symm
      rw [isOnly, List.mem_singleton] at listed
      exact ⟨template, listed ▸ isOnly, isPlaceholder⟩
    · rw [← name]
      refine nameAt?_eq_iff ?_ sound fitsAfter ?_ side spot
      · exact node?_modifyNode_self isNode fun _ => by cases direction <;> rfl
      · rw [Node.slots_rekey, if_pos rfl, List.getElem?_modify_eq, isTemplate]
        rfl
  · have fitsAfter := fits.appendSlot (List.mem_of_getElem? isTemplate) isOf (hasKeys.imp_right
      fun several => by
        rw [← length, List.length_cons]
        exact Nat.succ_lt_succ (List.length_pos_iff.2 several)) named fresh
    refine ⟨fun shown => ?_, fun _ => ?_, direction, fun side spot => ?_⟩
    · obtain ⟨only, isOnly, isPlaceholder⟩ := shows.1 shown
      rw [isOnly] at listed length
      rw [List.mem_singleton.1 listed, isPlaceholder] at hasKeys
      simp at hasKeys length
      exact absurd length hasKeys
    · exact byNames_appendSlot tied isNode sound fits isTemplate isOf fitsAfter
    · rw [← name]
      refine nameAt?_eq_iff ?_ sound fitsAfter ?_ side spot
      · exact node?_modifyNode_self isNode fun _ => by cases direction <;> rfl
      · rw [Node.slots_appendSlot, if_pos rfl, List.getElem?_append_right (Nat.le_refl _),
          Nat.sub_self]
        rfl

end Successes

/-- In every graph that operations lead to, editing keys does by places what it says by names.
Removing a key leaves it out of its field with the links that end at its slot, and native values
stay with their inputs; renaming one replaces it where it is, and its links follow; adding one names
the placeholder of the field, whose links follow, or comes after the other keys, and the answer is
the only place with the new name. Nothing else that has a name changes. -/
theorem keyEdits_run (operations : List Operation) (id : NodeId) (field key : String) :
    let graph := run operations
    (∀ after, graph.removeKey id field key = .ok after →
      after.byNames = graph.byNames.removeKey id field key ∧
        graph.MovesNatives id field key after) ∧
    (∀ newKey after, graph.renameKey id field key newKey = .ok after →
      after.byNames = graph.byNames.rekey id field (some key) (trimKey newKey)) ∧
    ∀ place after, graph.addKey id field key = .ok (place, after) →
      (graph.byNames.ShowsPlaceholder id field →
        after.byNames = graph.byNames.rekey id field none (trimKey key)) ∧
      (¬graph.byNames.ShowsPlaceholder id field →
        after.byNames = graph.byNames.appendKey id field (trimKey key)) ∧
      ∃ direction, ∀ side spot,
        after.nameAt? side (id, spot) = some ⟨field, some (trimKey key)⟩ ↔
          side = direction ∧ spot = place := by
  have tied := tied_run operations
  have fitted := fitted_run operations
  refine ⟨fun after success => ?_, fun newKey after success => ?_, fun place after success => ?_⟩
  · exact ⟨byNames_of_removeKey tied fitted success,
      movesNatives_of_removeKey tied fitted success⟩
  · exact byNames_of_renameKey tied fitted success
  · exact byNames_of_addKey tied fitted success

end Workflow.Graph
