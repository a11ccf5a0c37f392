/-
This file follows an object that tells the values of keys through the operations of
graphs.

Edits of keys change the keys of one field by name, and with them the values that are
kept beside the keys; the object is edited alike. Whatever else is done to a graph leaves
slots, fields and kept values of its nodes as they are.
-/

import Workflow.Proofs.Document.KeyValues
import Workflow.Proofs.Document.Listed
import Workflow.Proofs.Graph.KeyEdits
import Workflow.Proofs.Graph.Refresh

namespace Workflow

/-! ### Keys by names -/

theorem map_fst_changeKeys (field : String)
    (change : List (Option String) → List (Option String))
    (fields : List (String × List (Option String))) :
    (changeKeys field change fields).map Prod.fst = fields.map Prod.fst := by
  rw [changeKeys, List.map_map]
  rfl

namespace NamedNode

/-- Whether a slot is called by a name. -/
def HasSlot (node : NamedNode) (name : SlotName) : Prop :=
  ∃ direction, ∃ slot ∈ node.slots direction, slot.info.name = name

/-- Whether a field with keys is called by a name. -/
def HasField (node : NamedNode) (field : String) : Prop :=
  ∃ direction, field ∈ (node.keys direction).map Prod.fst

variable {node : NamedNode} {field key other : String} {name : SlotName}

theorem hasSlot_forget (links : List LinkId) :
    (node.forget links).HasSlot name ↔ node.HasSlot name := by
  refine exists_congr fun direction => ?_
  simp only [forget, List.mem_map, exists_exists_and_eq_and]
  rfl

theorem hasSlot_removeKey : (node.removeKey field key).HasSlot name ↔
    node.HasSlot name ∧ name ≠ ⟨field, some key⟩ := by
  constructor
  · rintro ⟨direction, slot, member, rfl⟩
    obtain ⟨isSlot, kept⟩ := List.mem_filter.1 member
    exact ⟨⟨direction, slot, isSlot, rfl⟩, of_decide_eq_true kept⟩
  · rintro ⟨⟨direction, slot, isSlot, rfl⟩, kept⟩
    exact ⟨direction, slot, List.mem_filter.2 ⟨isSlot, decide_eq_true kept⟩, rfl⟩

theorem hasSlot_rekey {old : Option String} : (node.rekey field old key).HasSlot name ↔
    node.HasSlot name ∧ name ≠ ⟨field, old⟩ ∨
      name = ⟨field, some key⟩ ∧ node.HasSlot ⟨field, old⟩ := by
  constructor
  · rintro ⟨direction, slot, member, rfl⟩
    obtain ⟨before, isSlot, rfl⟩ := List.mem_map.1 member
    split
    · next here =>
      exact Or.inr ⟨congrArg (SlotName.mk · _) (congrArg SlotName.field here),
        direction, before, isSlot, here⟩
    · next apart => exact Or.inl ⟨⟨direction, before, isSlot, rfl⟩, apart⟩
  · rintro (⟨⟨direction, slot, isSlot, rfl⟩, apart⟩ | ⟨rfl, direction, slot, isSlot, here⟩)
    · exact ⟨direction, _, List.mem_map_of_mem isSlot, by rw [if_neg apart]⟩
    · refine ⟨direction, _, List.mem_map_of_mem isSlot, ?_⟩
      rw [if_pos here]
      exact congrArg (SlotName.mk · _) (congrArg SlotName.field here)

/-- The keys of a view after one of them got another name, if the view is that of a node. -/
theorem hasSlot_rekeyOf (view : NamedNode) (id : NodeId) (newKey wanted : String) :
    (if view.rest.id = id then view.rekey field (some key) newKey else view).HasSlot
        ⟨other, some wanted⟩ ↔
      view.HasSlot ⟨other, some wanted⟩ ∧ ¬(view.rest.id = id ∧ other = field ∧ wanted = key) ∨
        view.rest.id = id ∧ other = field ∧ wanted = newKey ∧
          view.HasSlot ⟨field, some key⟩ := by
  split
  · next same =>
    rw [hasSlot_rekey]
    simp only [same, ne_eq, SlotName.mk.injEq, Option.some.injEq, true_and, and_assoc]
  · next apart => simp only [apart, false_and, not_false_eq_true, and_true, or_false]

/-- A view with the slots of another one and perhaps one for a key of a field. -/
structure Gains (field key : String) (view grown : NamedNode) : Prop where
  rest : grown.rest = view.rest
  fields : ∀ direction,
    (grown.keys direction).map Prod.fst = (view.keys direction).map Prod.fst
  kept : ∀ other wanted, view.HasSlot ⟨other, some wanted⟩ → grown.HasSlot ⟨other, some wanted⟩
  gained : ∀ other wanted, grown.HasSlot ⟨other, some wanted⟩ →
    view.HasSlot ⟨other, some wanted⟩ ∨ other = field ∧ wanted = key

theorem gains_rekey (field key : String) (view : NamedNode) :
    Gains field key view (view.rekey field none key) where
  rest := rfl
  fields direction := map_fst_changeKeys ..
  kept other wanted before := by
    refine hasSlot_rekey.2 (Or.inl ⟨before, fun isNone => ?_⟩)
    cases congrArg SlotName.key isNone
  gained other wanted present := by
    obtain ⟨before, -⟩ | ⟨isNew, -⟩ := hasSlot_rekey.1 present
    · exact Or.inl before
    · obtain ⟨isField, isKey⟩ := SlotName.mk.inj isNew
      exact Or.inr ⟨isField, Option.some.inj isKey⟩

theorem gains_appendKey (field key : String) (view : NamedNode) :
    Gains field key view (view.appendKey field key) where
  rest := rfl
  fields direction := by rw [appendKey, map_fst_changeKeys]
  kept other wanted before := by
    obtain ⟨direction, slot, member, named⟩ := before
    exact ⟨direction, slot, List.mem_append_left _ member, named⟩
  gained other wanted present := by
    obtain ⟨direction, slot, member, named⟩ := present
    rcases List.mem_append.1 member with old | added
    · exact Or.inl ⟨direction, slot, old, named⟩
    · obtain ⟨template, isTemplate, rfl⟩ := Option.map_eq_some_iff.1 (Option.mem_toList.1 added)
      have ofField : template.info.field = field :=
        of_decide_eq_true (List.find?_some isTemplate :)
      obtain ⟨isField, isKey⟩ := SlotName.mk.inj named
      exact Or.inr ⟨isField.symm.trans ofField, (Option.some.inj isKey).symm⟩

end NamedNode

namespace Node

variable {blueprint : Blueprint} {node : Node} {direction : Direction} {field key : String}

theorem hasSlot_byNames {name : SlotName} : node.byNames.HasSlot name ↔
    ∃ direction, ∃ info ∈ node.slots direction, info.name = name := by
  refine exists_congr fun direction => ?_
  rw [← map_info_namedSlots]
  simp only [List.mem_map, exists_exists_and_eq_and]
  rfl

theorem hasField_byNames : node.byNames.HasField field ↔
    ∃ direction, field ∈ (node.multiSlots direction).keys := by
  refine exists_congr fun direction => ?_
  show field ∈ (node.keysByField direction).map Prod.fst ↔ _
  rw [keysByField, List.map_map]
  rfl

/-- A field has a key if one of its slots does. -/
theorem Fits.hasSlot_iff (sound : blueprint.Sound) (fits : node.Fits blueprint)
    {entry : Field × Role} (isEntry : entry ∈ fieldsOf direction.keyedRole blueprint.fields) :
    node.byNames.HasSlot ⟨entry.1.name, some key⟩ ↔
      ∃ info ∈ node.slots direction, info.isOf entry.1.name = true ∧ info.key = some key := by
  rw [hasSlot_byNames]
  constructor
  · rintro ⟨side, info, member, named⟩
    obtain ⟨template, isTemplate, isOf⟩ := (fits.sides direction).exists_slot isEntry
    obtain ⟨isMulti, ofField⟩ := SlotInfo.isOf_iff.1 isOf
    have sameField : info.field = entry.1.name := congrArg SlotName.field named
    obtain ⟨rfl, alike⟩ := fits.eq_of_field sound member isTemplate (sameField.trans ofField.symm)
    exact ⟨info, member, SlotInfo.isOf_iff.2 ⟨alike.trans isMulti, sameField⟩,
      congrArg SlotName.key named⟩
  · rintro ⟨info, member, isOf, isKey⟩
    refine ⟨direction, info, member, ?_⟩
    rw [SlotInfo.name, isKey, (SlotInfo.isOf_iff.1 isOf).2]

/-- A field has a key if it is found among its places. -/
theorem Fits.hasSlot_iff_placeOfKey? (sound : blueprint.Sound) (fits : node.Fits blueprint)
    {places : List Nat} (isField : node.multiField? field = some (direction, places)) :
    node.byNames.HasSlot ⟨field, some key⟩ ↔ (node.placeOfKey? direction places key).isSome := by
  obtain ⟨entry, isEntry, rfl, -⟩ :=
    (fits.sides direction).entry_of_places (get?_multiSlots isField)
  rw [fits.hasSlot_iff sound isEntry]
  constructor
  · rintro ⟨info, member, isOf, isKey⟩
    by_contra absent
    exact fits.key_ne_of_placeOfKey? isField (Option.not_isSome_iff_eq_none.1 absent) info member
      isOf isKey
  · intro found
    obtain ⟨place, isPlace⟩ := Option.isSome_iff_exists.1 found
    obtain ⟨info, isInfo, isOf, isKey⟩ := fits.slot_of_placeOfKey? isField isPlace
    exact ⟨info, List.mem_of_getElem? isInfo, isOf, isKey⟩

/-- A field has the keys from which its slots were made. -/
theorem Fits.hasSlot_iff_mem (sound : blueprint.Sound) (fits : node.Fits blueprint)
    {entry : Field × Role} (isEntry : entry ∈ fieldsOf direction.keyedRole blueprint.fields)
    {keys : List String} (slots : (node.slots direction).filter (SlotInfo.isOf entry.1.name) =
      (slotKeys keys).map (SlotInfo.ofField entry.1 entry.2)) :
    node.byNames.HasSlot ⟨entry.1.name, some key⟩ ↔ key ∈ keys := by
  rw [fits.hasSlot_iff sound isEntry]
  simp only [← and_assoc, ← List.mem_filter, slots]
  rw [← List.mem_filterMap, filterMap_key_slotKeys]

/-- If the node has a field with keys, an object tells what is kept for its keys. -/
def ToldBy (node : Node) (field : String) (object : Object) : Prop :=
  node.byNames.HasField field → ∃ values, node.keyedValues.get? field = some values ∧
    object.Tells (fun key => node.byNames.HasSlot ⟨field, some key⟩) values

/-- A node some of whose fields have their keys edited, and what is kept for them, so that objects
that told of these fields do so once they are edited. -/
structure EditsKeys (edited : String → Prop) [DecidablePred edited] (edit keep : Object → Object)
    (old node : Node) : Prop where
  id : old.id = node.id
  fields : ∀ field, node.byNames.HasField field → old.byNames.HasField field
  kept : ∀ field, node.keyedValues.get? field =
    (old.keyedValues.get? field).map fun values => if edited field then keep values else values
  told : ∀ field, edited field → ∀ object values,
    object.Tells (fun key => old.byNames.HasSlot ⟨field, some key⟩) values →
      (edit object).Tells (fun key => node.byNames.HasSlot ⟨field, some key⟩) (keep values)
  others : ∀ field, ¬edited field → ∀ key,
    (node.byNames.HasSlot ⟨field, some key⟩ ↔ old.byNames.HasSlot ⟨field, some key⟩)

theorem EditsKeys.toldBy {edited : String → Prop} [DecidablePred edited]
    {edit keep : Object → Object} {old : Node} (edits : EditsKeys edited edit keep old node)
    {object : Object} (told : old.ToldBy field object) :
    node.ToldBy field (if edited field then edit object else object) := by
  intro hasField
  obtain ⟨values, isKept, tells⟩ := told (edits.fields field hasField)
  refine ⟨_, by rw [edits.kept, isKept, Option.map_some], ?_⟩
  split
  · next isEdited => exact edits.told field isEdited object values tells
  · next notEdited => exact tells.congr (edits.others field notEdited)

/-- A node with the slots, the fields and the kept values of another one. -/
structure SameKeys (old node : Node) : Prop where
  id : old.id = node.id
  slots : ∀ direction, node.slots direction = old.slots direction
  multiSlots : ∀ direction, node.multiSlots direction = old.multiSlots direction
  keyedValues : node.keyedValues = old.keyedValues

namespace SameKeys

variable {old : Node} {object : Object}

theorem refl (node : Node) : node.SameKeys node := ⟨rfl, fun _ => rfl, fun _ => rfl, rfl⟩

theorem trans {middle : Node} (one : old.SameKeys middle) (other : middle.SameKeys node) :
    old.SameKeys node where
  id := one.id.trans other.id
  slots direction := (other.slots direction).trans (one.slots direction)
  multiSlots direction := (other.multiSlots direction).trans (one.multiSlots direction)
  keyedValues := other.keyedValues.trans one.keyedValues

theorem of_unlinked (same : old.unlinked = node.unlinked) : old.SameKeys node where
  id := (congrArg Node.id same :)
  slots direction := by rw [← slots_unlinked, ← same, slots_unlinked]
  multiSlots direction := by rw [← multiSlots_unlinked, ← same, multiSlots_unlinked]
  keyedValues := (congrArg Node.keyedValues same.symm :)

theorem of_parts (id : old.id = node.id) (inputs : node.inputs = old.inputs)
    (outputs : node.outputs = old.outputs)
    (multiSlots : ∀ direction, node.multiSlots direction = old.multiSlots direction)
    (keyedValues : node.keyedValues = old.keyedValues) : old.SameKeys node where
  id := id
  slots direction := by
    cases direction with
    | input => exact congrArg (List.map InputSlot.info) inputs
    | output => exact congrArg (List.map OutputSlot.info) outputs
  multiSlots := multiSlots
  keyedValues := keyedValues

theorem of_unmarked (same : old.unmarked = node.unmarked) : old.SameKeys node := by
  refine of_parts (congrArg Node.id same :) (congrArg Node.inputs same.symm :)
    (congrArg Node.outputs same.symm :) (fun direction => ?_)
    (congrArg Node.keyedValues same.symm :)
  cases direction with
  | input => exact (congrArg Node.multiInputs same.symm :)
  | output => exact (congrArg Node.multiOutputs same.symm :)

theorem reviseInput (node : Node) (place : Nat) {change : InputSlot → InputSlot}
    (info : ∀ slot, (change slot).info = slot.info) :
    node.SameKeys (node.reviseInput place change) where
  id := rfl
  slots direction := by
    cases direction with
    | input => exact map_modify_of_keeps info node.inputs place
    | output => rfl
  multiSlots direction := by cases direction <;> rfl
  keyedValues := rfl

theorem toldBy (same : old.SameKeys node) (told : old.ToldBy field object) :
    node.ToldBy field object := by
  have slots (name : SlotName) : node.byNames.HasSlot name ↔ old.byNames.HasSlot name := by
    simp only [hasSlot_byNames, same.slots]
  intro hasField
  rw [hasField_byNames] at hasField
  simp only [same.multiSlots] at hasField
  obtain ⟨values, kept, tells⟩ := told (hasField_byNames.2 hasField)
  exact ⟨values, by rw [same.keyedValues, kept], tells.congr fun key => slots _⟩

end SameKeys

end Node

namespace Graph

variable {graph after : Graph} {id : NodeId} {field key : String}

/-! ### Edits of keys -/

/-- The keys of one field of one node are edited, and objects that tell of it are to be edited
too. -/
def EditsKeys (id : NodeId) (field : String) (edit : Object → Object) (graph after : Graph) :
    Prop :=
  ∃ keep, ∀ node ∈ after.nodes, ∃ old ∈ graph.nodes,
    Node.EditsKeys (fun other => node.id = id ∧ other = field) edit keep old node

/-- A node that is changed by name and keeps other values was there before. -/
theorem exists_old {change : NamedNode → NamedNode} {keep : Node → OrderedMap String Object}
    (names : after.byNames.nodes = graph.byNames.nodes.map change)
    (rest : ∀ view, (change view).rest = view.rest)
    (keys : ∀ view direction,
      ((change view).keys direction).map Prod.fst = (view.keys direction).map Prod.fst)
    (values : after.nodes.map Node.keyedValues = graph.nodes.map keep) {node : Node}
    (member : node ∈ after.nodes) :
    ∃ old ∈ graph.nodes, old.id = node.id ∧ node.byNames = change old.byNames ∧
      node.keyedValues = keep old ∧
      ∀ field, node.byNames.HasField field → old.byNames.HasField field := by
  obtain ⟨place, isNode⟩ := List.mem_iff_getElem?.1 member
  have named := congrArg (fun nodes => nodes[place]?) names
  have valued := congrArg (fun values => values[place]?) values
  simp only [byNames, List.getElem?_map, isNode, Option.map_some, Option.map_map] at named valued
  obtain ⟨old, isOld, isNamed⟩ := Option.map_eq_some_iff.1 named.symm
  rw [isOld, Option.map_some] at valued
  refine ⟨old, List.mem_of_getElem? isOld, ?_, isNamed.symm, Option.some.inj valued, ?_⟩
  · have sameRest := (rest old.byNames).symm.trans (congrArg NamedNode.rest isNamed)
    exact (congrArg Node.id sameRest :)
  · rintro field ⟨direction, listed⟩
    rw [← isNamed, Function.comp_apply, keys] at listed
    exact ⟨direction, listed⟩

/-- What is kept for one field of one node may be changed. -/
theorem get?_keyedValues_changed {old : Node} {changed : OrderedMap String Object}
    {change : Object → Object} (isChanged : changed = old.keyedValues.modify field change)
    (other : String) :
    (if old.id = id then changed else old.keyedValues).get? other =
      (old.keyedValues.get? other).map fun values =>
        if old.id = id ∧ other = field then change values else values := by
  subst isChanged
  split
  · next same =>
    rw [OrderedMap.get?_modify]
    simp only [same, true_and]
  · next apart => simp only [apart, false_and, if_false, Option.map_id']

theorem keyedValues_modifyNode (graph : Graph) (id : NodeId) (change : Node → Node) :
    (graph.modifyNode id change).nodes.map Node.keyedValues = graph.nodes.map fun node =>
      if node.id = id then (change node).keyedValues else node.keyedValues := by
  rw [modifyNode, List.map_map]
  exact List.map_congr_left fun node _ => apply_ite Node.keyedValues _ _ _

section Edits

variable (tied : graph.Tied) (fitted : graph.Fitted)

include tied fitted

/-- A key of a field is found among its places if a slot has its name. -/
theorem hasSlot_iff_of_node? {node : Node} (isNode : graph.node? id = some node) {old : Node}
    (isOld : old ∈ graph.nodes) (same : old.id = id) {direction : Direction} {places : List Nat}
    (isField : node.multiField? field = some (direction, places)) :
    old.byNames.HasSlot ⟨field, some key⟩ ↔ (node.placeOfKey? direction places key).isSome := by
  obtain rfl := tied.eq_of_node? isNode isOld same
  obtain ⟨blueprint, sound, fits⟩ := fitted old isOld
  exact fits.hasSlot_iff_placeOfKey? sound isField

/-- The key that was added is that of a slot. -/
theorem hasSlot_of_addKey {place : Nat} (success : graph.addKey id field key = .ok (place, after))
    {node : Node} (member : node ∈ after.nodes) (same : node.id = id) :
    node.byNames.HasSlot ⟨field, some (trimKey key)⟩ := by
  have edits : Edits (fun _ => True) True graph after := edits_addKey tied success
  have tiedAfter := edits.tied tied
  obtain ⟨-, -, direction, answer⟩ := byNames_of_addKey tied fitted success
  have named := (answer direction place).2 ⟨rfl, rfl⟩
  rw [nameAt?, ← same, node?_of_mem tiedAfter.nodesAscend member, Option.bind_some] at named
  obtain ⟨info, isInfo, isName⟩ := Option.map_eq_some_iff.1 named
  exact Node.hasSlot_byNames.2 ⟨direction, info, List.mem_of_getElem? isInfo, isName⟩

/-- A node after a key was added has the slots it had before and perhaps one for the key. -/
theorem exists_old_of_addKey {place : Nat}
    (success : graph.addKey id field key = .ok (place, after)) {node : Node}
    (member : node ∈ after.nodes) :
    ∃ old ∈ graph.nodes, old.id = node.id ∧ node.keyedValues = old.keyedValues ∧
      (∀ other, node.byNames.HasField other → old.byNames.HasField other) ∧
      ∀ other wanted,
        (old.byNames.HasSlot ⟨other, some wanted⟩ → node.byNames.HasSlot ⟨other, some wanted⟩) ∧
        (node.byNames.HasSlot ⟨other, some wanted⟩ → old.byNames.HasSlot ⟨other, some wanted⟩ ∨
          node.id = id ∧ other = field ∧ wanted = trimKey key) := by
  obtain ⟨shown, hidden, -⟩ := byNames_of_addKey tied fitted success
  have values : after.nodes.map Node.keyedValues = graph.nodes.map Node.keyedValues := by
    obtain ⟨-, found, side, first, others, template, -, -, -, -, change⟩ := addKey_cases success
    obtain ⟨-, -, -, rfl⟩ | ⟨-, -, rfl⟩ := change
    all_goals
      refine (keyedValues_modifyNode graph id _).trans (List.map_congr_left fun node _ => ?_)
      cases side <;> exact ite_self _
  obtain ⟨change, gains, names⟩ : ∃ change : NamedNode → NamedNode,
      (∀ view, NamedNode.Gains field (trimKey key) view (change view)) ∧
      after.byNames.nodes =
        graph.byNames.nodes.map fun view => if view.rest.id = id then change view else view := by
    by_cases placeholder : graph.byNames.ShowsPlaceholder id field
    · exact ⟨_, NamedNode.gains_rekey _ _, congrArg Names.nodes (shown placeholder)⟩
    · exact ⟨_, NamedNode.gains_appendKey _ _, congrArg Names.nodes (hidden placeholder)⟩
  obtain ⟨old, isOld, sameId, named, kept, fields⟩ := exists_old names
    (fun view => by split; exacts [(gains view).rest, rfl])
    (fun view direction => by split; exacts [(gains view).fields direction, rfl]) values member
  refine ⟨old, isOld, sameId, kept, fields, fun other wanted => ?_⟩
  rw [named, ← sameId]
  show (_ → NamedNode.HasSlot (if old.id = id then _ else _) _) ∧
    (NamedNode.HasSlot (if old.id = id then _ else _) _ → _)
  split
  · next same =>
    refine ⟨(gains _).kept other wanted, fun present => ?_⟩
    exact ((gains _).gained other wanted present).imp_right fun isNew => ⟨same, isNew⟩
  · exact ⟨fun before => before, Or.inl⟩

/-- Adding a key adds it to the object, without a value. -/
theorem editsKeys_addKey {place : Nat} (success : graph.addKey id field key = .ok (place, after)) :
    EditsKeys id field (fun object => object.insert (trimKey key) .null) graph after := by
  refine ⟨fun values => values, fun node member => ?_⟩
  obtain ⟨old, isOld, sameId, kept, fields, slots⟩ :=
    exists_old_of_addKey tied fitted success member
  obtain ⟨named, found, direction, first, others, -, isFound, isField, isNew, -⟩ :=
    addKey_cases success
  refine ⟨old, isOld, sameId, fields, fun other => ?_, fun other isEdited object values tells => ?_,
    fun other notEdited wanted => ?_⟩
  · rw [kept]
    simp
  · obtain ⟨same, rfl⟩ := isEdited
    refine tells.insert named ?_ fun wanted => ⟨fun present => ?_, ?_⟩
    · rw [hasSlot_iff_of_node? tied fitted isFound isOld (sameId.trans same) isField, isNew]
      exact Bool.false_ne_true
    · exact ((slots other wanted).2 present).imp_right fun added => added.2.2
    · rintro (before | rfl)
      · exact (slots other wanted).1 before
      · exact hasSlot_of_addKey tied fitted success member same
  · refine ⟨fun present => ?_, (slots other wanted).1⟩
    exact ((slots other wanted).2 present).resolve_right fun added =>
      notEdited ⟨added.1, added.2.1⟩

/-- Removing a key removes it from the object. -/
theorem editsKeys_removeKey (success : graph.removeKey id field key = .ok after) :
    EditsKeys id field (fun object => object.erase key) graph after := by
  have names := congrArg Names.nodes (byNames_of_removeKey tied fitted success)
  obtain ⟨found, direction, places, place, -, -, -, -, rfl⟩ := removeKey_cases success
  have values := congrArg (List.map Node.keyedValues)
    (nodes_removeSlot tied id direction place field key)
  rw [List.map_map] at values
  refine ⟨fun values => values.erase key, fun node member => ?_⟩
  obtain ⟨old, isOld, sameId, named, kept, fields⟩ := exists_old names
    (fun view => by split <;> rfl)
    (fun view direction => by split; exacts [map_fst_changeKeys .., rfl]) values member
  have slots (name : SlotName) : node.byNames.HasSlot name ↔
      old.byNames.HasSlot name ∧ ¬(node.id = id ∧ name = ⟨field, some key⟩) := by
    rw [named, NamedNode.hasSlot_forget, ← sameId]
    show NamedNode.HasSlot (if old.id = id then _ else _) _ ↔ _
    split
    · next same => rw [NamedNode.hasSlot_removeKey, and_iff_right same]
    · next apart => rw [and_iff_left fun both => apart both.1]
  refine ⟨old, isOld, sameId, fields, fun other => ?_,
    fun other isEdited object values tells => tells.erase fun wanted => ?_,
    fun other notEdited wanted => ?_⟩
  · have erased : ((old.forget ((graph.links.filter (endsAt id direction place)).map
        Link.id)).eraseSlot direction place).keyedValues = old.keyedValues := by
      cases direction <;> rfl
    rw [kept, ← sameId, Function.comp_apply, apply_ite Node.keyedValues]
    exact get?_keyedValues_changed (by rw [Node.dropKeyedValue, erased]) other
  · rw [slots, isEdited.2]
    simp [isEdited.1]
  · rw [slots, and_iff_left]
    rintro ⟨same, sameName⟩
    exact notEdited ⟨same, congrArg SlotName.field sameName⟩

/-- Renaming a key renames it in the object. -/
theorem editsKeys_renameKey {newKey : String}
    (success : graph.renameKey id field key newKey = .ok after) :
    EditsKeys id field (fun object => object.move key (trimKey newKey)) graph after := by
  have names := congrArg Names.nodes (byNames_of_renameKey tied fitted success)
  obtain ⟨named, found, direction, places, place, isFound, isField, isPlace, same | changed⟩ :=
    renameKey_cases success
  · obtain ⟨stays, rfl⟩ := same
    refine ⟨fun values => values, fun node member => ⟨node, member, rfl, fun _ hasField => hasField,
      fun other => ?_, fun other _ object values tells => ?_, fun _ _ _ => Iff.rfl⟩⟩
    · simp
    · rw [stays, tells.ascending.move_self]
      exact tells
  · obtain ⟨-, isNew, rfl⟩ := changed
    refine ⟨fun values => values.move key (trimKey newKey), fun node member => ?_⟩
    obtain ⟨old, isOld, sameId, isNamed, kept, fields⟩ := exists_old names
      (fun view => by split <;> rfl)
      (fun view direction => by split; exacts [map_fst_changeKeys .., rfl])
      (keyedValues_modifyNode graph id _) member
    have slots (other wanted : String) : node.byNames.HasSlot ⟨other, some wanted⟩ ↔
        old.byNames.HasSlot ⟨other, some wanted⟩ ∧
            ¬(node.id = id ∧ other = field ∧ wanted = key) ∨
          node.id = id ∧ other = field ∧ wanted = trimKey newKey ∧
            old.byNames.HasSlot ⟨field, some key⟩ := by
      rw [isNamed, ← sameId]
      exact NamedNode.hasSlot_rekeyOf old.byNames id (trimKey newKey) wanted
    refine ⟨old, isOld, sameId, fields, fun other => ?_,
      fun other isEdited object values tells => ?_, fun other notEdited wanted => ?_⟩
    · rw [kept, ← sameId]
      exact get?_keyedValues_changed (by cases direction <;> rfl) other
    · obtain ⟨same, rfl⟩ := isEdited
      have isKey (wanted : String) : old.byNames.HasSlot ⟨other, some wanted⟩ ↔
          (found.placeOfKey? direction places wanted).isSome :=
        hasSlot_iff_of_node? tied fitted isFound isOld (sameId.trans same) isField
      have present := (isKey key).2 (by rw [isPlace]; rfl)
      refine tells.move present named ?_ fun wanted => ?_
      · rw [isKey, isNew]
        exact Bool.false_ne_true
      · rw [slots, or_comm]
        simp only [same, present, true_and, and_true, ne_eq]
    · rw [slots, or_iff_left fun renamed => notEdited ⟨renamed.1, renamed.2.1⟩, and_iff_left]
      exact fun edited => notEdited ⟨edited.1, edited.2.1⟩

end Edits

/-! ### Other operations -/

/-- All nodes were there before, with the same slots, fields and kept values. -/
def KeepsKeys (graph after : Graph) : Prop :=
  ∀ node ∈ after.nodes, ∃ old ∈ graph.nodes, old.SameKeys node

theorem KeepsKeys.of_subset (subset : after.nodes ⊆ graph.nodes) : graph.KeepsKeys after :=
  fun node member => ⟨node, subset member, .refl node⟩

theorem keepsKeys_of_unlinked
    (same : after.nodes.map Node.unlinked = graph.nodes.map Node.unlinked) :
    graph.KeepsKeys after := fun _ member =>
  let ⟨old, isOld, isSame⟩ := exists_unlinked same member
  ⟨old, isOld, .of_unlinked isSame⟩

theorem keepsKeys_of_unmarked (same : after.unmarked = graph.unmarked) : graph.KeepsKeys after := by
  intro node member
  have listed : node.unmarked ∈ after.unmarked.nodes := List.mem_map_of_mem member
  rw [same] at listed
  obtain ⟨old, isOld, isSame⟩ := List.mem_map.1 listed
  exact ⟨old, isOld, .of_unmarked isSame⟩

theorem keepsKeys_getD {result : Option Graph}
    (each : ∀ after, result = some after → graph.KeepsKeys after) :
    graph.KeepsKeys (result.getD graph) := by
  cases result with
  | none => exact .of_subset fun _ member => member
  | some after => exact each after rfl

theorem keepsKeys_map_getD {Answer : Type} {result : Option (Answer × Graph)}
    (each : ∀ answer after, result = some (answer, after) → graph.KeepsKeys after) :
    graph.KeepsKeys ((result.map Prod.snd).getD graph) := by
  refine keepsKeys_getD fun after success => ?_
  obtain ⟨pair, isPair, rfl⟩ := Option.map_eq_some_iff.1 success
  exact each pair.1 pair.2 isPair

theorem keepsKeys_modifyNode (graph : Graph) (id : NodeId) {change : Node → Node}
    (keeps : ∀ node : Node, node.SameKeys (change node)) :
    graph.KeepsKeys (graph.modifyNode id change) := by
  intro node member
  obtain ⟨old, isOld, rfl⟩ := List.mem_map.1 member
  refine ⟨old, isOld, ?_⟩
  split
  · exact keeps old
  · exact .refl old

theorem keepsKeys_removeNode {node : Node} (success : graph.removeNode id = some (node, after)) :
    graph.KeepsKeys after := by
  obtain ⟨-, rfl⟩ := removeNode_cases success
  exact fun other member =>
    keepsKeys_of_unlinked (unlinked_dropLinks _ graph) other (List.mem_of_mem_filter member)

theorem keepsKeys_connect {origin target : NodeId} {originSlot targetSlot : Nat} {link : LinkId}
    (success : graph.connect origin originSlot target targetSlot = .ok (link, after)) :
    graph.KeepsKeys after := by
  obtain ⟨isAdded, -⟩ := connect_cases success
  obtain rfl : after = _ := congrArg Prod.snd isAdded
  exact keepsKeys_of_unlinked (unlinked_addLink graph ..)

theorem keepsKeys_disconnect {gone : LinkId} {link : Link}
    (success : graph.disconnect gone = some (link, after)) : graph.KeepsKeys after := by
  obtain ⟨-, rfl⟩ := disconnect_cases success
  exact keepsKeys_of_unlinked (unlinked_dropLink graph link)

theorem keepsKeys_setInput {slot : Nat} {value : Json}
    (success : graph.setInput id slot value = some after) : graph.KeepsKeys after := by
  obtain ⟨-, rfl⟩ := setInput_cases success
  exact keepsKeys_modifyNode graph id fun node => .reviseInput node slot fun _ => rfl

theorem keepsKeys_setConstant {value : Json}
    (success : graph.setConstant id field value = some after) : graph.KeepsKeys after := by
  obtain ⟨-, rfl⟩ := setConstant_cases success
  exact keepsKeys_modifyNode graph id fun _ => .of_parts rfl rfl rfl (by rintro (_ | _) <;> rfl) rfl

theorem keepsKeys_setPrimitive {value : Json} (success : graph.setPrimitive id value = some after) :
    graph.KeepsKeys after := keepsKeys_setConstant (setPrimitive_cases success).2

theorem keepsKeys_setPosition {position : Point}
    (success : graph.setPosition id position = some after) : graph.KeepsKeys after := by
  obtain ⟨-, rfl⟩ := setPosition_cases success
  exact keepsKeys_modifyNode graph id fun _ => .of_parts rfl rfl rfl (by rintro (_ | _) <;> rfl) rfl

theorem keepsKeys_setPreviewOnly {previewOnly : Bool}
    (success : graph.setPreviewOnly id previewOnly = some after) : graph.KeepsKeys after := by
  obtain ⟨-, rfl⟩ := setPreviewOnly_cases success
  exact keepsKeys_modifyNode graph id fun _ => .of_parts rfl rfl rfl (by rintro (_ | _) <;> rfl) rfl

end Graph

end Workflow
