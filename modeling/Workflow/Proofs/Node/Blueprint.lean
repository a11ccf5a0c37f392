/-
This file says when a node still fits what it was made from.

A blueprint lists the fields with their roles, the names of the constants and the
defaults. The node may have other keys, links, constants and values than a fresh
one, but its slots are those of the fields, an input that was not edited holds the
default, and it has a note wherever a fresh node would have one.
-/

import Workflow.Document.Import
import Workflow.Proofs.Node.Side

namespace Workflow

open Text

/-- What a node is made from. -/
structure Blueprint where
  modelRef : String
  fields : List (Field × Role)
  /-- The names of the constants, in order. -/
  constants : List String
  default? : String → Option Default

namespace Blueprint

/-- The blueprint of some fields of a model. -/
def ofFields (modelRef : String) (model : Model) (fields : List (Field × Role)) : Blueprint where
  modelRef := modelRef
  fields := fields
  constants := (fieldsOf .constant fields).map fun entry => entry.1.name
  default? := model.default?

/-- The blueprint of nodes of a model. -/
def ofModel (modelRef : String) (model : Model) : Blueprint :=
  ofFields modelRef model model.fieldsWithRoles

/-- The blueprint of primitive nodes. -/
def ofKind (kind : NativeKind) : Blueprint where
  modelRef := kind.primitiveTag
  fields := [(Field.ofRaw primitiveValueField kind.rawType, .output)]
  constants := [primitiveValueField]
  default? := fun _ => none

/-- Names of fields are words and tell the fields apart; types are what their texts are read as. -/
structure Sound (blueprint : Blueprint) : Prop where
  distinct : (blueprint.fields.map fun entry => entry.1.name).Nodup
  dotless : ∀ entry ∈ blueprint.fields, '.' ∉ entry.1.name.toList
  typed : ∀ entry ∈ blueprint.fields, entry.1.type = TypeExpr.parse entry.1.rawType

end Blueprint

/-- The native value that the input of a field starts with. -/
def Field.native? (field : Field) (start : Option Default) : Option NativeValue :=
  (NativeKind.ofType field.type).map fun kind =>
    { kind := kind
      value := (start.map Default.start).getD .null
      optional := field.type.isOptional
      explicit := false }

/-- The native value after an edit. -/
def NativeValue.edited (value : Json) (native : NativeValue) : NativeValue :=
  { native with value := value, explicit := true }

/-- What a native value may have become: an edit changes the value only, and there is none to edit
where there was none. -/
def Edited (before after : Option NativeValue) : Prop :=
  after = before ∨ ∃ value, after = before.map (NativeValue.edited value)

theorem Edited.trans {first second third : Option NativeValue} (one : Edited first second)
    (other : Edited second third) : Edited first third := by
  obtain rfl | ⟨value, rfl⟩ := other
  · exact one
  · refine Or.inr ⟨value, ?_⟩
    obtain rfl | ⟨earlier, rfl⟩ := one
    · rfl
    · rw [Option.map_map]
      rfl

theorem Edited.isSome_eq {before after : Option NativeValue} (edited : Edited before after) :
    after.isSome = before.isSome := by
  obtain rfl | ⟨value, rfl⟩ := edited
  · rfl
  · exact Option.isSome_map

/-- The native value of an input goes back to the default of its field; inputs with keys have
none. -/
structure InputSlot.Fits (blueprint : Blueprint) (slot : InputSlot) : Prop where
  keyed : slot.info.isMulti = true → slot.native = none
  plain : slot.info.isMulti = false → ∀ entry ∈ fieldsOf .input blueprint.fields,
    entry.1.name = slot.info.field →
    Edited (entry.1.native? (blueprint.default? entry.1.name)) slot.native

/-- A node that was made from a blueprint, and perhaps edited since. -/
structure Node.Fits (blueprint : Blueprint) (node : Node) : Prop where
  modelRef : node.modelRef = blueprint.modelRef
  sides : ∀ direction,
    Side blueprint.fields direction (node.slots direction) (node.multiSlots direction)
  natives : ∀ slot ∈ node.inputs, slot.Fits blueprint
  notes : node.annotations.Follows
    ((fieldsOf .note blueprint.fields).map fun entry => entry.1.name)
  minted : ∀ entry ∈ fieldsOf .note blueprint.fields, ∀ seed other place,
    (Node.annotationStart seed other place (blueprint.default? entry.1.name)).isSome →
    (node.annotations.get? entry.1.name).isSome
  constants : node.constants.keys = blueprint.constants

/-- The constant that tells the type of the node in documents is the default. -/
def Node.Tagged (blueprint : Blueprint) (node : Node) : Prop :=
  ∀ entry ∈ fieldsOf .constant blueprint.fields, entry.1.name = typeTagField →
    node.constants.get? typeTagField =
      some (((blueprint.default? typeTagField).map Default.start).getD .null)

/-! ### Nodes retouched -/

/-- A node with the same slots, up to links and edits of native values. -/
structure Node.Retouches (before after : Node) : Prop where
  modelRef : after.modelRef = before.modelRef
  slots : ∀ direction, after.slots direction = before.slots direction
  multiSlots : ∀ direction, after.multiSlots direction = before.multiSlots direction
  inputs : ∀ slot ∈ after.inputs, ∃ same ∈ before.inputs,
    slot.info = same.info ∧ Edited same.native slot.native
  annotations : after.annotations = before.annotations
  constants : after.constants.keys = before.constants.keys

theorem InputSlot.Fits.edited {blueprint : Blueprint} {before after : InputSlot}
    (fits : before.Fits blueprint) (isMulti : after.info.isMulti = before.info.isMulti)
    (field : after.info.field = before.info.field) (edit : Edited before.native after.native) :
    after.Fits blueprint where
  keyed keyed := by
    obtain same | ⟨value, same⟩ := edit
    · exact same.trans (fits.keyed (isMulti ▸ keyed))
    · rw [same, fits.keyed (isMulti ▸ keyed)]
      rfl
  plain plain entry member name :=
    (fits.plain (isMulti ▸ plain) entry member (name.trans field)).trans edit

namespace Node

/-- Changing one input in all but its slot information, where a native value may be edited. -/
theorem retouches_reviseInput (node : Node) (place : Nat) {change : InputSlot → InputSlot}
    (info : ∀ slot, (change slot).info = slot.info)
    (edit : ∀ slot, Edited slot.native (change slot).native) :
    node.Retouches { node with inputs := node.inputs.modify place change } where
  modelRef := rfl
  slots direction := by
    cases direction with
    | input => exact map_modify_of_keeps info node.inputs place
    | output => rfl
  multiSlots direction := by cases direction <;> rfl
  inputs slot member := by
    obtain ⟨same, isInput, rfl | rfl⟩ := mem_modify member
    · exact ⟨slot, isInput, rfl, Or.inl rfl⟩
    · exact ⟨same, isInput, info same, edit same⟩
  annotations := rfl
  constants := rfl

/-- The node without its links. -/
def unlinked (node : Node) : Node :=
  { node with
    inputs := node.inputs.map fun slot => { slot with link := none }
    outputs := node.outputs.map fun slot => { slot with links := [] } }

theorem slots_unlinked (node : Node) (direction : Direction) :
    node.unlinked.slots direction = node.slots direction := by
  cases direction <;> simp [unlinked, slots]

theorem multiSlots_unlinked (node : Node) (direction : Direction) :
    node.unlinked.multiSlots direction = node.multiSlots direction := by
  cases direction <;> rfl

/-- Nodes that differ in links only. -/
theorem Retouches.of_unlinked {before after : Node} (same : after.unlinked = before.unlinked) :
    before.Retouches after where
  modelRef := (congrArg Node.modelRef same :)
  slots direction := by
    rw [← slots_unlinked after, same, slots_unlinked]
  multiSlots direction := by
    rw [← multiSlots_unlinked after, same, multiSlots_unlinked]
  inputs slot member := by
    have listed : { slot with link := none } ∈ before.unlinked.inputs := by
      rw [← same]
      exact List.mem_map_of_mem member
    obtain ⟨other, isInput, isSame⟩ := List.mem_map.1 listed
    exact ⟨other, isInput, (congrArg InputSlot.info isSame.symm :),
      Or.inl (congrArg InputSlot.native isSame.symm :)⟩
  annotations := (congrArg Node.annotations same :)
  constants := (congrArg (fun node => node.constants.keys) same :)

theorem Retouches.fits {blueprint : Blueprint} {before after : Node}
    (retouches : before.Retouches after) (fits : before.Fits blueprint) :
    after.Fits blueprint where
  modelRef := retouches.modelRef.trans fits.modelRef
  sides direction := by
    rw [retouches.slots, retouches.multiSlots]
    exact fits.sides direction
  natives slot member := by
    obtain ⟨same, isInput, info, edit⟩ := retouches.inputs slot member
    exact (fits.natives same isInput).edited (by rw [info]) (by rw [info]) edit
  notes := by
    rw [retouches.annotations]
    exact fits.notes
  minted := by
    rw [retouches.annotations]
    exact fits.minted
  constants := retouches.constants.trans fits.constants

/-! ### Slots of fields with keys -/

theorem get?_multiSlots {node : Node} {field : String} {direction : Direction}
    {places : List Nat} (found : node.multiField? field = some (direction, places)) :
    (node.multiSlots direction).get? field = some places := by
  rw [multiField?] at found
  split at found
  · next isInput =>
    cases found
    exact isInput
  · obtain ⟨others, isOutput, same⟩ := Option.map_eq_some_iff.1 found
    cases same
    exact isOutput

theorem multiField?_congr {before after : Node}
    (same : ∀ direction, after.multiSlots direction = before.multiSlots direction)
    (field : String) : after.multiField? field = before.multiField? field := by
  rw [multiField?, multiField?, show after.multiInputs = before.multiInputs from same .input,
    show after.multiOutputs = before.multiOutputs from same .output]

/-- The places of a field with keys are those of its slots. -/
theorem Fits.places {blueprint : Blueprint} {node : Node} (fits : node.Fits blueprint)
    {field : String} {direction : Direction} {places : List Nat}
    (found : node.multiField? field = some (direction, places)) :
    places = (node.slots direction).findIdxs (SlotInfo.isOf field) := by
  obtain ⟨-, -, -, same⟩ := (fits.sides direction).entry_of_places (get?_multiSlots found)
  exact same

/-- The slot at a place of a field with keys. -/
theorem Fits.slot_of_place {blueprint : Blueprint} {node : Node} (fits : node.Fits blueprint)
    {field : String} {direction : Direction} {places : List Nat}
    (found : node.multiField? field = some (direction, places)) {place : Nat}
    (member : place ∈ places) :
    ∃ info, (node.slots direction)[place]? = some info ∧ info.isOf field = true := by
  rw [fits.places found] at member
  exact getElem?_of_mem_findIdxs member

theorem Fits.length_places {blueprint : Blueprint} {node : Node} (fits : node.Fits blueprint)
    {field : String} {direction : Direction} {places : List Nat}
    (found : node.multiField? field = some (direction, places)) :
    places.length = ((node.slots direction).filter (SlotInfo.isOf field)).length := by
  rw [fits.places found, List.length_findIdxs, List.countP_eq_length_filter]

theorem key_of_placeOfKey? {node : Node} {direction : Direction} {places : List Nat}
    {key : String} {place : Nat} (found : node.placeOfKey? direction places key = some place) :
    place ∈ places ∧ ∃ info, (node.slots direction)[place]? = some info ∧ info.key = some key := by
  refine ⟨List.mem_of_find?_eq_some found, ?_⟩
  have accepted := List.find?_some found
  rw [beq_iff_eq, keyAt?, Option.map_eq_some_iff] at accepted
  exact accepted

/-- The slot at the place of a key of a field. -/
theorem Fits.slot_of_placeOfKey? {blueprint : Blueprint} {node : Node} (fits : node.Fits blueprint)
    {field key : String} {direction : Direction} {places : List Nat} {place : Nat}
    (found : node.multiField? field = some (direction, places))
    (isPlace : node.placeOfKey? direction places key = some place) :
    ∃ info, (node.slots direction)[place]? = some info ∧ info.isOf field = true ∧
      info.key = some key := by
  obtain ⟨member, info, isSlot, isKey⟩ := key_of_placeOfKey? isPlace
  obtain ⟨same, isSame, isOf⟩ := fits.slot_of_place found member
  obtain rfl := Option.some.inj (isSlot.symm.trans isSame)
  exact ⟨info, isSlot, isOf, isKey⟩

/-- If no place of a field is found for a key, no slot of the field has the key. -/
theorem Fits.key_ne_of_placeOfKey? {blueprint : Blueprint} {node : Node}
    (fits : node.Fits blueprint) {field key : String} {direction : Direction} {places : List Nat}
    (found : node.multiField? field = some (direction, places))
    (absent : node.placeOfKey? direction places key = none) :
    ∀ info ∈ node.slots direction, info.isOf field = true → info.key ≠ some key := by
  intro info member isOf isKey
  obtain ⟨place, isSlot⟩ := List.mem_iff_getElem?.1 member
  rw [fits.places found] at absent
  have refused := List.find?_eq_none.1 absent place (mem_findIdxs_of_getElem? isSlot isOf)
  rw [keyAt?, isSlot, Option.map_some, isKey] at refused
  simp at refused

theorem slots_rekey (node : Node) (side direction : Direction) (place : Nat) (key : String) :
    (node.rekey side place key).slots direction =
      if direction = side then (node.slots direction).modify place (SlotInfo.withKey key)
      else node.slots direction := by
  cases side <;> cases direction
  · exact map_modify InputSlot.info (·.rekey key) (SlotInfo.withKey key) (fun _ => rfl)
      node.inputs place
  · rfl
  · rfl
  · exact map_modify OutputSlot.info (·.rekey key) (SlotInfo.withKey key) (fun _ => rfl)
      node.outputs place

theorem multiSlots_rekey (node : Node) (side direction : Direction) (place : Nat) (key : String) :
    (node.rekey side place key).multiSlots direction = node.multiSlots direction := by
  cases side <;> cases direction <;> rfl

theorem slots_appendSlot (node : Node) (side direction : Direction) (field : String)
    (info : SlotInfo) :
    (node.appendSlot side field info).slots direction =
      if direction = side then node.slots direction ++ [info] else node.slots direction := by
  cases side <;> cases direction <;> simp [slots, appendSlot]

theorem multiSlots_appendSlot (node : Node) (side direction : Direction) (field : String)
    (info : SlotInfo) :
    (node.appendSlot side field info).multiSlots direction =
      if direction = side then
        (node.multiSlots direction).modify field (· ++ [(node.slots direction).length])
      else node.multiSlots direction := by
  cases side <;> cases direction <;> simp [multiSlots, slots, appendSlot]

theorem slots_eraseSlot (node : Node) (side direction : Direction) (place : Nat) :
    (node.eraseSlot side place).slots direction =
      if direction = side then (node.slots direction).eraseIdx place
      else node.slots direction := by
  cases side <;> cases direction <;> simp [slots, eraseSlot, List.eraseIdx_map]

theorem multiSlots_eraseSlot (node : Node) (side direction : Direction) (place : Nat) :
    (node.eraseSlot side place).multiSlots direction =
      if direction = side then (node.multiSlots direction).mapValues (shiftPlaces place)
      else node.multiSlots direction := by
  cases side <;> cases direction <;> rfl

section Keys

variable {blueprint : Blueprint} {node : Node} {field key : String} {direction : Direction}
  {place : Nat}

/-- A slot of a field can be given a key that the field does not have. -/
theorem Fits.rekey (fits : node.Fits blueprint) {info : SlotInfo}
    (isSlot : (node.slots direction)[place]? = some info) (isOf : info.isOf field = true)
    (named : key ≠ "")
    (fresh : ∀ other ∈ node.slots direction, other.isOf field = true → other.key ≠ some key) :
    (node.rekey direction place key).Fits blueprint where
  modelRef := by cases direction <;> exact fits.modelRef
  sides side := by
    rw [slots_rekey, multiSlots_rekey]
    by_cases same : side = direction
    · rw [if_pos same, same]
      exact (fits.sides direction).rename isSlot isOf named fresh
    · rw [if_neg same]
      exact fits.sides side
  natives slot member := by
    cases direction with
    | output => exact fits.natives slot member
    | input =>
      obtain ⟨same, isInput, rfl | rfl⟩ := mem_modify member
      · exact fits.natives slot isInput
      · exact (fits.natives same isInput).edited rfl rfl (Or.inl rfl)
  notes := by cases direction <;> exact fits.notes
  minted := by cases direction <;> exact fits.minted
  constants := by cases direction <;> exact fits.constants

/-- A field whose slots have keys can be given a slot for a key that it does not have. -/
theorem Fits.appendSlot (fits : node.Fits blueprint) {template : SlotInfo}
    (member : template ∈ node.slots direction) (isOf : template.isOf field = true)
    (notPlaceholder : template.key.isSome = true ∨
      1 < ((node.slots direction).filter (SlotInfo.isOf field)).length)
    (named : key ≠ "")
    (fresh : ∀ other ∈ node.slots direction, other.isOf field = true → other.key ≠ some key) :
    (node.appendSlot direction field (template.withKey key)).Fits blueprint where
  modelRef := by cases direction <;> exact fits.modelRef
  sides side := by
    rw [slots_appendSlot, multiSlots_appendSlot]
    by_cases same : side = direction
    · rw [if_pos same, if_pos same, same]
      exact (fits.sides direction).append member isOf notPlaceholder named fresh
    · rw [if_neg same, if_neg same]
      exact fits.sides side
  natives slot isInput := by
    cases direction with
    | output => exact fits.natives slot isInput
    | input =>
      rcases List.mem_append.1 isInput with old | added
      · exact fits.natives slot old
      · rw [List.mem_singleton.1 added]
        refine ⟨fun _ => rfl, fun plain => ?_⟩
        cases (SlotInfo.isOf_iff.1 isOf).1.symm.trans plain
  notes := by cases direction <;> exact fits.notes
  minted := by cases direction <;> exact fits.minted
  constants := by cases direction <;> exact fits.constants

/-- A slot of a field with another one can be removed. -/
theorem Fits.eraseSlot (fits : node.Fits blueprint) {info : SlotInfo}
    (isSlot : (node.slots direction)[place]? = some info) (isOf : info.isOf field = true)
    (several : 1 < ((node.slots direction).filter (SlotInfo.isOf field)).length) :
    (node.eraseSlot direction place).Fits blueprint where
  modelRef := by cases direction <;> exact fits.modelRef
  sides side := by
    rw [slots_eraseSlot, multiSlots_eraseSlot]
    by_cases same : side = direction
    · rw [if_pos same, if_pos same, same]
      exact (fits.sides direction).erase isSlot isOf several
    · rw [if_neg same, if_neg same]
      exact fits.sides side
  natives slot member := by
    cases direction with
    | output => exact fits.natives slot member
    | input => exact fits.natives slot (List.mem_of_mem_eraseIdx member)
  notes := by cases direction <;> exact fits.notes
  minted := by cases direction <;> exact fits.minted
  constants := by cases direction <;> exact fits.constants

end Keys

end Node

end Workflow
