/-
This file proves what the places that nodes remember say about their slots.

A node keeps its slots in two lists, and beside them the places of the slots of every
field with keys and the places of its native values. In every graph that operations
lead to these agree: each slot with or without a key is where the node looks for it.
The edits of keys go to slots by such places, so none of them misses.
-/

import Workflow.Proofs.Graph.KeyEdits

namespace Workflow

namespace Node

/-- The places that a node remembers for its fields with keys on one side are those of their
slots. -/
structure Indexes (node : Node) (direction : Direction) : Prop where
  fields : (node.multiSlots direction).keys.Nodup
  nonempty : ∀ entry ∈ (node.multiSlots direction).entries, entry.2 ≠ []
  ascending : ∀ entry ∈ (node.multiSlots direction).entries, entry.2.Pairwise (· < ·)
  /-- In particular every place is in range. -/
  places : ∀ entry ∈ (node.multiSlots direction).entries, ∀ place, place ∈ entry.2 ↔
    ∃ info, (node.slots direction)[place]? = some info ∧ info.isMulti = true ∧
      info.field = entry.1
  owned : ∀ place info, (node.slots direction)[place]? = some info → info.isMulti = true →
    ∃! entry, entry ∈ (node.multiSlots direction).entries ∧ place ∈ entry.2
  /-- The slots of a field are its placeholder, or have its keys. -/
  keys : ∀ entry ∈ (node.multiSlots direction).entries, ∃ keys : List String,
    keys.Nodup ∧ "" ∉ keys ∧ entry.2.length = max 1 keys.length ∧
      entry.2.map (node.keyAt? direction) = (slotKeys keys).map some
  names : ((node.slots direction).map SlotInfo.internalName).Nodup

/-- All that a node keeps about its slots agrees. -/
structure Indexed (node : Node) : Prop where
  sides : ∀ direction, node.Indexes direction
  /-- Native values are at the inputs without keys whose type is native. -/
  natives : node.nativeInputs.map Prod.fst = node.inputs.findIdxs fun slot =>
    !slot.info.isMulti && (NativeKind.ofType (TypeExpr.parse slot.rawType)).isSome
  inputs : ∀ slot ∈ node.inputs,
    slot.name = slot.info.displayName ∧ slot.rawType = slot.info.rawType
  outputs : ∀ slot ∈ node.outputs,
    slot.name = slot.info.displayName ∧ slot.rawType = slot.info.rawType

variable {blueprint : Blueprint} {node : Node}

/-! ### Fields with keys -/

/-- The places remembered under a field are those of the slots of one field of the model. -/
theorem Fits.eq_of_mem_multiSlots (fits : node.Fits blueprint) {direction : Direction}
    {entry : String × List Nat} (member : entry ∈ (node.multiSlots direction).entries) :
    entry.2 = (node.slots direction).findIdxs (SlotInfo.isOf entry.1) ∧
      ∃ owner ∈ fieldsOf direction.keyedRole blueprint.fields, owner.1.name = entry.1 := by
  rw [(fits.sides direction).places] at member
  obtain ⟨owner, isOwner, rfl⟩ := List.mem_map.1 member
  exact ⟨rfl, owner, isOwner, rfl⟩

theorem mem_findIdxs_isOf {infos : List SlotInfo} {field : String} {place : Nat} :
    place ∈ infos.findIdxs (SlotInfo.isOf field) ↔
      ∃ info, infos[place]? = some info ∧ info.isMulti = true ∧ info.field = field := by
  constructor
  · intro member
    obtain ⟨info, isSlot, isOf⟩ := getElem?_of_mem_findIdxs member
    exact ⟨info, isSlot, SlotInfo.isOf_iff.1 isOf⟩
  · rintro ⟨info, isSlot, isOf⟩
    exact mem_findIdxs_of_getElem? isSlot (SlotInfo.isOf_iff.2 isOf)

/-- The keys at the places of a field are those of its slots. -/
theorem map_keyAt?_findIdxs (node : Node) (direction : Direction) (field : String) :
    ((node.slots direction).findIdxs (SlotInfo.isOf field)).map (node.keyAt? direction) =
      ((node.slots direction).filter (SlotInfo.isOf field)).map fun info => some info.key := by
  have split : node.keyAt? direction =
      (Option.map SlotInfo.key) ∘ fun place => (node.slots direction)[place]? := rfl
  rw [split, ← List.map_map, getElem?_findIdxs, List.map_map]
  rfl

theorem length_slotKeys (keys : List String) : (slotKeys keys).length = max 1 keys.length := by
  cases keys with
  | nil => rfl
  | cons key rest =>
    rw [slotKeys, if_neg (by simp), List.length_map, List.length_cons]
    omega

theorem Fits.indexes (sound : blueprint.Sound) (fits : node.Fits blueprint)
    (direction : Direction) : node.Indexes direction where
  fields := by
    have names : (node.multiSlots direction).keys =
        (fieldsOf direction.keyedRole blueprint.fields).map fun entry => entry.1.name := by
      rw [OrderedMap.keys, (fits.sides direction).places, List.map_map]
      rfl
    rw [names]
    exact sound.distinct.sublist (List.filter_sublist.map _)
  nonempty entry member := by
    obtain ⟨places, owner, isOwner, field⟩ := fits.eq_of_mem_multiSlots member
    obtain ⟨info, isSlot, isOf⟩ := (fits.sides direction).exists_slot isOwner
    obtain ⟨place, atPlace⟩ := List.mem_iff_getElem?.1 isSlot
    rw [places, ← field]
    exact List.ne_nil_of_mem (mem_findIdxs_of_getElem? atPlace isOf)
  ascending entry member := by
    rw [(fits.eq_of_mem_multiSlots member).1]
    exact List.pairwise_findIdxs
  places entry member place := by
    rw [(fits.eq_of_mem_multiSlots member).1]
    exact mem_findIdxs_isOf
  owned place info isSlot isMulti := by
    obtain ⟨owner, isOwner, field⟩ :=
      (fits.sides direction).owned info (List.mem_of_getElem? isSlot) isMulti
    refine ⟨(owner.1.name, (node.slots direction).findIdxs (SlotInfo.isOf owner.1.name)),
      ⟨?_, mem_findIdxs_isOf.2 ⟨info, isSlot, isMulti, field⟩⟩, ?_⟩
    · rw [(fits.sides direction).places]
      exact List.mem_map_of_mem isOwner
    · rintro ⟨name, places⟩ ⟨member, listed⟩
      have same : places = (node.slots direction).findIdxs (SlotInfo.isOf name) :=
        (fits.eq_of_mem_multiSlots member).1
      rw [same] at listed ⊢
      obtain ⟨other, isOther, -, isName⟩ := mem_findIdxs_isOf.1 listed
      cases isSlot.symm.trans isOther
      rw [← field, isName]
  keys entry member := by
    obtain ⟨places, owner, isOwner, field⟩ := fits.eq_of_mem_multiSlots member
    obtain ⟨keys, distinct, named, slots⟩ := (fits.sides direction).keyed owner isOwner
    have same : entry.2.map (node.keyAt? direction) = (slotKeys keys).map some := by
      rw [places, map_keyAt?_findIdxs, ← field, slots, List.map_map]
      rfl
    refine ⟨keys, distinct, named, ?_, same⟩
    rw [← length_slotKeys, ← List.length_map (node.keyAt? direction), same, List.length_map]
  names := by
    refine List.pairwise_map.2 (List.pairwise_iff_getElem.2 ?_)
    intro first second inRange inRange' less same
    exact Nat.ne_of_lt less (fits.place_eq_of_internalName sound
      (List.getElem?_eq_getElem inRange) (List.getElem?_eq_getElem inRange') same).2

/-! ### Native values -/

/-- An input holds a native value if it has no keys and its type is native. -/
theorem Fits.isSome_native (sound : blueprint.Sound) (fits : node.Fits blueprint)
    {slot : InputSlot} (member : slot ∈ node.inputs) :
    slot.native.isSome =
      (!slot.info.isMulti && (NativeKind.ofType (TypeExpr.parse slot.rawType)).isSome) := by
  cases isMulti : slot.info.isMulti with
  | true =>
    rw [(fits.natives slot member).keyed isMulti]
    rfl
  | false =>
    obtain ⟨entry, inFields, field, role, key, info⟩ :=
      (fits.sides .input).exists_entry (List.mem_map_of_mem member)
    rw [isMulti] at role
    have edited := (fits.natives slot member).plain isMulti entry
      (mem_fieldsOf.2 ⟨inFields, role⟩) field
    have type : slot.rawType = entry.1.rawType := by
      rw [slot.rawType_eq, info, SlotInfo.ofField, role]
      rfl
    rw [edited.isSome_eq, Field.native?, Option.isSome_map, sound.typed entry inFields, type]
    rfl

theorem Fits.indexed (sound : blueprint.Sound) (fits : node.Fits blueprint) : node.Indexed where
  sides := fits.indexes sound
  natives := by
    refine (map_fst_heldFrom InputSlot.native 0 node.inputs).trans ?_
    rw [List.findIdxs_eq_filterMap_zipIdx, List.findIdxs_eq_filterMap_zipIdx]
    refine List.filterMap_congr fun pair member => ?_
    rw [fits.isSome_native sound (List.fst_mem_of_mem_zipIdx member)]
  inputs slot _ := ⟨slot.name_eq, slot.rawType_eq⟩
  outputs slot _ := ⟨slot.name_eq, slot.rawType_eq⟩

end Node

namespace Graph

/-- The edits of keys find a slot at every place they go to: the first one of a field, whose slot a
new key takes over or is like, and the one of a key, also once the links of its slot are gone. -/
structure KeyEditsReach (graph : Graph) : Prop where
  first : ∀ id field node direction places,
    graph.multiField id field = .ok (node, direction, places) →
    ∃ place info, places.head? = some place ∧ (node.slots direction)[place]? = some info
  key : ∀ id field node direction places key place,
    graph.multiField id field = .ok (node, direction, places) →
    node.placeOfKey? direction places key = some place →
    (∃ info, (node.slots direction)[place]? = some info) ∧
      ∃ severed info, ((graph.links.filter (endsAt id direction place)).foldl dropLink graph).node?
        id = some severed ∧ (severed.slots direction)[place]? = some info

theorem Fitted.keyEditsReach {graph : Graph} (fitted : graph.Fitted) (tied : graph.Tied) :
    graph.KeyEditsReach where
  first id field node direction places found := by
    obtain ⟨isNode, isField⟩ := multiField_cases found
    obtain ⟨blueprint, sound, fits⟩ := fitted node (mem_of_node? isNode).1
    have nonempty := (fits.indexes sound direction).nonempty _
      (OrderedMap.mem_entries_of_get? (Node.get?_multiSlots isField))
    obtain ⟨place, others, rfl⟩ := List.exists_cons_of_ne_nil nonempty
    obtain ⟨info, isSlot, -⟩ := fits.slot_of_place isField List.mem_cons_self
    exact ⟨place, info, rfl, isSlot⟩
  key id field node direction places key place found isPlace := by
    obtain ⟨isNode, -⟩ := multiField_cases found
    obtain ⟨-, info, isSlot, -⟩ := Node.key_of_placeOfKey? isPlace
    have severed := node?_dropAccepted tied (endsAt id direction place) id
    rw [isNode] at severed
    refine ⟨⟨info, isSlot⟩, _, info, severed, ?_⟩
    rw [Node.slots_forget]
    exact isSlot

/-- After any operations the places that nodes remember are those of their slots, and the edits of
keys find a slot at every place they go to. Removing a key moves native values with their inputs. -/
theorem slotPlaces_run (operations : List Operation) :
    (∀ node ∈ (run operations).nodes, node.Indexed) ∧ (run operations).KeyEditsReach ∧
      ∀ id field key after, (run operations).removeKey id field key = .ok after →
        (run operations).MovesNatives id field key after := by
  have tied := tied_run operations
  have fitted := fitted_run operations
  refine ⟨fun node member => ?_, fitted.keyEditsReach tied,
    fun id field key after success => movesNatives_of_removeKey tied fitted success⟩
  obtain ⟨blueprint, sound, fits⟩ := fitted node member
  exact fits.indexed sound

end Graph

end Workflow
