/-
This file proves that changing, erasing and adding a slot of a node is changing,
erasing and adding its name.

A slot is found where its name is, and no other slot of the node has the name; so
what is done at its place is done to the name alone.
-/

import Workflow.Proofs.Graph.Names

namespace Workflow

/-! ### Nodes by names -/

namespace Node

variable {blueprint : Blueprint} {node : Node} {direction : Direction} {place : Nat}
  {info : SlotInfo} {field key : String}

theorem map_info_namedSlots (node : Node) (direction : Direction) :
    (node.namedSlots direction).map NamedSlot.info = node.slots direction := by
  cases direction <;> simp only [namedSlots, slots, List.map_map] <;> rfl

theorem getElem?_slots {slot : NamedSlot}
    (found : (node.namedSlots direction)[place]? = some slot) :
    (node.slots direction)[place]? = some slot.info := by
  rw [← map_info_namedSlots, List.getElem?_map, found]
  rfl

/-- The keys of fields are those of their slots. -/
theorem Fits.keysByField_eq (fits : node.Fits blueprint) (direction : Direction) :
    node.keysByField direction = (fieldsOf direction.keyedRole blueprint.fields).map fun entry =>
      (entry.1.name, ((node.slots direction).filter (SlotInfo.isOf entry.1.name)).map
        SlotInfo.key) := by
  rw [keysByField, (fits.sides direction).places, List.map_map]
  refine List.map_congr_left fun entry _ => congrArg (Prod.mk entry.1.name) ?_
  have found := congrArg (List.map fun found : Option SlotInfo => (found.map SlotInfo.key).join)
    (getElem?_findIdxs (SlotInfo.isOf entry.1.name) (node.slots direction))
  rw [List.map_map, List.map_map] at found
  exact found

/-- If the slots of one field change their keys and those of other fields do not, so do the keys
of fields. -/
theorem Fits.keysByField_changed {after : Node} (fits : node.Fits blueprint)
    (fitsAfter : after.Fits blueprint) (direction : Direction)
    {change : List (Option String) → List (Option String)}
    (changed : ∀ entry ∈ fieldsOf direction.keyedRole blueprint.fields,
      ((after.slots direction).filter (SlotInfo.isOf entry.1.name)).map SlotInfo.key =
        if entry.1.name = field then
          change (((node.slots direction).filter (SlotInfo.isOf entry.1.name)).map SlotInfo.key)
        else ((node.slots direction).filter (SlotInfo.isOf entry.1.name)).map SlotInfo.key) :
    after.keysByField direction = changeKeys field change (node.keysByField direction) := by
  rw [fitsAfter.keysByField_eq, fits.keysByField_eq, changeKeys, List.map_map]
  exact List.map_congr_left fun entry isEntry =>
    congrArg (Prod.mk entry.1.name) (changed entry isEntry)

/-- The native values of a node, under their places, once the slot at a place is removed: an input
takes its value away, and those behind it move as the places of the other fields do. -/
def nativesWithout (node : Node) (place : Nat) : Direction → List (Nat × NativeValue)
  | .input => (node.nativeInputs.filter fun entry => entry.1 ≠ place).map fun entry =>
      (shiftDown place entry.1, entry.2)
  | .output => node.nativeInputs

theorem nativeInputs_eraseSlot (node : Node) (direction : Direction) (place : Nat) :
    (node.eraseSlot direction place).nativeInputs = node.nativesWithout place direction := by
  cases direction with
  | input =>
    have erased := heldFrom_eraseIdx InputSlot.native node.inputs place 0
    rw [Nat.zero_add] at erased
    exact erased
  | output => rfl

section Slot

variable (sound : blueprint.Sound) (fits : node.Fits blueprint)
  (isSlot : (node.slots direction)[place]? = some info)

include sound fits isSlot

/-- A slot is the only one of its name. -/
theorem Fits.name_eq_iff {side : Direction} {spot : Nat} {other : SlotInfo}
    (isOther : (node.slots side)[spot]? = some other) :
    other.name = info.name ↔ side = direction ∧ spot = place := by
  constructor
  · exact fits.place_eq_of_name sound isOther isSlot
  · rintro ⟨rfl, rfl⟩
    rw [isOther] at isSlot
    rw [Option.some.inj isSlot]

/-- On its side, the slot at a place is told apart by its name; on the other side none is. -/
theorem Fits.accepts_name_iff (side : Direction) (spot : Nat) (slot : NamedSlot)
    (isOther : (node.namedSlots side)[spot]? = some slot) :
    decide (slot.info.name = info.name) = true ↔ side = direction ∧ spot = place := by
  rw [decide_eq_true_eq]
  exact fits.name_eq_iff sound isSlot (getElem?_slots isOther)

/-- No field of another side has the name of the field of a slot. -/
theorem Fits.isOf_field (isOf : info.isOf field = true) {side : Direction} {other : SlotInfo}
    (member : other ∈ node.slots side) (ofField : other.field = field) :
    side = direction ∧ other.isOf field = true := by
  obtain ⟨isMulti, infoField⟩ := SlotInfo.isOf_iff.1 isOf
  obtain ⟨sameSide, alike⟩ := fits.eq_of_field sound member (List.mem_of_getElem? isSlot)
    (ofField.trans infoField.symm)
  exact ⟨sameSide, SlotInfo.isOf_iff.2 ⟨alike.trans isMulti, ofField⟩⟩

/-- Two slots of a field have the same information but for their keys. -/
theorem Fits.withKey_eq {side : Direction} {other : SlotInfo} (member : other ∈ node.slots side)
    (ofField : other.field = info.field) : other.withKey key = info.withKey key := by
  obtain ⟨first, isFirst, nameFirst, -, keyFirst, rfl⟩ := (fits.sides side).exists_entry member
  obtain ⟨second, isSecond, nameSecond, -, keySecond, same⟩ :=
    (fits.sides direction).exists_entry (List.mem_of_getElem? isSlot)
  have isSame : first = second :=
    sound.eq_of_name isFirst isSecond (nameFirst.trans (ofField.trans nameSecond.symm))
  rw [same, isSame]
  rfl

theorem Fits.namedSlots_rekey (side : Direction) :
    (node.rekey direction place key).namedSlots side = (node.namedSlots side).map fun slot =>
      if slot.info.name = info.name then slot.withKey key else slot := by
  have accepts := fits.accepts_name_iff sound isSlot side
  have changed : (node.rekey direction place key).namedSlots side =
      if side = direction then (node.namedSlots side).modify place (NamedSlot.withKey key)
      else node.namedSlots side := by
    cases direction <;> cases side
    · exact map_modify InputSlot.named _ (NamedSlot.withKey key) (fun _ => rfl) _ _
    · rfl
    · rfl
    · exact map_modify OutputSlot.named _ (NamedSlot.withKey key) (fun _ => rfl) _ _
  rw [changed]
  split
  · next same =>
    rw [modify_eq_map fun spot slot isOther =>
      (accepts spot slot isOther).trans (and_iff_right same)]
    refine List.map_congr_left fun slot _ => ?_
    simp only [decide_eq_true_eq]
  · next apart =>
    refine ((List.map_congr_left fun slot member => if_neg fun same => apart ?_).trans
      (List.map_id' _)).symm
    obtain ⟨spot, isOther⟩ := List.mem_iff_getElem?.1 member
    exact ((accepts spot slot isOther).1 (decide_eq_true same)).1

theorem Fits.slots_rekeyed (side : Direction) :
    (node.rekey direction place key).slots side = (node.slots side).map fun other =>
      if other.name = info.name then other.withKey key else other := by
  rw [← map_info_namedSlots, fits.namedSlots_rekey sound isSlot, ← map_info_namedSlots node,
    List.map_map, List.map_map]
  refine List.map_congr_left fun slot _ => ?_
  simp only [Function.comp_apply]
  split <;> rfl

/-- Giving a slot another key is renaming it, and nothing else. -/
theorem Fits.byNames_rekey (isOf : info.isOf field = true)
    (fitsAfter : (node.rekey direction place key).Fits blueprint) :
    (node.rekey direction place key).byNames = node.byNames.rekey field info.key key := by
  have ofField : info.field = field := (SlotInfo.isOf_iff.1 isOf).2
  have rest : (node.rekey direction place key).withoutSlots = node.withoutSlots := by
    cases direction <;> rfl
  have slots : (node.rekey direction place key).namedSlots = _ :=
    funext (fits.namedSlots_rekey sound isSlot)
  have keys : (node.rekey direction place key).keysByField = fun side => changeKeys field
      (List.map fun other => if other = info.key then some key else other)
      (node.keysByField side) := by
    funext side
    refine fits.keysByField_changed fitsAfter side fun entry isEntry => ?_
    rw [fits.slots_rekeyed sound isSlot, List.filter_map, List.map_map]
    have kept : SlotInfo.isOf entry.1.name ∘ (fun other : SlotInfo =>
        if other.name = info.name then other.withKey key else other) =
          SlotInfo.isOf entry.1.name := by
      funext other
      simp only [Function.comp_apply]
      split <;> rfl
    rw [kept]
    split
    · next isField =>
      rw [List.map_map]
      refine List.map_congr_left fun other member => ?_
      have otherField := (SlotInfo.isOf_iff.1 (List.mem_filter.1 member).2).2
      have same : other.name = info.name ↔ other.key = info.key := by
        rw [SlotInfo.name, SlotInfo.name, SlotName.mk.injEq, otherField, isField, ofField]
        exact and_iff_right rfl
      simp only [Function.comp_apply, same]
      split <;> rfl
    · next notField =>
      refine List.map_congr_left fun other member => ?_
      have otherField := (SlotInfo.isOf_iff.1 (List.mem_filter.1 member).2).2
      have apart : other.name ≠ info.name := fun same =>
        notField (otherField.symm.trans ((congrArg SlotName.field same).trans ofField))
      simp only [Function.comp_apply, if_neg apart]
  have name : info.name = ⟨field, info.key⟩ := by rw [SlotInfo.name, ofField]
  rw [byNames, rest, slots, keys, name]
  rfl

theorem Fits.namedSlots_eraseSlot (side : Direction) :
    (node.eraseSlot direction place).namedSlots side =
      (node.namedSlots side).filter fun slot => slot.info.name ≠ info.name := by
  have accepts := fits.accepts_name_iff sound isSlot side
  have changed : (node.eraseSlot direction place).namedSlots side =
      if side = direction then (node.namedSlots side).eraseIdx place else node.namedSlots side := by
    cases direction <;> cases side <;> simp [namedSlots, Node.eraseSlot, List.eraseIdx_map]
  rw [changed]
  split
  · next same =>
    subst same
    rw [← map_info_namedSlots, List.getElem?_map] at isSlot
    obtain ⟨slot, isNamed, -⟩ := Option.map_eq_some_iff.1 isSlot
    rw [eraseIdx_eq_filter isNamed fun spot slot isOther =>
      (accepts spot slot isOther).trans (and_iff_right rfl)]
    refine List.filter_congr fun slot _ => ?_
    simp only [decide_not]
  · next apart =>
    refine (List.filter_eq_self.2 fun slot member => ?_).symm
    rw [decide_eq_true_eq]
    intro same
    obtain ⟨spot, isOther⟩ := List.mem_iff_getElem?.1 member
    exact apart ((accepts spot slot isOther).1 (decide_eq_true same)).1

theorem Fits.slots_erased (side : Direction) :
    (node.eraseSlot direction place).slots side =
      (node.slots side).filter fun other => other.name ≠ info.name := by
  rw [← map_info_namedSlots, fits.namedSlots_eraseSlot sound isSlot, ← map_info_namedSlots node,
    List.filter_map]
  rfl

/-- Erasing a slot is leaving out its name. -/
theorem Fits.byNames_eraseSlot (isOf : info.isOf field = true) (isKey : info.key = some key)
    (fitsAfter : (node.eraseSlot direction place).Fits blueprint) :
    (node.eraseSlot direction place).byNames = node.byNames.removeKey field key := by
  have ofField : info.field = field := (SlotInfo.isOf_iff.1 isOf).2
  have rest : (node.eraseSlot direction place).withoutSlots = node.withoutSlots := by
    cases direction <;> rfl
  have slots := funext (fits.namedSlots_eraseSlot sound isSlot)
  have keys : (node.eraseSlot direction place).keysByField = fun side => changeKeys field
      (List.filter fun other => other ≠ some key) (node.keysByField side) := by
    funext side
    refine fits.keysByField_changed fitsAfter side fun entry isEntry => ?_
    rw [fits.slots_erased sound isSlot, List.filter_filter]
    split
    · next isField =>
      rw [List.filter_map, List.filter_filter]
      refine congrArg (List.map SlotInfo.key) (List.filter_congr fun other _ => ?_)
      rw [Bool.and_comm, Bool.eq_iff_iff, Bool.and_eq_true, Bool.and_eq_true]
      refine and_congr_left fun otherOf => ?_
      have otherField := (SlotInfo.isOf_iff.1 otherOf).2
      rw [Function.comp_apply, decide_eq_true_eq, decide_eq_true_eq, SlotInfo.name, SlotInfo.name,
        ne_eq, SlotName.mk.injEq, otherField, isField, ofField, isKey]
      exact not_congr (and_iff_right rfl)
    · next notField =>
      refine congrArg (List.map SlotInfo.key) (List.filter_congr fun other _ => ?_)
      rw [Bool.eq_iff_iff, Bool.and_eq_true]
      refine and_iff_left_of_imp fun otherOf => decide_eq_true fun same => notField ?_
      exact (SlotInfo.isOf_iff.1 otherOf).2.symm.trans
        ((congrArg SlotName.field same).trans ofField)
  have name : info.name = ⟨field, some key⟩ := by rw [SlotInfo.name, ofField, isKey]
  rw [byNames, rest, slots, keys, name]
  rfl

theorem Fits.namedSlots_appendSlot (isOf : info.isOf field = true) (side : Direction) :
    (node.appendSlot direction field (info.withKey key)).namedSlots side =
      node.namedSlots side ++ (((node.namedSlots side).find? fun slot =>
        slot.info.field = field).map fun slot => ⟨slot.info.withKey key, [], none⟩).toList := by
  have ofField : info.field = field := (SlotInfo.isOf_iff.1 isOf).2
  have changed : (node.appendSlot direction field (info.withKey key)).namedSlots side =
      node.namedSlots side ++
        if side = direction then [⟨info.withKey key, [], none⟩] else [] := by
    cases direction <;> cases side <;>
      simp [namedSlots, Node.appendSlot, InputSlot.named, OutputSlot.named]
  rw [changed]
  refine congrArg (node.namedSlots side ++ ·) ?_
  split
  · next same =>
    subst same
    cases found : (node.namedSlots side).find? fun slot => slot.info.field = field with
    | none =>
      rw [← map_info_namedSlots, List.getElem?_map] at isSlot
      obtain ⟨slot, isNamed, rfl⟩ := Option.map_eq_some_iff.1 isSlot
      have absent := List.find?_eq_none.1 found slot (List.mem_of_getElem? isNamed)
      exact absurd (decide_eq_true ofField) absent
    | some slot =>
      obtain ⟨spot, isOther⟩ := List.mem_iff_getElem?.1 (List.mem_of_find?_eq_some found)
      have otherField : slot.info.field = field := of_decide_eq_true (List.find?_some found :)
      rw [Option.map_some, Option.toList_some, fits.withKey_eq sound isSlot
        (List.mem_of_getElem? (getElem?_slots isOther)) (otherField.trans ofField.symm)]
  · next apart =>
    rw [List.find?_eq_none.2 fun slot member otherField => apart ?_]
    · rfl
    · obtain ⟨spot, isOther⟩ := List.mem_iff_getElem?.1 member
      exact (fits.isOf_field sound isSlot isOf (List.mem_of_getElem? (getElem?_slots isOther))
        (of_decide_eq_true otherField)).1

/-- Only the field of the slot that is added has one more. -/
theorem Fits.filter_isOf_appendSlot (isOf : info.isOf field = true) {side : Direction}
    {entry : Field × Role} (isEntry : entry ∈ fieldsOf side.keyedRole blueprint.fields) :
    ((node.appendSlot direction field (info.withKey key)).slots side).filter
        (SlotInfo.isOf entry.1.name) =
      (node.slots side).filter (SlotInfo.isOf entry.1.name) ++
        if entry.1.name = field then [info.withKey key] else [] := by
  have ofField : info.field = field := (SlotInfo.isOf_iff.1 isOf).2
  rw [slots_appendSlot]
  split
  · rw [List.filter_append]
    refine congrArg ((node.slots side).filter (SlotInfo.isOf entry.1.name) ++ ·) ?_
    split
    · next isField =>
      rw [isField]
      exact List.filter_cons_of_pos isOf
    · next notField =>
      refine List.filter_cons_of_neg fun otherOf => notField ?_
      exact (SlotInfo.isOf_iff.1 otherOf).2.symm.trans ofField
  · next apart =>
    rw [if_neg, List.append_nil]
    rintro rfl
    obtain ⟨other, isOther, otherOf⟩ := (fits.sides side).exists_slot isEntry
    exact apart (fits.isOf_field sound isSlot isOf isOther (SlotInfo.isOf_iff.1 otherOf).2).1

/-- Adding a slot like one of its field is adding its name. -/
theorem Fits.byNames_appendSlot (isOf : info.isOf field = true)
    (fitsAfter : (node.appendSlot direction field (info.withKey key)).Fits blueprint) :
    (node.appendSlot direction field (info.withKey key)).byNames =
      node.byNames.appendKey field key := by
  have rest : (node.appendSlot direction field (info.withKey key)).withoutSlots =
      node.withoutSlots := by
    cases direction <;> rfl
  have slots : (node.appendSlot direction field (info.withKey key)).namedSlots = _ :=
    funext (fits.namedSlots_appendSlot sound isSlot isOf)
  have keys : (node.appendSlot direction field (info.withKey key)).keysByField = fun side =>
      changeKeys field (· ++ [some key]) (node.keysByField side) := by
    funext side
    refine fits.keysByField_changed fitsAfter side fun entry isEntry => ?_
    rw [fits.filter_isOf_appendSlot sound isSlot isOf isEntry, List.map_append]
    split
    · rfl
    · exact List.append_nil _
  rw [byNames, rest, slots, keys]
  rfl

end Slot

end Node

end Workflow
