/-
This file proves that names tell the slots of a node apart.

The name of a slot is its field together with its key. A field is on one side of
the node only, and its slots have different keys; so two slots under one name, on
whichever sides, are the same slot.
-/

import Mathlib.Data.List.Nodup
import Workflow.Proofs.Node.Make

namespace Workflow

/-- What a slot is called on its node. -/
structure SlotName where
  field : String
  key : Option String
  deriving DecidableEq

/-- The field and the key of a slot. -/
def SlotInfo.name (info : SlotInfo) : SlotName := ⟨info.field, info.key⟩

/-- A name that documents use is read up to its first dot and behind it. -/
theorem SlotInfo.name_eq_of_internalName {first second : SlotInfo}
    (dotless : '.' ∉ first.field.toList) (dotless' : '.' ∉ second.field.toList)
    (same : first.internalName = second.internalName) : first.name = second.name := by
  have letters : ∀ info : SlotInfo, info.internalName.toList =
      info.field.toList ++ info.key.elim [] fun key => '.' :: key.toList := by
    intro info
    rw [internalName]
    cases info.key with
    | none => exact (List.append_nil _).symm
    | some key => simp [String.toList_append]
  have stops : ∀ key : Option String,
      (key.elim [] fun key => '.' :: key.toList).takeWhile (fun c => c != '.') = [] := by
    intro key
    cases key <;> rfl
  have begins : ∀ info : SlotInfo, '.' ∉ info.field.toList →
      info.internalName.toList.takeWhile (fun c => c != '.') = info.field.toList := by
    intro info isDotless
    rw [letters, List.takeWhile_append_of_pos fun c member => ?_, stops, List.append_nil]
    rw [bne_iff_ne]
    rintro rfl
    exact isDotless member
  have field : first.field.toList = second.field.toList := by
    rw [← begins first dotless, same, begins second dotless']
  have rest := letters first
  rw [same, letters second, field, List.append_cancel_left_eq] at rest
  rw [name, name, String.toList_inj.1 field]
  cases isFirst : first.key with
  | none =>
    cases isSecond : second.key with
    | none => rfl
    | some other =>
      rw [isFirst, isSecond] at rest
      cases rest
  | some key =>
    cases isSecond : second.key with
    | none =>
      rw [isFirst, isSecond] at rest
      cases rest
    | some other =>
      rw [isFirst, isSecond] at rest
      rw [String.toList_inj.1 (List.cons.inj rest).2]

/-- Fields are told apart by their names. -/
theorem Blueprint.Sound.eq_of_name {blueprint : Blueprint} (sound : blueprint.Sound)
    {first second : Field × Role} (inFirst : first ∈ blueprint.fields)
    (inSecond : second ∈ blueprint.fields) (same : first.1.name = second.1.name) :
    first = second :=
  List.inj_on_of_nodup_map sound.distinct inFirst inSecond same

/-- A side and whether a field has keys are known from the role of its slots. -/
def Direction.role (direction : Direction) (isMulti : Bool) : Role :=
  if isMulti then direction.keyedRole else direction.plainRole

theorem role_eq_iff {first second : Direction} {one other : Bool} :
    first.role one = second.role other ↔ first = second ∧ one = other := by
  cases first <;> cases second <;> cases one <;> cases other <;> decide

namespace Side

variable {fields : List (Field × Role)} {direction : Direction} {infos : List SlotInfo}
  {places : OrderedMap String (List Nat)}

/-- The field that a slot belongs to. -/
theorem exists_entry (side : Side fields direction infos places) {info : SlotInfo}
    (member : info ∈ infos) : ∃ entry ∈ fields, entry.1.name = info.field ∧
      entry.2 = direction.role info.isMulti ∧
        ∃ key, info = SlotInfo.ofField entry.1 entry.2 key := by
  cases isMulti : info.isMulti with
  | true =>
    obtain ⟨entry, isEntry, ofField⟩ := side.owned info member isMulti
    obtain ⟨keys, -, -, slots⟩ := side.keyed entry isEntry
    obtain ⟨inFields, role⟩ := mem_fieldsOf.1 isEntry
    have listed : info ∈ infos.filter (SlotInfo.isOf entry.1.name) :=
      List.mem_filter.2 ⟨member, SlotInfo.isOf_iff.2 ⟨isMulti, ofField⟩⟩
    rw [slots] at listed
    obtain ⟨key, -, same⟩ := List.mem_map.1 listed
    exact ⟨entry, inFields, ofField.symm, role, key, same.symm⟩
  | false =>
    have listed : info ∈ infos.filter fun info => !info.isMulti :=
      List.mem_filter.2 ⟨member, by rw [isMulti]; rfl⟩
    rw [side.plain] at listed
    obtain ⟨entry, isEntry, same⟩ := List.mem_map.1 listed
    obtain ⟨inFields, role⟩ := mem_fieldsOf.1 isEntry
    exact ⟨entry, inFields, congrArg SlotInfo.field same, role, none, same.symm⟩

/-- A field with keys has a slot. -/
theorem exists_slot (side : Side fields direction infos places) {entry : Field × Role}
    (isEntry : entry ∈ fieldsOf direction.keyedRole fields) :
    ∃ info ∈ infos, info.isOf entry.1.name = true := by
  obtain ⟨keys, -, -, slots⟩ := side.keyed entry isEntry
  have some : infos.filter (SlotInfo.isOf entry.1.name) ≠ [] := by
    rw [slots, slotKeys]
    cases keys <;> simp
  obtain ⟨info, listed⟩ := List.exists_mem_of_ne_nil _ some
  exact ⟨info, List.mem_filter.1 listed⟩

/-- The keys of the slots of a field are different. -/
theorem nodup_keys (side : Side fields direction infos places) {entry : Field × Role}
    (isEntry : entry ∈ fieldsOf direction.keyedRole fields) :
    ((infos.filter (SlotInfo.isOf entry.1.name)).map SlotInfo.key).Nodup := by
  obtain ⟨keys, distinct, -, slots⟩ := side.keyed entry isEntry
  have same : (slotKeys keys).map (SlotInfo.key ∘ SlotInfo.ofField entry.1 entry.2) =
      slotKeys keys := List.map_id _
  rw [slots, List.map_map, same, slotKeys]
  split
  · exact List.nodup_singleton none
  · exact distinct.map fun _ _ => Option.some.inj

end Side

namespace Node

/-- Slots are shown under the names that their fields and keys give them. -/
theorem shownNames_eq (node : Node) (direction : Direction) :
    node.shownNames direction = (node.slots direction).map SlotInfo.displayName := by
  cases direction with
  | input =>
    rw [shownNames, slots, List.map_map]
    exact List.map_congr_left fun slot _ => slot.name_eq
  | output =>
    rw [shownNames, slots, List.map_map]
    exact List.map_congr_left fun slot _ => slot.name_eq

variable {blueprint : Blueprint} {node : Node}

/-- Slots of one field are on one side, and they have keys or not alike. -/
theorem Fits.eq_of_field (sound : blueprint.Sound) (fits : node.Fits blueprint)
    {one other : Direction} {first second : SlotInfo} (isFirst : first ∈ node.slots one)
    (isSecond : second ∈ node.slots other) (same : first.field = second.field) :
    one = other ∧ first.isMulti = second.isMulti := by
  obtain ⟨entry, inFields, ofFirst, role, -⟩ := (fits.sides one).exists_entry isFirst
  obtain ⟨entry', inFields', ofSecond, role', -⟩ := (fits.sides other).exists_entry isSecond
  have isSame : entry = entry' :=
    sound.eq_of_name inFields inFields' (ofFirst.trans (same.trans ofSecond.symm))
  rw [isSame, role'] at role
  exact (role_eq_iff.1 role).imp Eq.symm Eq.symm

/-- Slots at different places of a side have different names. -/
theorem Fits.pairwise_name (sound : blueprint.Sound) (fits : node.Fits blueprint)
    (direction : Direction) :
    (node.slots direction).Pairwise fun first second => first.name ≠ second.name := by
  have side := fits.sides direction
  -- Names are compared among the slots of one field, or among those without keys.
  have among : ∀ accepts : SlotInfo → Bool,
      (((node.slots direction).filter accepts).map SlotInfo.name).Nodup →
      (node.slots direction).Pairwise fun first second =>
        accepts first = true → accepts second = true → first.name ≠ second.name := by
    intro accepts distinct
    exact List.pairwise_filter.1 (List.pairwise_map.1 distinct)
  have plain := among (fun info => !info.isMulti) (by
    rw [side.plain, List.map_map]
    refine List.Nodup.of_map SlotName.field ?_
    rw [List.map_map]
    exact (sound.distinct.sublist (List.filter_sublist.map _)))
  have keyed : ∀ entry ∈ fieldsOf direction.keyedRole blueprint.fields,
      (node.slots direction).Pairwise fun first second =>
        first.isOf entry.1.name = true → second.isOf entry.1.name = true →
          first.name ≠ second.name := by
    intro entry isEntry
    refine among _ (List.Nodup.of_map SlotName.key ?_)
    rw [List.map_map]
    exact side.nodup_keys isEntry
  rw [List.pairwise_iff_getElem] at plain ⊢
  intro first second inRange inRange' less same
  have isFirst := List.getElem_mem inRange
  have isSecond := List.getElem_mem inRange'
  obtain ⟨-, alike⟩ := fits.eq_of_field sound isFirst isSecond (congrArg SlotName.field same)
  cases isMulti : ((node.slots direction)[first]).isMulti with
  | false =>
    refine plain first second inRange inRange' less ?_ ?_ same
    · rw [isMulti]
      rfl
    · rw [← alike, isMulti]
      rfl
  | true =>
    obtain ⟨entry, isEntry, ofField⟩ := side.owned _ isFirst isMulti
    refine List.pairwise_iff_getElem.1 (keyed entry isEntry) first second inRange inRange' less
      (SlotInfo.isOf_iff.2 ⟨isMulti, ofField⟩) (SlotInfo.isOf_iff.2 ⟨alike ▸ isMulti, ?_⟩) same
    exact (congrArg SlotName.field same).symm.trans ofField

/-- The slot of a name is at one place only. -/
theorem Fits.place_eq_of_name (sound : blueprint.Sound) (fits : node.Fits blueprint)
    {one other : Direction} {place spot : Nat} {first second : SlotInfo}
    (isFirst : (node.slots one)[place]? = some first)
    (isSecond : (node.slots other)[spot]? = some second) (same : first.name = second.name) :
    one = other ∧ place = spot := by
  obtain ⟨rfl, -⟩ := fits.eq_of_field sound (List.mem_of_getElem? isFirst)
    (List.mem_of_getElem? isSecond) (congrArg SlotName.field same)
  have distinct := List.pairwise_iff_getElem.1 (fits.pairwise_name sound one)
  obtain ⟨inRange, rfl⟩ := List.getElem?_eq_some_iff.1 isFirst
  obtain ⟨inRange', rfl⟩ := List.getElem?_eq_some_iff.1 isSecond
  refine ⟨rfl, ?_⟩
  obtain less | same' | more := Nat.lt_trichotomy place spot
  · exact absurd same (distinct place spot inRange inRange' less)
  · exact same'
  · exact absurd same.symm (distinct spot place inRange' inRange more)

/-- The slot that documents call by a name is at one place only. -/
theorem Fits.place_eq_of_internalName (sound : blueprint.Sound) (fits : node.Fits blueprint)
    {one other : Direction} {place spot : Nat} {first second : SlotInfo}
    (isFirst : (node.slots one)[place]? = some first)
    (isSecond : (node.slots other)[spot]? = some second)
    (same : first.internalName = second.internalName) : one = other ∧ place = spot := by
  obtain ⟨entry, inFields, ofFirst, -⟩ :=
    (fits.sides one).exists_entry (List.mem_of_getElem? isFirst)
  obtain ⟨entry', inFields', ofSecond, -⟩ :=
    (fits.sides other).exists_entry (List.mem_of_getElem? isSecond)
  refine fits.place_eq_of_name sound isFirst isSecond (SlotInfo.name_eq_of_internalName ?_ ?_ same)
  · rw [← ofFirst]
    exact sound.dotless entry inFields
  · rw [← ofSecond]
    exact sound.dotless entry' inFields'

/-- Documents find a slot by its name. -/
theorem Fits.slotNamed?_eq (sound : blueprint.Sound) (fits : node.Fits blueprint)
    {direction : Direction} {place : Nat} {info : SlotInfo}
    (isSlot : (node.slots direction)[place]? = some info) :
    node.slotNamed? direction info.internalName = some place := by
  obtain ⟨inRange, isInfo⟩ := List.getElem?_eq_some_iff.1 isSlot
  rw [slotNamed?, List.findIdx?_eq_some_iff_getElem]
  refine ⟨inRange, by rw [isInfo, beq_iff_eq], fun earlier less => ?_⟩
  rw [beq_iff_eq]
  intro same
  have isEarlier := List.getElem?_eq_getElem (Nat.lt_trans less inRange)
  exact Nat.ne_of_lt less (fits.place_eq_of_internalName sound isEarlier isSlot same).2

end Node

end Workflow
