/-
This file proves that a node which restores another one says the same as it does.

A document leaves out places of slots, values that were not edited and keys that are
not there. The model gives the slots and the values again; so nothing is lost but
what a document cannot hold, which is a value under a name that documents keep for
themselves.
-/

import Workflow.Proofs.Document.Restored
import Workflow.Proofs.Node.Missing

namespace Workflow

/-! ### Names that documents keep for themselves -/

/-- No field has a name that documents keep for themselves, but for the constant that is the type
tag. -/
def Model.Unreserved (model : Model) : Prop :=
  ∀ entry ∈ model.fieldsWithRoles, entry.1.name ∈ reservedFields →
    entry.1.name = typeTagField ∧ entry.2 = .constant

instance (model : Model) : Decidable model.Unreserved :=
  inferInstanceAs (Decidable (∀ entry ∈ model.fieldsWithRoles, entry.1.name ∈ reservedFields →
    entry.1.name = typeTagField ∧ entry.2 = .constant))

namespace Node

/-- No value of a node has a name that documents keep for themselves, but for the type tag. -/
structure Unreserved (node : Node) : Prop where
  notes : ∀ name ∈ node.annotations.keys, name ∉ reservedFields
  constants : ∀ name ∈ node.constants.keys, name ∈ reservedFields → name = typeTagField
  keys : ∀ direction, ∀ field ∈ (node.multiSlots direction).keys, field ∉ reservedFields
  inputs : ∀ slot ∈ node.inputs, slot.info.field ∉ reservedFields

variable {blueprint : Blueprint} {node before after : Node} {withLayout : Bool}

theorem Fits.unreserved (fits : node.Fits blueprint)
    (fields : ∀ entry ∈ blueprint.fields, entry.1.name ∈ reservedFields →
      entry.1.name = typeTagField ∧ entry.2 = .constant)
    (constants : ∀ name ∈ blueprint.constants, name ∈ reservedFields → name = typeTagField) :
    node.Unreserved := by
  have free (role : Role) (apart : role ≠ .constant) {name : String}
      (isName : name ∈ (fieldsOf role blueprint.fields).map fun entry => entry.1.name) :
      name ∉ reservedFields := by
    obtain ⟨entry, isEntry, rfl⟩ := List.mem_map.1 isName
    obtain ⟨inFields, rfl⟩ := mem_fieldsOf.1 isEntry
    exact fun reserved => apart (fields entry inFields reserved).2
  refine ⟨fun name isName => ?_, fun name isName => ?_, fun direction field isField => ?_,
    fun slot isSlot reserved => ?_⟩
  · exact free .note (by decide) (fits.notes.keys_subset isName)
  · exact constants name (fits.constants ▸ isName)
  · rw [fits.keys_multiSlots] at isField
    exact free direction.keyedRole (by cases direction <;> decide) isField
  · obtain ⟨entry, inFields, ofField, role, -⟩ :=
      (fits.sides .input).exists_entry (List.mem_map_of_mem isSlot)
    have isConstant := (fields entry inFields (ofField ▸ reserved)).2
    rw [isConstant] at role
    cases isMulti : slot.info.isMulti <;> rw [isMulti] at role <;> cases role

theorem Fits.unreserved_ofKind {kind : NativeKind} (fits : node.Fits (.ofKind kind)) :
    node.Unreserved := by
  have absent : primitiveValueField ∉ reservedFields := by decide
  refine fits.unreserved (fun entry isEntry reserved => ?_) fun name isName reserved => ?_
  · rw [List.mem_singleton.1 isEntry] at reserved
    exact absurd reserved absent
  · rw [List.mem_singleton.1 isName] at reserved
    exact absurd reserved absent

theorem Fits.unreserved_ofModel {modelRef : String} {model : Model}
    (fits : node.Fits (.ofModel modelRef model)) (unreserved : model.Unreserved) :
    node.Unreserved := by
  refine fits.unreserved unreserved fun name isName reserved => ?_
  obtain ⟨entry, isEntry, rfl⟩ := List.mem_map.1 isName
  exact (unreserved entry (mem_fieldsOf.1 isEntry).1 reserved).1

end Node

/-! ### Nodes that say the same -/

/-- Keys of a field that are the same, and come in the same order unless they are written as an
object. -/
def Node.KeysMatch (node : Node) (keys others : String × List (Option String)) : Prop :=
  others.1 = keys.1 ∧ (∀ key, key ∈ others.2 ↔ key ∈ keys.2) ∧
    (node.keyedValues.get? keys.1 = none → others.2 = keys.2)

/-- A node that says what another one says, whatever its id, its links and its place in documents
are. -/
structure Node.Repeats (before after : Node) : Prop where
  modelRef : after.modelRef = before.modelRef
  annotations : after.annotations = before.annotations
  constants : after.constants = before.constants
  title : after.title = before.title
  displayName : after.displayName = before.displayName
  color : after.color = before.color
  extra : after.extra = before.extra
  position : after.position = before.position
  size : after.size = before.size
  slots : ∀ direction info, info ∈ after.slots direction ↔ info ∈ before.slots direction
  keys : ∀ direction,
    List.Forall₂ before.KeysMatch (before.keysByField direction) (after.keysByField direction)

/-- A fresh value of an input does not count as given. -/
theorem Field.explicit_native? (field : Field) (start : Option Default) {native : NativeValue}
    (isNative : field.native? start = some native) : native.explicit = false := by
  obtain ⟨kind, -, rfl⟩ := Option.map_eq_some_iff.1 isNative
  rfl

/-- Inputs that started alike have the same value if they were given the same. -/
theorem native_eq_of_edit? {start : Option NativeValue}
    (fresh : ∀ native, start = some native → native.explicit = false) {slot copy : InputSlot}
    (edit : Edited start slot.native) (editCopy : Edited start copy.native)
    (same : copy.edit? = slot.edit?) : copy.native = slot.native := by
  cases start with
  | none =>
    have none {after : Option NativeValue} (edited : Edited none after) : after = none := by
      rw [← Option.not_isSome_iff_eq_none, edited.isSome_eq]
      exact Bool.false_ne_true
    rw [none edit, none editCopy]
  | some native =>
    have unedited := fresh native rfl
    rw [InputSlot.edit?, InputSlot.edit?] at same
    obtain isSlot | ⟨value, isSlot⟩ := edit
    · obtain isCopy | ⟨other, isCopy⟩ := editCopy
      · rw [isSlot, isCopy]
      · rw [isSlot, isCopy] at same
        simp [unedited, NativeValue.edited] at same
    · obtain isCopy | ⟨other, isCopy⟩ := editCopy
      · rw [isSlot, isCopy] at same
        simp [unedited, NativeValue.edited] at same
      · rw [isSlot, isCopy] at same ⊢
        have values : other = value := by simpa [NativeValue.edited] using same
        rw [values]

namespace Node.Restores

variable {blueprint : Blueprint} {withLayout : Bool} {before after : Node}

section Slots

variable (sound : blueprint.Sound) (parted : blueprint.Parted) (fits : before.Fits blueprint)
  (restores : before.Restores blueprint withLayout after) (unreserved : before.Unreserved)

include sound parted fits restores unreserved

/-- The keys of a field before and after. -/
theorem exists_keys {direction : Direction} {entry : Field × Role}
    (isEntry : entry ∈ fieldsOf direction.keyedRole blueprint.fields) :
    ∃ keys others : List String,
      (before.slots direction).filter (SlotInfo.isOf entry.1.name) =
        (slotKeys keys).map (SlotInfo.ofField entry.1 entry.2) ∧
      (after.slots direction).filter (SlotInfo.isOf entry.1.name) =
        (slotKeys others).map (SlotInfo.ofField entry.1 entry.2) ∧
      (∀ key, key ∈ others ↔ key ∈ keys) ∧
      (before.keyedValues.get? entry.1.name = none → others = keys) := by
  obtain ⟨keys, distinct, named, slots, written⟩ := fits.exists_keys sound parted isEntry
  obtain ⟨others, distinct', named', slots', written'⟩ :=
    restores.fits.exists_keys sound parted isEntry
  have free : entry.1.name ∉ reservedFields := by
    refine unreserved.keys direction entry.1.name ?_
    rw [fits.keys_multiSlots]
    exact List.mem_map_of_mem isEntry
  have same : after.keysWritten entry.1.name others = before.keysWritten entry.1.name keys := by
    rw [← written, ← written']
    exact restores.listed (.keys direction) (by simp) _ (List.mem_map_of_mem isEntry) (Or.inl free)
  refine ⟨keys, others, slots, slots', fun key => ?_, fun asList => ?_⟩
  · rw [← mem_documentKeys_keysWritten distinct' named', same,
      mem_documentKeys_keysWritten distinct named]
  · exact keys_eq_of_keysWritten asList same

theorem mem_slots_iff {direction : Direction} {info : SlotInfo} :
    info ∈ after.slots direction ↔ info ∈ before.slots direction := by
  refine ⟨fun member => ?_, restores.slots direction info⟩
  have side := fits.sides direction
  have sideAfter := restores.fits.sides direction
  cases isMulti : info.isMulti with
  | true =>
    obtain ⟨entry, isEntry, ofField⟩ := sideAfter.owned info member isMulti
    obtain ⟨keys, others, slots, slotsAfter, same, -⟩ :=
      restores.exists_keys sound parted fits unreserved isEntry
    have listed : info ∈ (after.slots direction).filter (SlotInfo.isOf entry.1.name) :=
      List.mem_filter.2 ⟨member, SlotInfo.isOf_iff.2 ⟨isMulti, ofField⟩⟩
    rw [slotsAfter] at listed
    obtain ⟨key, isKey, rfl⟩ := List.mem_map.1 listed
    have isSlot := List.mem_map_of_mem (f := SlotInfo.ofField entry.1 entry.2)
      (mem_slotKeys_congr same isKey)
    rw [← slots] at isSlot
    exact List.mem_of_mem_filter isSlot
  | false =>
    have listed : info ∈ (after.slots direction).filter fun info => !info.isMulti :=
      List.mem_filter.2 ⟨member, by rw [isMulti]; rfl⟩
    rw [sideAfter.plain, ← side.plain] at listed
    exact List.mem_of_mem_filter listed

theorem keysMatch (direction : Direction) :
    List.Forall₂ before.KeysMatch (before.keysByField direction)
      (after.keysByField direction) := by
  rw [fits.keysByField_eq, restores.fits.keysByField_eq, List.forall₂_map_left_iff,
    List.forall₂_map_right_iff, List.forall₂_same]
  intro entry isEntry
  obtain ⟨keys, others, slots, slotsAfter, same, inOrder⟩ :=
    restores.exists_keys sound parted fits unreserved isEntry
  have read (keys : List String) : ((slotKeys keys).map
      (SlotInfo.ofField entry.1 entry.2)).map SlotInfo.key = slotKeys keys := by
    rw [List.map_map]
    exact List.map_id _
  rw [slots, slotsAfter, read, read]
  refine ⟨rfl, fun key => ⟨mem_slotKeys_congr same, mem_slotKeys_congr fun key => (same key).symm⟩,
    fun asList => ?_⟩
  rw [inOrder asList]

omit sound parted in
theorem annotations_eq : after.annotations = before.annotations := by
  refine fits.notes.ext restores.fits.notes fun name isName => ?_
  have listed := restores.listed .notes (by simp) name isName ?_
  · rw [← get?_entries, ← get?_entries]
    exact listed
  · refine (Decidable.em (name ∈ before.annotations.keys)).imp (unreserved.notes name)
      fun absent => ?_
    rw [part, get?_entries]
    exact OrderedMap.get?_eq_none_iff.2 absent

omit sound in
theorem constants_eq (tagged : before.Tagged blueprint) : after.constants = before.constants := by
  have distinct : before.constants.keys.Nodup := fits.constants ▸ parted.nodup .constants
  have distinctAfter : after.constants.keys.Nodup :=
    restores.fits.constants ▸ parted.nodup .constants
  have keys : after.constants.keys = before.constants.keys :=
    restores.fits.constants.trans fits.constants.symm
  refine (OrderedMap.follows_keys distinct).ext (keys ▸ OrderedMap.follows_keys distinctAfter)
    fun name isName => ?_
  by_cases reserved : name ∈ reservedFields
  · obtain rfl := unreserved.constants name isName reserved
    obtain ⟨entry, isEntry, isTag⟩ := parted.tag (fits.constants ▸ isName)
    rw [tagged entry isEntry isTag, restores.tagged entry isEntry isTag]
  · have listed : name ∈ blueprint.constants := fits.constants ▸ isName
    rw [← get?_entries, ← get?_entries]
    exact restores.listed .constants (by simp) name listed (Or.inl reserved)

/-- An input that nothing was linked to has the same native value again. -/
theorem native_eq {slot copy : InputSlot} (isSlot : slot ∈ before.inputs)
    (isCopy : copy ∈ after.inputs) (info : copy.info = slot.info) (unlinked : slot.link = none) :
    copy.native = slot.native := by
  have fitted := fits.natives slot isSlot
  have fittedCopy := restores.fits.natives copy isCopy
  cases isMulti : slot.info.isMulti with
  | true => rw [fitted.keyed isMulti, fittedCopy.keyed (info ▸ isMulti)]
  | false =>
    obtain ⟨entry, isEntry, ofField⟩ :=
      exists_plain_field (fits.sides .input) (List.mem_map_of_mem isSlot) isMulti
    have name : entry.1.name = slot.info.field := by rw [ofField]; rfl
    have edit := fitted.plain isMulti entry isEntry name
    have editCopy := fittedCopy.plain (info ▸ isMulti) entry isEntry (info ▸ name)
    have listed := restores.edits copy isCopy (info ▸ isMulti)
      (info ▸ unreserved.inputs slot isSlot)
    rw [info, fits.get?_inputs sound parted isSlot isMulti, unlinked, Option.isNone_none,
      if_pos rfl] at listed
    exact native_eq_of_edit? (fun native => Field.explicit_native? entry.1 _) edit editCopy listed

/-- Where inputs are linked alike, they are the same but for the links. -/
theorem sameInputs (linked : ∀ slot ∈ before.inputs, ∀ copy ∈ after.inputs,
      copy.info = slot.info → copy.link.isSome = slot.link.isSome) :
    before.SameInputs after where
  slots _ := restores.mem_slots_iff sound parted fits unreserved
  linked := linked
  natives _ isSlot _ isCopy := restores.native_eq sound parted fits unreserved isSlot isCopy

end Slots

/-- A node that restores another one, with its layout, says the same. -/
theorem repeats_of_layout (sound : blueprint.Sound) (parted : blueprint.Parted)
    (fits : before.Fits blueprint) (tagged : before.Tagged blueprint)
    (restores : before.Restores blueprint true after) (unreserved : before.Unreserved) :
    before.Repeats after := by
  have drawn : after.appearance true = before.appearance true := Option.some.inj restores.drawn
  exact
    { modelRef := restores.fits.modelRef.trans fits.modelRef.symm
      annotations := restores.annotations_eq fits unreserved
      constants := restores.constants_eq parted fits unreserved tagged
      title := (congrArg Appearance.title drawn :)
      displayName := (congrArg Appearance.name drawn :)
      color := (congrArg Appearance.color drawn :)
      extra := (congrArg Appearance.others drawn :)
      position := Option.some.inj (congrArg Appearance.position drawn :)
      size := Option.some.inj (congrArg Appearance.size drawn :)
      slots := fun _ _ => restores.mem_slots_iff sound parted fits unreserved
      keys := restores.keysMatch sound parted fits unreserved }

end Node.Restores

end Workflow
