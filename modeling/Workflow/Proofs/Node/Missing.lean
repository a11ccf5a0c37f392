/-
This file says which fields are missing on a node, slot by slot.

The search passes a field with keys once, at its first slot. As the slots of a field
are all optional or none of them is, any of them could be asked. So what is missing
depends on the slots, on which of them are linked, and on the native values of the
others, but not on the order in which keys come.
-/

import Workflow.Graph.Readiness
import Workflow.Proofs.Node.Names

namespace Workflow.Node

variable {blueprint : Blueprint} {node before after : Node} {field : String}

/-! ### Missing fields -/

/-- Slots of one field are all optional, or none of them is. -/
theorem Fits.optional_eq (sound : blueprint.Sound) (fits : node.Fits blueprint)
    {direction : Direction} {first second : SlotInfo} (isFirst : first ∈ node.slots direction)
    (isSecond : second ∈ node.slots direction) (same : first.field = second.field) :
    first.optional = second.optional := by
  obtain ⟨entry, inFields, ofFirst, -, key, infoFirst⟩ :=
    (fits.sides direction).exists_entry isFirst
  obtain ⟨other, inFields', ofSecond, -, key', infoSecond⟩ :=
    (fits.sides direction).exists_entry isSecond
  have isSame : entry = other :=
    sound.eq_of_name inFields inFields' (ofFirst.trans (same.trans ofSecond.symm))
  rw [infoFirst, infoSecond, isSame]
  rfl

/-- A field with keys is linked if one of its slots is. -/
theorem Fits.isMultiLinked_iff (sound : blueprint.Sound) (fits : node.Fits blueprint) :
    node.isMultiLinked field = true ↔
      ∃ slot ∈ node.inputs, slot.info.isOf field = true ∧ slot.link.isSome = true := by
  have side := fits.sides .input
  rw [isMultiLinked, List.any_eq_true]
  constructor
  · rintro ⟨place, isPlace, linked⟩
    obtain ⟨slot, isSlot, isLinked⟩ := (Option.any_eq_true ..).1 linked
    refine ⟨slot, List.mem_of_getElem? isSlot, ?_, isLinked⟩
    cases found : node.multiInputs.get? field with
    | none =>
      rw [found] at isPlace
      exact absurd isPlace List.not_mem_nil
    | some places =>
      obtain ⟨-, -, -, rfl⟩ := side.entry_of_places found
      rw [found, Option.getD_some] at isPlace
      obtain ⟨info, isInfo, isOf⟩ := getElem?_of_mem_findIdxs isPlace
      rw [getElem?_slots_input isSlot] at isInfo
      rw [Option.some.inj isInfo]
      exact isOf
  · rintro ⟨slot, isInput, isOf, isLinked⟩
    obtain ⟨place, isSlot⟩ := List.mem_iff_getElem?.1 isInput
    obtain ⟨entry, isEntry, rfl⟩ := side.exists_field (List.mem_map_of_mem isInput) isOf
    have found : node.multiInputs.get? entry.1.name = _ := side.get?_places sound.distinct isEntry
    refine ⟨place, ?_, (Option.any_eq_true ..).2 ⟨slot, isSlot, isLinked⟩⟩
    rw [found, Option.getD_some]
    exact mem_findIdxs_of_getElem? (getElem?_slots_input isSlot) isOf

/-- Whether a slot leaves its field missing. -/
def lacks (node : Node) (slot : InputSlot) : Bool :=
  if slot.info.isMulti then !slot.info.optional && !node.isMultiLinked slot.info.field
  else isUnfilled slot

theorem lacks_of_isMulti {slot : InputSlot} (isMulti : slot.info.isMulti = true) :
    node.lacks slot = (!slot.info.optional && !node.isMultiLinked slot.info.field) :=
  if_pos isMulti

theorem lacks_of_plain {slot : InputSlot} (plain : slot.info.isMulti = false) :
    node.lacks slot = isUnfilled slot :=
  if_neg (by rw [plain]; exact Bool.false_ne_true)

/-- The fields with keys that were passed once a slot was looked at. -/
def passing (slot : InputSlot) (passed : List String) : List String :=
  if slot.info.isMulti && !passed.contains slot.info.field then slot.info.field :: passed
  else passed

theorem mem_passing {slot : InputSlot} {passed : List String} :
    field ∈ passing slot passed ↔
      slot.info.isMulti = true ∧ slot.info.field = field ∨ field ∈ passed := by
  rw [passing]
  split
  · next isNew =>
    rw [Bool.and_eq_true] at isNew
    simp [isNew.1, eq_comm]
  · next old =>
    rw [iff_or_self]
    rintro ⟨isMulti, rfl⟩
    simpa [isMulti] using old

/-- One step of the search. -/
theorem mem_missingAmong_cons {slot : InputSlot} {rest : List InputSlot} {passed : List String} :
    field ∈ node.missingAmong passed (slot :: rest) ↔
      (slot.info.field = field ∧ node.lacks slot = true ∧
        (slot.info.isMulti = true → field ∉ passed)) ∨
      field ∈ node.missingAmong (passing slot passed) rest := by
  rw [missingAmong, passing]
  cases isMulti : slot.info.isMulti with
  | false =>
    rw [lacks_of_plain isMulti]
    cases isUnfilled slot <;> simp [eq_comm]
  | true =>
    rw [lacks_of_isMulti isMulti]
    cases seen : passed.contains slot.info.field with
    | true =>
      refine (or_iff_right ?_).symm
      rintro ⟨rfl, -, unseen⟩
      exact unseen rfl (List.contains_iff_mem.1 seen)
    | false =>
      have unseen : slot.info.field ∉ passed := by simpa using seen
      rw [← Bool.not_or]
      cases slot.info.optional || node.isMultiLinked slot.info.field with
      | true => exact (or_iff_right fun own => Bool.false_ne_true own.2.1).symm
      | false =>
        refine List.mem_cons.trans (or_congr_left ⟨fun same => ?_, fun own => own.1.symm⟩)
        exact ⟨same.symm, rfl, fun _ => same ▸ unseen⟩

/-- A field is missing if one of its slots leaves it missing; one with keys only if it was not
passed before. -/
theorem mem_missingAmong {slots : List InputSlot}
    (alike : ∀ first ∈ slots, ∀ second ∈ slots, first.info.field = second.info.field →
      first.info.optional = second.info.optional) {passed : List String} :
    field ∈ node.missingAmong passed slots ↔ ∃ slot ∈ slots, slot.info.field = field ∧
      node.lacks slot = true ∧ (slot.info.isMulti = true → field ∉ passed) := by
  induction slots generalizing passed with
  | nil => simp [missingAmong]
  | cons slot rest inductionHypothesis =>
    rw [mem_missingAmong_cons, List.exists_mem_cons_iff, inductionHypothesis fun first isFirst
      second isSecond => alike first (List.mem_cons_of_mem _ isFirst) second
        (List.mem_cons_of_mem _ isSecond)]
    constructor
    · rintro (own | ⟨other, isOther, ofField, lacks, unseen⟩)
      · exact Or.inl own
      · exact Or.inr ⟨other, isOther, ofField, lacks, fun keyed seen =>
          unseen keyed (mem_passing.2 (Or.inr seen))⟩
    · rintro (own | ⟨other, isOther, ofField, lacks, unseen⟩)
      · exact Or.inl own
      · by_cases first : other.info.isMulti = true ∧ slot.info.isMulti = true ∧
          slot.info.field = field
        · -- The first slot of a field tells what all of them would tell.
          obtain ⟨keyed, isMulti, same⟩ := first
          have same' : other.info.field = slot.info.field := ofField.trans same.symm
          refine Or.inl ⟨same, ?_, fun _ => unseen keyed⟩
          rw [lacks_of_isMulti keyed, same',
            alike other (List.mem_cons_of_mem _ isOther) slot List.mem_cons_self same'] at lacks
          rw [lacks_of_isMulti isMulti, lacks]
        · refine Or.inr ⟨other, isOther, ofField, lacks, fun keyed seen => ?_⟩
          obtain own | old := mem_passing.1 seen
          · exact first ⟨keyed, own⟩
          · exact unseen keyed old

theorem Fits.mem_missingFields (sound : blueprint.Sound) (fits : node.Fits blueprint) :
    field ∈ node.missingFields ↔
      ∃ slot ∈ node.inputs, slot.info.field = field ∧ node.lacks slot = true := by
  have isInfo {slot : InputSlot} (isSlot : slot ∈ node.inputs) : slot.info ∈ node.slots .input :=
    List.mem_map_of_mem isSlot
  rw [missingFields, mem_missingAmong fun first isFirst second isSecond =>
    fits.optional_eq sound (isInfo isFirst) (isInfo isSecond)]
  simp

/-! ### Nodes with the same inputs -/

/-- Two nodes with the same inputs, linked alike, where inputs that are not linked have the same
native values. -/
structure SameInputs (before after : Node) : Prop where
  slots : ∀ info, info ∈ after.slots .input ↔ info ∈ before.slots .input
  linked : ∀ slot ∈ before.inputs, ∀ copy ∈ after.inputs, copy.info = slot.info →
    copy.link.isSome = slot.link.isSome
  natives : ∀ slot ∈ before.inputs, ∀ copy ∈ after.inputs, copy.info = slot.info →
    slot.link = none → copy.native = slot.native

namespace SameInputs

theorem symm (same : before.SameInputs after) : after.SameInputs before where
  slots info := (same.slots info).symm
  linked copy isCopy slot isSlot info := (same.linked slot isSlot copy isCopy info.symm).symm
  natives copy isCopy slot isSlot info unlinked := by
    have free : slot.link = none := by
      rw [← Option.not_isSome_iff_eq_none, ← same.linked slot isSlot copy isCopy info.symm,
        unlinked]
      exact Bool.false_ne_true
    exact (same.natives slot isSlot copy isCopy info.symm free).symm

theorem exists_copy (same : before.SameInputs after) {slot : InputSlot}
    (isSlot : slot ∈ before.inputs) : ∃ copy ∈ after.inputs, copy.info = slot.info :=
  List.mem_map.1 ((same.slots slot.info).2 (List.mem_map_of_mem isSlot))

theorem isUnfilled_eq (same : before.SameInputs after) {slot copy : InputSlot}
    (isSlot : slot ∈ before.inputs) (isCopy : copy ∈ after.inputs) (info : copy.info = slot.info) :
    isUnfilled copy = isUnfilled slot := by
  rw [isUnfilled, isUnfilled, same.linked slot isSlot copy isCopy info, info]
  cases isLinked : slot.link with
  | none => rw [same.natives slot isSlot copy isCopy info isLinked]
  | some id => simp

variable (sound : blueprint.Sound) (fits : before.Fits blueprint) (fitsAfter : after.Fits blueprint)

include sound fits fitsAfter

theorem isMultiLinked_of (same : before.SameInputs after)
    (isLinked : before.isMultiLinked field = true) : after.isMultiLinked field = true := by
  obtain ⟨slot, isSlot, isOf, linked⟩ := (fits.isMultiLinked_iff sound).1 isLinked
  obtain ⟨copy, isCopy, info⟩ := same.exists_copy isSlot
  refine (fitsAfter.isMultiLinked_iff sound).2 ⟨copy, isCopy, info ▸ isOf, ?_⟩
  rw [same.linked slot isSlot copy isCopy info, linked]

theorem isMultiLinked_eq (same : before.SameInputs after) :
    after.isMultiLinked field = before.isMultiLinked field :=
  Bool.eq_iff_iff.2
    ⟨same.symm.isMultiLinked_of sound fitsAfter fits, same.isMultiLinked_of sound fits fitsAfter⟩

theorem missingFields_subset (same : before.SameInputs after)
    (isMissing : field ∈ before.missingFields) : field ∈ after.missingFields := by
  obtain ⟨slot, isSlot, ofField, lacks⟩ := (fits.mem_missingFields sound).1 isMissing
  obtain ⟨copy, isCopy, info⟩ := same.exists_copy isSlot
  refine (fitsAfter.mem_missingFields sound).2 ⟨copy, isCopy, info ▸ ofField, ?_⟩
  rw [← lacks, Node.lacks, Node.lacks, info, same.isUnfilled_eq isSlot isCopy info,
    same.isMultiLinked_eq sound fits fitsAfter]

/-- Nodes with the same inputs miss the same fields. -/
theorem mem_missingFields_iff (same : before.SameInputs after) :
    field ∈ after.missingFields ↔ field ∈ before.missingFields :=
  ⟨same.symm.missingFields_subset sound fitsAfter fits,
    same.missingFields_subset sound fits fitsAfter⟩

theorem isComplete_eq (same : before.SameInputs after) : after.isComplete = before.isComplete := by
  rw [isComplete, isComplete, Bool.eq_iff_iff, List.isEmpty_iff, List.isEmpty_iff,
    List.eq_nil_iff_forall_not_mem, List.eq_nil_iff_forall_not_mem]
  exact forall_congr' fun field => not_congr (same.mem_missingFields_iff sound fits fitsAfter)

end SameInputs

end Workflow.Node
