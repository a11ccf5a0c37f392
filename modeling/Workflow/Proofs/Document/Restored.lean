/-
This file proves that a node made again from what a document lists for it lists the
same.

Keys that an object lists come back in ascending order, so slots may change places;
but the same slots are there, and the values and the edits are those that were listed.
-/

import Workflow.Proofs.Document.Listed
import Workflow.Proofs.Graph.Operations

namespace Workflow.Node

/-- A node in place of another one, made from what a document lists for it: it has the same slots,
and all that was listed. -/
structure Restores (blueprint : Blueprint) (withLayout : Bool) (before after : Node) : Prop where
  fits : after.Fits blueprint
  tagged : after.Tagged blueprint
  slots : ∀ direction, ∀ info ∈ before.slots direction, info ∈ after.slots direction
  listed : ∀ part, part ≠ .inputs → ∀ name ∈ blueprint.names part,
    name ∉ reservedFields ∨ Object.get? (before.part part) name = none →
    Object.get? (after.part part) name = Object.get? (before.part part) name
  edits : ∀ slot ∈ after.inputs, slot.info.isMulti = false → slot.info.field ∉ reservedFields →
    slot.edit? = Object.get? (before.part .inputs) slot.info.field
  drawn : (after.entry withLayout).appearance = (before.entry withLayout).appearance

/-! ### Nodes restored -/

section Restored

variable {blueprint : Blueprint} {before made : Node} (sound : blueprint.Sound)
  (parted : blueprint.Parted) (fits : before.Fits blueprint)
  (keysFree : ∀ direction, ∀ name ∈ blueprint.names (.keys direction), name ∉ reservedFields)
  {withLayout : Bool} (remade : made.Remade blueprint (before.entry withLayout).fields)

include sound parted fits keysFree remade

variable (withLayout) in
omit sound remade in
/-- The keys of a field that is made again. -/
theorem keys_remade {direction : Direction} {entry : Field × Role}
    (isEntry : entry ∈ fieldsOf direction.keyedRole blueprint.fields) {keys : List String}
    (written : Object.get? (before.part (.keys direction)) entry.1.name =
      before.keysWritten entry.1.name keys) :
    Object.get? (before.entry withLayout).fields entry.1.name =
        before.keysWritten entry.1.name keys ∧
      keysGiven (before.entry withLayout).fields entry =
        documentKeys (before.keysWritten entry.1.name keys) := by
  have isName : entry.1.name ∈ blueprint.names (.keys direction) := List.mem_map_of_mem isEntry
  have given := fits.get?_of_names parted withLayout isName (keysFree direction _ isName)
  rw [written] at given
  exact ⟨given, by rw [keysGiven, given]⟩

theorem slots_remade (direction : Direction) (info : SlotInfo)
    (member : info ∈ before.slots direction) : info ∈ made.slots direction := by
  have side := fits.sides direction
  cases isMulti : info.isMulti with
  | true =>
    obtain ⟨entry, isEntry, ofField⟩ := side.owned info member isMulti
    obtain ⟨keys, distinct, named, slots, written⟩ := fits.exists_keys sound parted isEntry
    have listed : info ∈ (before.slots direction).filter (SlotInfo.isOf entry.1.name) :=
      List.mem_filter.2 ⟨member, SlotInfo.isOf_iff.2 ⟨isMulti, ofField⟩⟩
    rw [slots] at listed
    obtain ⟨key, isKey, rfl⟩ := List.mem_map.1 listed
    obtain ⟨-, given⟩ := keys_remade parted fits keysFree withLayout isEntry written
    have isGiven : key ∈ slotKeys (keysGiven (before.entry withLayout).fields entry) := by
      rw [given]
      exact mem_slotKeys_congr
        (fun key => (mem_documentKeys_keysWritten distinct named key).symm) isKey
    have isMade := List.mem_map_of_mem (f := SlotInfo.ofField entry.1 entry.2) isGiven
    rw [← remade.keys direction entry isEntry] at isMade
    exact List.mem_of_mem_filter isMade
  | false =>
    have listed : info ∈ (before.slots direction).filter fun info => !info.isMulti :=
      List.mem_filter.2 ⟨member, by rw [isMulti]; rfl⟩
    rw [side.plain, ← (remade.fits.sides direction).plain] at listed
    exact List.mem_of_mem_filter listed

theorem listed_remade (part : Part) (apart : part ≠ .inputs) (name : String)
    (isName : name ∈ blueprint.names part)
    (free : name ∉ reservedFields ∨ Object.get? (before.part part) name = none) :
    Object.get? (made.part part) name = Object.get? (before.part part) name := by
  have given : Object.get? (before.entry withLayout).fields name =
      Object.get? (before.part part) name := by
    by_cases reserved : name ∈ reservedFields
    · rw [fits.get?_fields parted, if_pos reserved, free.resolve_left (not_not_intro reserved)]
    · exact fits.get?_of_names parted withLayout isName reserved
  cases part with
  | inputs => exact absurd rfl apart
  | notes =>
    rw [Node.part, Node.part, get?_entries, get?_entries]
    rw [Node.part, get?_entries] at given
    obtain ⟨entry, isNote, rfl⟩ := List.mem_map.1 isName
    obtain ⟨seed, other, place, isNoted⟩ := remade.notes entry isNote
    rw [isNoted, given]
    cases found : before.annotations.get? entry.1.name with
    | some value => rfl
    | none =>
      -- A note that a fresh node would have is never missing.
      have unknown : annotationStart seed other place (blueprint.default? entry.1.name) = none := by
        rw [← Option.not_isSome_iff_eq_none]
        intro known
        have present := fits.minted entry isNote seed other place known
        rw [found] at present
        cases present
      rw [unknown]
      rfl
  | constants =>
    rw [Node.part, Node.part, get?_entries, get?_entries]
    rw [Node.part, get?_entries] at given
    have isConstant : name ∈ before.constants.keys := fits.constants ▸ isName
    obtain ⟨value, isValue⟩ := OrderedMap.mem_keys_iff.1 isConstant
    rw [isValue]
    rw [Node.part, get?_entries, isValue] at free
    refine remade.constants name isName (fun same => ?_) value (given.trans isValue)
    refine free.resolve_right (Option.some_ne_none value) ?_
    rw [same]
    exact List.mem_cons_self
  | keys direction =>
    obtain ⟨entry, isEntry, rfl⟩ := List.mem_map.1 isName
    obtain ⟨keys, distinct, named, -, written⟩ := fits.exists_keys sound parted isEntry
    obtain ⟨isGiven, areGiven⟩ := keys_remade parted fits keysFree withLayout isEntry written
    rw [remade.fits.get?_keys sound parted isEntry, remade.keys direction entry isEntry,
      filterMap_key_slotKeys, areGiven, written]
    refine keysWritten_documentKeys distinct named ?_
    rw [remade.keyedValues direction entry isEntry, isGiven]

omit keysFree in
/-- An input of the node made again counts as edited if the document mentions it. -/
theorem edits_remade {slot : InputSlot} (isInput : slot ∈ made.inputs)
    (plain : slot.info.isMulti = false) (free : slot.info.field ∉ reservedFields) :
    (slot.given (before.entry withLayout).fields).edit? =
      Object.get? (before.part .inputs) slot.info.field := by
  have isName : slot.info.field ∈ blueprint.names .inputs := by
    rw [← remade.fits.map_field_inputs]
    exact List.mem_map_of_mem (List.mem_filter.2 ⟨isInput, by rw [plain]; rfl⟩)
  have given := fits.get?_of_names parted withLayout isName free
  rw [InputSlot.given, if_neg (by rw [plain]; exact Bool.false_ne_true), given]
  cases found : Object.get? (before.part .inputs) slot.info.field with
  | none => exact remade.unedited slot isInput
  | some value =>
    obtain ⟨entry, isEntry, name⟩ := List.mem_map.1 isName
    rw [← fits.map_field_inputs] at isName
    obtain ⟨old, listed, sameField⟩ := List.mem_map.1 isName
    obtain ⟨isOld, plainOld⟩ := List.mem_filter.1 listed
    rw [Bool.not_eq_true'] at plainOld
    -- The value was that of an input, so the field has native values.
    have wasEdited := fits.get?_inputs sound parted isOld plainOld
    rw [sameField, found] at wasEdited
    have native : old.native.isSome := by
      by_contra absent
      rw [InputSlot.edit?, Option.not_isSome_iff_eq_none.1 absent] at wasEdited
      simp at wasEdited
    have one := ((fits.natives old isOld).plain plainOld entry isEntry
      (name.trans sameField.symm)).isSome_eq
    have other := ((remade.fits.natives slot isInput).plain plain entry isEntry name).isSome_eq
    rw [native, ← other] at one
    obtain ⟨start, isStart⟩ := Option.isSome_iff_exists.1 one.symm
    rw [InputSlot.edit?, isStart]
    rfl

omit parted fits keysFree in
/-- The node made again is drawn like the one that its entry was written for. -/
theorem appearance_applyEntry (options : ImportOptions) (layout : options.layout = withLayout)
    (grid : Point) (index : Nat) :
    ((made.applyEntry options grid index (before.entry withLayout)).entry withLayout).appearance =
      (before.entry withLayout).appearance := by
  obtain ⟨title, displayName, color, extra⟩ := remade.undrawn
  rw [made.applyEntry_eq (remade.fits.plainDistinct sound) options grid index
    (ascending_fields before withLayout).nodup]
  refine appearance_entry_congr ?_ ?_ ?_ ?_ fun isLaidOut => ⟨?_, ?_⟩
  · exact elim_appearance before withLayout fun _ none _ _ _ => title.trans none.symm
  · exact elim_appearance before withLayout fun _ _ none _ _ => displayName.trans none.symm
  · exact elim_appearance before withLayout fun _ _ _ none _ => color.trans none.symm
  · exact elim_appearance before withLayout fun _ _ _ _ empty => extra.trans empty.symm
  · refine (elim_appearance before withLayout fun isBare => ?_).trans ?_
    · rw [isLaidOut] at isBare
      cases isBare
    · rw [layout, isLaidOut]
      rfl
  · refine (elim_appearance before withLayout fun isBare => ?_).trans ?_
    · rw [isLaidOut] at isBare
      cases isBare
    · rw [layout, isLaidOut]
      rfl

/-- The node made again from its entry restores it. -/
theorem restores_applyEntry (options : ImportOptions) (layout : options.layout = withLayout)
    (grid : Point) (index : Nat) :
    before.Restores blueprint withLayout
      (made.applyEntry options grid index (before.entry withLayout)) := by
  have edited := made.applyEntry_eq (remade.fits.plainDistinct sound) options grid index
    (ascending_fields before withLayout).nodup
  have revises : made.Revises False
      (made.applyEntry options grid index (before.entry withLayout)) := made.revises_applyEntry ..
  have tag := revises.tag.resolve_left not_false
  have infos : (made.inputs.map (InputSlot.given (before.entry withLayout).fields)).map
      InputSlot.info = made.inputs.map InputSlot.info := by
    rw [List.map_map]
    exact List.map_congr_left fun slot _ => InputSlot.info_given _ slot
  have slots : ∀ direction,
      (made.applyEntry options grid index (before.entry withLayout)).slots direction =
        made.slots direction := by
    intro direction
    rw [edited]
    cases direction with
    | input => exact infos
    | output => rfl
  refine ⟨revises.fits blueprint remade.fits,
    fun entry isEntry isTag => tag.trans (remade.tagged entry isEntry isTag),
    fun direction info member => ?_, fun part apart name isName free => ?_,
    fun slot member plain free => ?_, ?_⟩
  · rw [slots]
    exact slots_remade sound parted fits keysFree remade direction info member
  · rw [← listed_remade sound parted fits keysFree remade part apart name isName free]
    refine congrArg (Object.get? · name) ?_
    cases part with
    | inputs => exact absurd rfl apart
    | keys direction =>
      rw [part_keys_congr (slots direction)]
      all_goals rw [edited]
      cases direction <;> rfl
    | _ =>
      rw [edited]
      rfl
  · rw [edited] at member
    obtain ⟨start, isStart, rfl⟩ := List.mem_map.1 member
    rw [InputSlot.info_given] at plain free ⊢
    exact edits_remade sound parted fits remade isStart plain free
  · exact appearance_applyEntry sound remade options layout grid index

end Restored

/-! ### Nodes linked again -/

theorem part_unlinked (node : Node) (part : Part) (apart : part ≠ .inputs) :
    node.unlinked.part part = node.part part := by
  cases part with
  | inputs => exact absurd rfl apart
  | keys direction =>
    exact part_keys_congr (node.slots_unlinked direction) (node.multiSlots_unlinked direction) rfl
  | _ => rfl

namespace Restores

variable {blueprint : Blueprint} {withLayout : Bool} {before after : Node}

/-- Links play no part. -/
theorem of_unlinked (restores : before.Restores blueprint withLayout after) {other : Node}
    (same : other.unlinked = after.unlinked) : before.Restores blueprint withLayout other where
  fits := (Retouches.of_unlinked same).fits restores.fits
  tagged entry isEntry isTag := by
    have constants : other.constants = after.constants := (congrArg Node.constants same :)
    rw [constants]
    exact restores.tagged entry isEntry isTag
  slots direction := by
    rw [(Retouches.of_unlinked same).slots]
    exact restores.slots direction
  listed part apart := by
    rw [← part_unlinked other part apart, same, part_unlinked after part apart]
    exact restores.listed part apart
  edits slot member := by
    have listed : { slot with link := none } ∈ after.unlinked.inputs := by
      rw [← same]
      exact List.mem_map_of_mem member
    obtain ⟨old, isOld, isSame⟩ := List.mem_map.1 listed
    have info : old.info = slot.info := (congrArg InputSlot.info isSame :)
    have native : old.native = slot.native := (congrArg InputSlot.native isSame :)
    rw [← info, InputSlot.edit?, ← native]
    exact restores.edits old isOld
  drawn := (congrArg (fun node : Node => (node.entry withLayout).appearance) same :).trans
    restores.drawn

variable (sound : blueprint.Sound) (parted : blueprint.Parted) (fits : before.Fits blueprint)
  (tagged : before.Tagged blueprint) (restores : before.Restores blueprint withLayout after)

include parted fits tagged restores

theorem documentType_eq : after.documentType = before.documentType := by
  have modelRef : after.modelRef = before.modelRef :=
    restores.fits.modelRef.trans fits.modelRef.symm
  have tag : after.constants.get? typeTagField = before.constants.get? typeTagField := by
    by_cases isConstant : typeTagField ∈ blueprint.constants
    · obtain ⟨entry, isEntry, name⟩ := parted.tag isConstant
      rw [tagged entry isEntry name, restores.tagged entry isEntry name]
    · have absent : typeTagField ∉ before.constants.keys := by
        rw [fits.constants]
        exact isConstant
      have absentAfter : typeTagField ∉ after.constants.keys := by
        rw [restores.fits.constants]
        exact isConstant
      rw [OrderedMap.get?_eq_none_iff.2 absent, OrderedMap.get?_eq_none_iff.2 absentAfter]
  rw [documentType, documentType, tag, modelName, modelName, modelRef]

include sound

/-- A restored node has the same entry if its inputs are linked only where inputs were linked. -/
theorem entry_eq
    (linked : ∀ slot ∈ after.inputs, slot.info.isMulti = false → slot.link.isSome →
      ∃ old ∈ before.inputs, old.info = slot.info ∧ old.link.isSome) :
    after.entry withLayout = before.entry withLayout := by
  have type := documentType_eq parted fits tagged restores
  have fields : (after.entry withLayout).fields = (before.entry withLayout).fields := by
    refine fits.fields_eq restores.fits parted withLayout fun part name isName free => ?_
    by_cases isInputs : part = .inputs
    · subst isInputs
      rw [← restores.fits.map_field_inputs] at isName
      obtain ⟨slot, listed, rfl⟩ := List.mem_map.1 isName
      obtain ⟨isInput, plain⟩ := List.mem_filter.1 listed
      rw [Bool.not_eq_true'] at plain
      rw [restores.fits.get?_inputs sound parted isInput plain,
        restores.edits slot isInput plain free]
      split
      · rfl
      · next isLinked =>
        obtain ⟨old, isOld, info, oldLinked⟩ := linked slot isInput plain
          (Option.isSome_iff_ne_none.2 fun none => isLinked (Option.isNone_iff_eq_none.2 none))
        have hidden := fits.get?_inputs sound parted isOld (info ▸ plain)
        rw [if_neg (by rw [Option.isNone_eq_false_iff.2 oldLinked]; exact Bool.false_ne_true),
          info] at hidden
        exact hidden.symm
    · exact restores.listed part isInputs name isName (Or.inl free)
  calc after.entry withLayout
      = ⟨after.documentType, (after.entry withLayout).appearance,
          (after.entry withLayout).fields⟩ := rfl
    _ = ⟨before.documentType, (before.entry withLayout).appearance,
          (before.entry withLayout).fields⟩ := by rw [type, restores.drawn, fields]
    _ = before.entry withLayout := rfl

end Restores

end Workflow.Node
