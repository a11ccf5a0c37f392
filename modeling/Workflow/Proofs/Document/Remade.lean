/-
This file describes nodes made again from what a document lists for them.

A node is made from its model or its kind, given the values of the document, and then
the inputs that the document mentions are edited. All that was listed is there again;
what was not listed is as it was, because it started so and was not edited.
-/

import Workflow.Proofs.Document.Keys
import Workflow.Proofs.Document.Parts
import Workflow.Proofs.Graph.SlotEdits

namespace Workflow

/-- The value that was given to an input, by a document or an edit. -/
def InputSlot.edit? (slot : InputSlot) : Option Json :=
  slot.native.bind fun native => if native.explicit then some native.value else none

/-- The input with its value set if the members of a document have one. -/
def InputSlot.given (fields : Object) (slot : InputSlot) : InputSlot :=
  if slot.info.isMulti then slot
  else
    match Object.get? fields slot.info.field with
    | some value => { slot with native := slot.native.map (NativeValue.edited value) }
    | none => slot

theorem InputSlot.info_given (fields : Object) (slot : InputSlot) :
    (slot.given fields).info = slot.info := by
  unfold given
  split
  · rfl
  · split <;> rfl

theorem InputSlot.given_cons {key : String} {value : Json} {fields : Object}
    (fresh : key ∉ Object.keys fields) (slot : InputSlot) :
    InputSlot.given ((key, value) :: fields) slot =
      InputSlot.given fields (if !slot.info.isMulti && slot.info.field == key then
        { slot with native := slot.native.map (NativeValue.edited value) } else slot) := by
  unfold given
  cases isMulti : slot.info.isMulti with
  | true => simp [isMulti]
  | false =>
    by_cases same : slot.info.field = key
    · simp [isMulti, same, Object.get?, Object.get?_eq_none_iff.2 fresh]
    · simp [isMulti, same, Object.get?, Ne.symm same]

namespace Node

theorem nativeField_eq (slot : InputSlot) : nativeField slot =
    if slot.link.isNone then slot.edit?.map (Prod.mk slot.info.field) else none := by
  rw [nativeField, InputSlot.edit?]
  cases slot.native with
  | none => simp
  | some native =>
    cases native.explicit <;> cases slot.link <;> simp

/-- Inputs without keys are told apart by their fields. -/
def PlainDistinct (node : Node) : Prop :=
  ∀ (place spot : Nat) (first second : InputSlot),
    node.inputs[place]? = some first → node.inputs[spot]? = some second →
    first.info.isMulti = false → second.info.isMulti = false →
      first.info.field = second.info.field → place = spot

variable {blueprint : Blueprint} {node : Node}

theorem Fits.plainDistinct (sound : blueprint.Sound) (fits : node.Fits blueprint) :
    node.PlainDistinct := by
  intro place spot first second isFirst isSecond plainFirst plainSecond same
  have slotFirst := getElem?_slots_input isFirst
  have slotSecond := getElem?_slots_input isSecond
  have side := fits.sides .input
  obtain ⟨one, -, infoFirst⟩ :=
    exists_plain_field side (List.mem_of_getElem? slotFirst) plainFirst
  obtain ⟨other, -, infoSecond⟩ :=
    exists_plain_field side (List.mem_of_getElem? slotSecond) plainSecond
  refine (fits.place_eq_of_name sound slotFirst slotSecond ?_).2
  rw [SlotInfo.name, SlotInfo.name, same, infoFirst, infoSecond]
  rfl

/-- Setting a value sets it on the input of its field. -/
theorem setNative_eq (distinct : node.PlainDistinct) (key : String) (value : Json) :
    node.setNative (key, value) = { node with
      inputs := node.inputs.map fun slot =>
        if !slot.info.isMulti && slot.info.field == key then
          { slot with native := slot.native.map (NativeValue.edited value) }
        else slot } := by
  rw [setNative]
  cases found : node.inputFor? key with
  | none =>
    rw [inputFor?, List.findIdx?_eq_none_iff] at found
    refine congrArg (fun inputs => { node with inputs := inputs }) (Eq.symm ?_)
    refine (List.map_congr_left fun slot member => if_neg fun isKey => ?_).trans (List.map_id' _)
    have refused := found slot.info (List.mem_map_of_mem member)
    rw [isKey] at refused
    cases refused
  | some place =>
    rw [inputFor?, List.findIdx?_eq_some_iff_getElem] at found
    obtain ⟨inRange, isKey, -⟩ := found
    rw [Bool.and_eq_true, Bool.not_eq_true', beq_iff_eq] at isKey
    have inInputs : place < node.inputs.length := by
      rwa [slots, List.length_map] at inRange
    have isFound : (node.slots .input)[place] = node.inputs[place].info := List.getElem_map ..
    rw [isFound] at isKey
    have only : ∀ (spot : Nat) (slot : InputSlot), node.inputs[spot]? = some slot →
        ((!slot.info.isMulti && slot.info.field == key) = true ↔ spot = place) := by
      intro spot slot isSlot
      rw [Bool.and_eq_true, Bool.not_eq_true', beq_iff_eq]
      constructor
      · rintro ⟨plain, same⟩
        exact distinct spot place slot _ isSlot (List.getElem?_eq_getElem inInputs) plain isKey.1
          (same.trans isKey.2.symm)
      · rintro rfl
        rw [List.getElem?_eq_getElem inInputs] at isSlot
        rw [← Option.some.inj isSlot]
        exact isKey
    exact congrArg (fun inputs => { node with inputs := inputs }) (modify_eq_map only)

theorem foldl_setNative (distinct : node.PlainDistinct) {fields : Object}
    (keys : (Object.keys fields).Nodup) :
    fields.foldl Node.setNative node =
      { node with inputs := node.inputs.map (InputSlot.given fields) } := by
  induction fields generalizing node with
  | nil =>
    have same : InputSlot.given [] = fun slot => slot := by
      funext slot
      rw [InputSlot.given, Object.get?, ite_self]
    rw [same, List.map_id']
    rfl
  | cons entry rest inductionHypothesis =>
    obtain ⟨key, value⟩ := entry
    obtain ⟨fresh, keysRest⟩ := List.nodup_cons.1 keys
    rw [List.foldl_cons, setNative_eq distinct, inductionHypothesis ?_ keysRest]
    · refine congrArg (fun inputs => { node with inputs := inputs }) ?_
      rw [List.map_map]
      exact List.map_congr_left fun slot _ => (InputSlot.given_cons fresh slot).symm
    · intro place spot first second isFirst isSecond plainFirst plainSecond same
      rw [List.getElem?_map] at isFirst isSecond
      obtain ⟨one, isOne, rfl⟩ := Option.map_eq_some_iff.1 isFirst
      obtain ⟨other, isOther, rfl⟩ := Option.map_eq_some_iff.1 isSecond
      have info (slot : InputSlot) : (if !slot.info.isMulti && slot.info.field == key then
          { slot with native := slot.native.map (NativeValue.edited value) } else slot).info =
            slot.info := by
        split <;> rfl
      rw [info] at plainFirst plainSecond
      rw [info, info] at same
      exact distinct place spot one other isOne isOther plainFirst plainSecond same

/-- What an entry does to a node that it was made for. -/
theorem applyEntry_eq (distinct : node.PlainDistinct) (options : ImportOptions) (grid : Point)
    (index : Nat) {entry : NodeEntry} (keys : (Object.keys entry.fields).Nodup) :
    node.applyEntry options grid index entry = { node with
      order := some index
      position := entry.appearance.elim grid fun appearance =>
        if options.layout then appearance.position.getD grid else grid
      size := entry.appearance.elim node.size fun appearance =>
        if options.layout then appearance.size.getD node.size else node.size
      title := entry.appearance.elim node.title Appearance.title
      displayName := entry.appearance.elim node.displayName Appearance.name
      color := entry.appearance.elim node.color Appearance.color
      extra := entry.appearance.elim node.extra Appearance.others
      inputs := node.inputs.map (InputSlot.given entry.fields) } := by
  rw [applyEntry]
  cases entry.appearance with
  | none =>
    refine (foldl_setNative ?_ keys).trans rfl
    exact distinct
  | some appearance =>
    refine (foldl_setNative ?_ keys).trans rfl
    exact distinct

/-! ### Nodes made from the values of a document -/

/-- A node that was made from a blueprint and the values of a document, before inputs are edited. -/
structure Remade (blueprint : Blueprint) (fragment : Object) (node : Node) : Prop where
  fits : node.Fits blueprint
  tagged : node.Tagged blueprint
  keys : ∀ direction : Direction, ∀ entry ∈ fieldsOf direction.keyedRole blueprint.fields,
    (node.slots direction).filter (SlotInfo.isOf entry.1.name) =
      (slotKeys (keysGiven fragment entry)).map (SlotInfo.ofField entry.1 entry.2)
  keyedValues : ∀ direction : Direction, ∀ entry ∈ fieldsOf direction.keyedRole blueprint.fields,
    node.keyedValues.get? entry.1.name = documentObject (Object.get? fragment entry.1.name)
  unedited : ∀ slot ∈ node.inputs, slot.edit? = none
  notes : ∀ entry ∈ fieldsOf .note blueprint.fields, ∃ seed other place,
    node.annotations.get? entry.1.name = (Object.get? fragment entry.1.name).or
      (annotationStart seed other place (blueprint.default? entry.1.name))
  constants : ∀ name ∈ blueprint.constants, name ≠ typeTagField → ∀ value,
    Object.get? fragment name = some value → node.constants.get? name = some value
  undrawn : node.title = none ∧ node.displayName = none ∧ node.color = none ∧ node.extra = []
  shown : node.previewOnly = false

theorem remade_ofModel {modelRef : String} {model : Model}
    (sound : (Blueprint.ofModel modelRef model).Sound) (seed : Seed) (id : NodeId)
    (fragment : Object) :
    (ofModel seed id modelRef model fragment).Remade (.ofModel modelRef model) fragment := by
  have made := made_ofModel sound seed id fragment
  have bare := bare_ofModel seed id modelRef model fragment
  refine ⟨made.fits (congrArg Node.modelRef bare :), made.tagged, made.keys, made.keyedValues,
    fun slot member => ?_, fun entry isNote => ?_, fun name isConstant free value given => ?_,
    ⟨(congrArg Node.title bare :), (congrArg Node.displayName bare :),
      (congrArg Node.color bare :), (congrArg Node.extra bare :)⟩,
    (congrArg Node.previewOnly bare :)⟩
  · rw [InputSlot.edit?]
    cases isMulti : slot.info.isMulti with
    | true =>
      rw [made.keyed slot member isMulti]
      rfl
    | false =>
      obtain ⟨entry, isEntry, info⟩ :=
        exists_plain_field (made.sides .input) (List.mem_map_of_mem member) isMulti
      rw [made.natives slot member isMulti entry isEntry (by rw [info]; rfl), Field.native?]
      cases NativeKind.ofType entry.1.type <;> rfl
  · obtain ⟨place, isNoted⟩ := made.notes entry isNote
    exact ⟨seed, _, place, isNoted⟩
  · obtain ⟨entry, isEntry, rfl⟩ := List.mem_map.1 isConstant
    rw [made.constants entry isEntry, constantGiven, if_neg free, given]
    rfl

theorem remade_primitive (id : NodeId) (kind : NativeKind) (fragment : Object) :
    (primitive id kind ((Object.get? fragment primitiveValueField).getD .null)).Remade
      (.ofKind kind) fragment where
  fits := fits_primitive id kind _
  tagged _ member := absurd member List.not_mem_nil
  keys direction entry member := by cases direction <;> exact absurd member List.not_mem_nil
  keyedValues direction entry member := by cases direction <;> exact absurd member List.not_mem_nil
  unedited _ member := absurd member List.not_mem_nil
  notes _ member := absurd member List.not_mem_nil
  constants name isConstant _ value given := by
    rw [List.mem_singleton.1 isConstant] at given ⊢
    rw [given]
    rfl
  undrawn := ⟨rfl, rfl, rfl, rfl⟩
  shown := rfl

end Node

end Workflow
