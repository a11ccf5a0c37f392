/-
This file says what a document lists for the keys, the inputs and the appearance of
a node, each by itself.

An input is listed if it was edited and nothing is linked to it, a field with keys
if it has any.
-/

import Workflow.Proofs.Document.Remade

namespace Workflow

/-- A map of values is read like the list of its entries. -/
theorem get?_entries (map : OrderedMap String Json) (name : String) :
    Object.get? map.entries name = map.get? name := by
  obtain ⟨entries⟩ := map
  induction entries with
  | nil => rfl
  | cons entry rest inductionHypothesis =>
    rw [Object.get?, inductionHypothesis, OrderedMap.get?, OrderedMap.get?]
    by_cases same : entry.1 = name
    · simp [same]
    · simp [same]

theorem filterMap_key_slotKeys (keys : List String) (field : Field) (role : Role) :
    ((slotKeys keys).map (SlotInfo.ofField field role)).filterMap SlotInfo.key = keys := by
  rw [List.filterMap_map, slotKeys]
  split
  · next empty =>
    rw [List.isEmpty_iff.1 empty]
    rfl
  · rw [List.filterMap_map]
    exact List.filterMap_some

theorem mem_slotKeys_congr {keys others : List String} (same : ∀ key, key ∈ keys ↔ key ∈ others)
    {key : Option String} (member : key ∈ slotKeys keys) : key ∈ slotKeys others := by
  have empty : keys.isEmpty = others.isEmpty := by
    rw [Bool.eq_iff_iff, List.isEmpty_iff, List.isEmpty_iff, List.eq_nil_iff_forall_not_mem,
      List.eq_nil_iff_forall_not_mem]
    exact forall_congr' fun key => not_congr (same key)
  rw [slotKeys] at member ⊢
  rw [← empty]
  split at member
  · next isEmpty => rwa [if_pos isEmpty]
  · next some =>
    obtain ⟨named, isKey, rfl⟩ := List.mem_map.1 member
    rw [if_neg some]
    exact List.mem_map_of_mem ((same named).1 isKey)

namespace Node

/-! ### Appearances -/

section Drawing

variable (node : Node) (withLayout : Bool)

/-- What is read from the appearance that a document has for a node, if any, is what the node
has. -/
theorem elim_appearance {Value : Type} {view : Appearance → Value} {start : Value}
    (bare : withLayout = false → node.title = none → node.displayName = none → node.color = none →
      node.extra = [] → start = view (node.appearance withLayout)) :
    (node.entry withLayout).appearance.elim start view = view (node.appearance withLayout) := by
  rw [entry]
  dsimp only
  split
  · next isBare =>
    simp only [Bool.and_eq_true, Bool.not_eq_true', Option.isNone_iff_eq_none,
      List.isEmpty_iff] at isBare
    obtain ⟨⟨⟨⟨noLayout, title⟩, displayName⟩, color⟩, extra⟩ := isBare
    exact bare noLayout title displayName color extra
  · rfl

variable {node withLayout}

/-- Nodes that are drawn alike have the same appearance in documents. -/
theorem appearance_entry_congr {other : Node} (title : other.title = node.title)
    (displayName : other.displayName = node.displayName) (color : other.color = node.color)
    (extra : other.extra = node.extra)
    (layout : withLayout = true → other.position = node.position ∧ other.size = node.size) :
    (other.entry withLayout).appearance = (node.entry withLayout).appearance := by
  rw [entry, entry, appearance, appearance, title, displayName, color, extra]
  cases withLayout with
  | false => rfl
  | true =>
    obtain ⟨position, size⟩ := layout rfl
    rw [position, size]

end Drawing

/-! ### Keys and inputs -/

section Keys

variable {blueprint : Blueprint} {node : Node} (sound : blueprint.Sound) (parted : blueprint.Parted)
  (fits : node.Fits blueprint)

/-- Keys are written from slots, places and the values that came with keys. -/
theorem part_keys_congr {before after : Node} {direction : Direction}
    (slots : after.slots direction = before.slots direction)
    (multiSlots : after.multiSlots direction = before.multiSlots direction)
    (keyedValues : after.keyedValues = before.keyedValues) :
    after.part (.keys direction) = before.part (.keys direction) := by
  have values : after.keysValue = before.keysValue := by
    unfold keysValue
    rw [keyedValues]
  rw [part, part, keyFields, keyFields, slots, multiSlots, values]

theorem keysAt_findIdxs (infos : List SlotInfo) (accepts : SlotInfo → Bool) :
    keysAt infos (infos.findIdxs accepts) = (infos.filter accepts).filterMap SlotInfo.key := by
  have found := congrArg (List.filterMap fun found : Option SlotInfo => found.bind SlotInfo.key)
    (getElem?_findIdxs accepts infos)
  rw [List.filterMap_map, List.filterMap_map] at found
  exact found

include sound parted fits

/-- What a document lists for a field with keys. -/
theorem Fits.get?_keys {direction : Direction} {entry : Field × Role}
    (isEntry : entry ∈ fieldsOf direction.keyedRole blueprint.fields) :
    Object.get? (node.part (.keys direction)) entry.1.name = node.keysWritten entry.1.name
      (((node.slots direction).filter (SlotInfo.isOf entry.1.name)).filterMap SlotInfo.key) := by
  have distinct := (parted.nodup (.keys direction)).sublist (fits.part_sublist (.keys direction))
  have written : node.part (.keys direction) =
      (fieldsOf direction.keyedRole blueprint.fields).filterMap fun entry =>
        (node.keysWritten entry.1.name (((node.slots direction).filter
          (SlotInfo.isOf entry.1.name)).filterMap SlotInfo.key)).map (Prod.mk entry.1.name) := by
    rw [part, keyFields, (fits.sides direction).places, List.filterMap_map]
    refine List.filterMap_congr fun other _ => ?_
    simp only [Function.comp_apply, keysAt_findIdxs, keysWritten]
    split <;> rfl
  refine Option.ext fun value => ?_
  rw [Object.get?_eq_some_iff distinct, written, List.mem_filterMap]
  constructor
  · rintro ⟨other, isOther, found⟩
    obtain ⟨listed, isListed, same⟩ := Option.map_eq_some_iff.1 found
    obtain ⟨name, rfl⟩ := Prod.mk.inj same
    rw [sound.eq_of_name (mem_fieldsOf.1 isOther).1 (mem_fieldsOf.1 isEntry).1 name] at isListed
    exact isListed
  · exact fun isListed => ⟨entry, isEntry, by rw [isListed]; rfl⟩

/-- The keys of a field, and what a document lists for them. -/
theorem Fits.exists_keys {direction : Direction} {entry : Field × Role}
    (isEntry : entry ∈ fieldsOf direction.keyedRole blueprint.fields) : ∃ keys : List String,
      keys.Nodup ∧ "" ∉ keys ∧
      (node.slots direction).filter (SlotInfo.isOf entry.1.name) =
        (slotKeys keys).map (SlotInfo.ofField entry.1 entry.2) ∧
      Object.get? (node.part (.keys direction)) entry.1.name =
        node.keysWritten entry.1.name keys := by
  obtain ⟨keys, distinct, named, slots⟩ := (fits.sides direction).keyed entry isEntry
  refine ⟨keys, distinct, named, slots, ?_⟩
  rw [fits.get?_keys sound parted isEntry, slots, filterMap_key_slotKeys]

/-- What a document lists for an input. -/
theorem Fits.get?_inputs {slot : InputSlot} (isInput : slot ∈ node.inputs)
    (plain : slot.info.isMulti = false) :
    Object.get? (node.part .inputs) slot.info.field =
      if slot.link.isNone then slot.edit? else none := by
  have distinct := (parted.nodup .inputs).sublist (fits.part_sublist .inputs)
  refine Option.ext fun value => ?_
  rw [Object.get?_eq_some_iff distinct, part, List.mem_filterMap]
  constructor
  · rintro ⟨other, isOther, found⟩
    rw [nativeField_eq] at found
    split at found
    · next unlinked =>
      obtain ⟨listed, isListed, same⟩ := Option.map_eq_some_iff.1 found
      obtain ⟨name, rfl⟩ := Prod.mk.inj same
      have otherPlain : other.info.isMulti = false := by
        cases isMulti : other.info.isMulti with
        | false => rfl
        | true =>
          rw [InputSlot.edit?, (fits.natives other isOther).keyed isMulti] at isListed
          cases isListed
      obtain ⟨spot, atSpot⟩ := List.mem_iff_getElem?.1 isOther
      obtain ⟨place, atPlace⟩ := List.mem_iff_getElem?.1 isInput
      obtain rfl :=
        fits.plainDistinct sound spot place other slot atSpot atPlace otherPlain plain name
      rw [atSpot] at atPlace
      rw [← Option.some.inj atPlace, if_pos unlinked]
      exact isListed
    · cases found
  · intro listed
    refine ⟨slot, isInput, ?_⟩
    rw [nativeField_eq]
    split at listed
    · next unlinked =>
      rw [if_pos unlinked, listed]
      rfl
    · cases listed

end Keys

end Node

end Workflow
