/-
This file describes one side of a node by the fields it was made from.

The slots without keys are those of the fields without keys, in their order. Every
field with keys has one slot without a key or a slot for each of its distinct keys,
and the places that the node remembers for it are exactly the places of its slots.
Removing a key, renaming one and adding one keep this; the proofs look at the slots
before and after the place that changes.
-/

import Workflow.Proofs.Node.Places
import Workflow.Proofs.OrderedMap

namespace Workflow

/-- The role of fields without keys on a side. -/
def Direction.plainRole : Direction → Role
  | .input => .input
  | .output => .output

/-- The role of fields with keys on a side. -/
def Direction.keyedRole : Direction → Role
  | .input => .multiInput
  | .output => .multiOutput

/-- The fields of a role. -/
def fieldsOf (role : Role) (fields : List (Field × Role)) : List (Field × Role) :=
  fields.filter fun entry => entry.2 = role

/-- Whether a slot belongs to a field with keys. -/
def SlotInfo.isOf (field : String) (info : SlotInfo) : Bool := info.isMulti && info.field == field

/-- A slot under another key. -/
def SlotInfo.withKey (key : String) (info : SlotInfo) : SlotInfo := { info with key := some key }

theorem SlotInfo.isOf_withKey (field key : String) (info : SlotInfo) :
    (info.withKey key).isOf field = info.isOf field := rfl

theorem SlotInfo.isOf_iff {field : String} {info : SlotInfo} :
    info.isOf field = true ↔ info.isMulti = true ∧ info.field = field := by
  rw [SlotInfo.isOf, Bool.and_eq_true, beq_iff_eq]

/-- The slots of one side, and the places remembered for its fields with keys, are those of fields
with roles. -/
structure Side (fields : List (Field × Role)) (direction : Direction) (infos : List SlotInfo)
    (places : OrderedMap String (List Nat)) : Prop where
  plain : infos.filter (fun info => !info.isMulti) =
    (fieldsOf direction.plainRole fields).map fun entry => SlotInfo.ofField entry.1 entry.2 none
  keyed : ∀ entry ∈ fieldsOf direction.keyedRole fields, ∃ keys : List String,
    keys.Nodup ∧ "" ∉ keys ∧
      infos.filter (SlotInfo.isOf entry.1.name) =
        (slotKeys keys).map (SlotInfo.ofField entry.1 entry.2)
  owned : ∀ info ∈ infos, info.isMulti = true →
    ∃ entry ∈ fieldsOf direction.keyedRole fields, info.field = entry.1.name
  places : places.entries = (fieldsOf direction.keyedRole fields).map fun entry =>
    (entry.1.name, infos.findIdxs (SlotInfo.isOf entry.1.name))

namespace Side

variable {fields : List (Field × Role)} {direction : Direction} {infos : List SlotInfo}
  {places : OrderedMap String (List Nat)}

/-- The places of a field with keys, and the field. -/
theorem entry_of_places (side : Side fields direction infos places) {field : String}
    {fieldPlaces : List Nat} (found : places.get? field = some fieldPlaces) :
    ∃ entry ∈ fieldsOf direction.keyedRole fields, entry.1.name = field ∧
      fieldPlaces = infos.findIdxs (SlotInfo.isOf field) := by
  have member := OrderedMap.mem_entries_of_get? found
  rw [side.places] at member
  obtain ⟨entry, inFields, same⟩ := List.mem_map.1 member
  obtain ⟨rfl, rfl⟩ := Prod.mk.inj same
  exact ⟨entry, inFields, rfl, rfl⟩

/-- The places that are found under the name of a field with keys. -/
theorem get?_places (side : Side fields direction infos places)
    (distinct : (fields.map fun entry => entry.1.name).Nodup) {entry : Field × Role}
    (isEntry : entry ∈ fieldsOf direction.keyedRole fields) :
    places.get? entry.1.name = some (infos.findIdxs (SlotInfo.isOf entry.1.name)) := by
  have listed : (entry.1.name, infos.findIdxs (SlotInfo.isOf entry.1.name)) ∈ places.entries := by
    rw [side.places]
    exact List.mem_map_of_mem isEntry
  have distinctKeys : places.keys.Nodup := by
    rw [OrderedMap.keys, side.places, List.map_map]
    exact distinct.sublist (List.filter_sublist.map _)
  exact OrderedMap.get?_of_mem distinctKeys listed

/-- A slot that belongs to a field with keys belongs to one of the fields. -/
theorem exists_field (side : Side fields direction infos places) {field : String}
    {info : SlotInfo} (member : info ∈ infos) (isOf : info.isOf field = true) :
    ∃ entry ∈ fieldsOf direction.keyedRole fields, entry.1.name = field := by
  obtain ⟨isMulti, ofField⟩ := SlotInfo.isOf_iff.1 isOf
  obtain ⟨entry, inFields, same⟩ := side.owned info member isMulti
  exact ⟨entry, inFields, same.symm.trans ofField⟩

/-- Changing slots of one field with keys, so that it has other keys, keeps the rest. -/
theorem of_rekeyed (side : Side fields direction infos places) (field : String)
    {after : List SlotInfo} {placesAfter : OrderedMap String (List Nat)}
    (others : ∀ accepts : SlotInfo → Bool, (∀ info, info.isOf field = true → accepts info = false) →
      after.filter accepts = infos.filter accepts)
    (rekeyed : ∀ entry ∈ fieldsOf direction.keyedRole fields, entry.1.name = field →
      ∃ keys : List String, keys.Nodup ∧ "" ∉ keys ∧
        after.filter (SlotInfo.isOf field) = (slotKeys keys).map (SlotInfo.ofField entry.1 entry.2))
    (owned : ∀ info ∈ after, info ∈ infos ∨ info.isOf field = true)
    (isField : ∃ entry ∈ fieldsOf direction.keyedRole fields, entry.1.name = field)
    (replaced : placesAfter.entries = places.entries.map fun entry =>
      (entry.1, after.findIdxs (SlotInfo.isOf entry.1))) :
    Side fields direction after placesAfter where
  plain := by
    rw [others _ fun info isOf => ?_]
    · exact side.plain
    · simp [(SlotInfo.isOf_iff.1 isOf).1]
  keyed := by
    intro entry member
    by_cases same : entry.1.name = field
    · rw [same]
      exact rekeyed entry member same
    · rw [others _ fun info isOf => ?_]
      · exact side.keyed entry member
      · simp [SlotInfo.isOf, (SlotInfo.isOf_iff.1 isOf).2, Ne.symm same]
  owned := by
    intro info member isMulti
    rcases owned info member with old | isOf
    · exact side.owned info old isMulti
    · exact isField.imp fun entry isEntry =>
        ⟨isEntry.1, (SlotInfo.isOf_iff.1 isOf).2.trans isEntry.2.symm⟩
  places := by
    rw [replaced, side.places, List.map_map]
    rfl

/-! ### Keys removed, renamed and added -/

/-- The slots of a field with keys, and its keys, when one of the slots is looked at. -/
theorem keys_split (side : Side fields direction infos places) {entry : Field × Role}
    (member : entry ∈ fieldsOf direction.keyedRole fields) {before after : List SlotInfo}
    {info : SlotInfo} (split : infos = before ++ info :: after)
    (isOf : info.isOf entry.1.name = true) :
    (before.filter (SlotInfo.isOf entry.1.name) = [] ∧
      after.filter (SlotInfo.isOf entry.1.name) = [] ∧
      info = SlotInfo.ofField entry.1 entry.2 none) ∨
    ∃ first key rest, (first ++ key :: rest).Nodup ∧ "" ∉ first ++ key :: rest ∧
      before.filter (SlotInfo.isOf entry.1.name) =
        first.map (fun key => SlotInfo.ofField entry.1 entry.2 (some key)) ∧
      after.filter (SlotInfo.isOf entry.1.name) =
        rest.map (fun key => SlotInfo.ofField entry.1 entry.2 (some key)) ∧
      info = SlotInfo.ofField entry.1 entry.2 (some key) := by
  obtain ⟨keys, distinct, named, slots⟩ := side.keyed entry member
  rw [split, List.filter_append, List.filter_cons_of_pos isOf] at slots
  cases keys with
  | nil =>
    refine Or.inl ?_
    rw [show (slotKeys []).map (SlotInfo.ofField entry.1 entry.2) =
      [SlotInfo.ofField entry.1 entry.2 none] from rfl] at slots
    obtain ⟨isNil, rest⟩ | ⟨more, -, isNil⟩ := List.append_eq_cons_iff.1 slots
    · obtain ⟨rfl, afterNil⟩ := List.cons.inj rest.symm
      exact ⟨isNil, afterNil.symm, rfl⟩
    · simp at isNil
  | cons head tail =>
    refine Or.inr ?_
    rw [show (slotKeys (head :: tail)) = (head :: tail).map some from rfl, List.map_map] at slots
    obtain ⟨first, others, isKeys, isFirst, isOthers⟩ := List.map_eq_append_iff.1 slots.symm
    obtain ⟨key, rest, rfl, isInfo, isRest⟩ := List.map_eq_cons_iff.1 isOthers
    rw [isKeys] at distinct named
    exact ⟨first, key, rest, distinct, named, isFirst.symm, isRest.symm, isInfo.symm⟩

/-- A slot of a field with another one can be removed. -/
theorem erase (side : Side fields direction infos places) {field : String} {place : Nat}
    {info : SlotInfo} (isSlot : infos[place]? = some info) (isOf : info.isOf field = true)
    (several : 1 < (infos.filter (SlotInfo.isOf field)).length) :
    Side fields direction (infos.eraseIdx place) (places.mapValues (Node.shiftPlaces place)) := by
  obtain ⟨before, after, rfl, rfl⟩ := exists_split_of_getElem? isSlot
  rw [eraseIdx_split]
  refine side.of_rekeyed field ?_ ?_ ?_ ?_ ?_
  · intro accepts excludes
    rw [List.filter_append, List.filter_append, List.filter_cons_of_neg]
    simp [excludes info isOf]
  · rintro entry member rfl
    rw [List.filter_append]
    obtain ⟨noneBefore, noneAfter, -⟩ | ⟨first, key, rest, distinct, named, isFirst, isRest, -⟩ :=
      side.keys_split member rfl isOf
    · rw [List.filter_append, List.filter_cons_of_pos isOf, noneBefore, noneAfter] at several
      simp at several
    · refine ⟨first ++ rest, distinct.sublist ?_, fun empty => named ?_, ?_⟩
      · exact (List.sublist_cons_self key rest).append_left first
      · simp only [List.mem_append, List.mem_cons] at empty ⊢
        exact empty.imp_right Or.inr
      · rw [List.filter_append, List.filter_cons_of_pos isOf, isFirst, isRest] at several
        simp only [List.length_append, List.length_cons, List.length_map] at several
        rw [isFirst, isRest, slotKeys, if_neg]
        · rw [List.map_append, List.map_append, List.map_map, List.map_map]
          rfl
        · simp only [List.isEmpty_iff, List.append_eq_nil_iff, not_and]
          rintro rfl rfl
          simp at several
  · intro other member
    refine Or.inl ?_
    simp only [List.mem_append, List.mem_cons] at member ⊢
    exact member.imp_right Or.inr
  · exact side.exists_field (List.mem_append_right _ List.mem_cons_self) isOf
  · rw [OrderedMap.entries_mapValues, side.places, List.map_map, List.map_map]
    refine List.map_congr_left fun entry _ => ?_
    simp only [Function.comp_apply, shiftPlaces_findIdxs]

/-- A slot of a field can be given a key that no slot of the field has. -/
theorem rename (side : Side fields direction infos places) {field key : String} {place : Nat}
    {info : SlotInfo} (isSlot : infos[place]? = some info) (isOf : info.isOf field = true)
    (named : key ≠ "")
    (fresh : ∀ other ∈ infos, other.isOf field = true → other.key ≠ some key) :
    Side fields direction (infos.modify place (SlotInfo.withKey key)) places := by
  obtain ⟨before, after, rfl, rfl⟩ := exists_split_of_getElem? isSlot
  rw [modify_split]
  have isOfRenamed : (info.withKey key).isOf field = true := isOf
  refine side.of_rekeyed field ?_ ?_ ?_ ?_ ?_
  · intro accepts excludes
    rw [List.filter_append, List.filter_append, List.filter_cons_of_neg, List.filter_cons_of_neg]
    · simp [excludes info isOf]
    · simp [excludes _ isOfRenamed]
  · rintro entry member rfl
    rw [List.filter_append, List.filter_cons_of_pos isOfRenamed]
    obtain ⟨noneBefore, noneAfter, rfl⟩ |
      ⟨first, old, rest, distinct, noneEmpty, isFirst, isRest, rfl⟩ :=
      side.keys_split member rfl isOf
    · refine ⟨[key], List.nodup_cons.2 ⟨by simp, List.nodup_nil⟩, by simpa using named.symm, ?_⟩
      rw [noneBefore, noneAfter]
      rfl
    · have absent : key ∉ first ++ rest := by
        intro listed
        have slot : SlotInfo.ofField entry.1 entry.2 (some key) ∈
            (before.filter (SlotInfo.isOf entry.1.name)) ++
              after.filter (SlotInfo.isOf entry.1.name) := by
          rw [isFirst, isRest, ← List.map_append]
          exact List.mem_map_of_mem listed
        simp only [List.mem_append, List.mem_filter] at slot
        obtain ⟨inBefore, accepted⟩ | ⟨inAfter, accepted⟩ := slot
        · exact fresh _ (List.mem_append_left _ inBefore) accepted rfl
        · exact fresh _ (List.mem_append_right _ (List.mem_cons_of_mem _ inAfter)) accepted rfl
      refine ⟨first ++ key :: rest, ?_, ?_, ?_⟩
      · rw [List.perm_middle.nodup_iff] at distinct ⊢
        exact List.nodup_cons.2 ⟨absent, (List.nodup_cons.1 distinct).2⟩
      · simp only [List.mem_append, List.mem_cons, not_or] at noneEmpty ⊢
        exact ⟨noneEmpty.1, named.symm, noneEmpty.2.2⟩
      · rw [isFirst, isRest, slotKeys, if_neg (by simp), List.map_map, List.map_append,
          List.map_cons]
        rfl
  · intro other member
    simp only [List.mem_append, List.mem_cons] at member ⊢
    obtain inBefore | rfl | inAfter := member
    · exact Or.inl (Or.inl inBefore)
    · exact Or.inr isOfRenamed
    · exact Or.inl (Or.inr (Or.inr inAfter))
  · exact side.exists_field (List.mem_append_right _ List.mem_cons_self) isOf
  · rw [side.places, List.map_map]
    refine List.map_congr_left fun entry _ => ?_
    simp only [Function.comp_apply, List.findIdxs_append, List.findIdxs_cons,
      SlotInfo.isOf_withKey]
    rfl

/-- A field whose slots have keys can be given a slot for a key that none of them has. -/
theorem append (side : Side fields direction infos places) {field key : String}
    {template : SlotInfo} (member : template ∈ infos) (isOf : template.isOf field = true)
    (notPlaceholder : template.key.isSome = true ∨
      1 < (infos.filter (SlotInfo.isOf field)).length)
    (named : key ≠ "")
    (fresh : ∀ other ∈ infos, other.isOf field = true → other.key ≠ some key) :
    Side fields direction (infos ++ [template.withKey key])
      (places.modify field (· ++ [infos.length])) := by
  have isOfAdded : (template.withKey key).isOf field = true := isOf
  refine side.of_rekeyed field ?_ ?_ ?_ ?_ ?_
  · intro accepts excludes
    rw [List.filter_append, List.filter_cons_of_neg (by simp [excludes _ isOfAdded])]
    exact List.append_nil _
  · rintro entry inFields rfl
    obtain ⟨keys, distinct, noneEmpty, slots⟩ := side.keyed entry inFields
    have listed : template ∈ (slotKeys keys).map (SlotInfo.ofField entry.1 entry.2) := by
      rw [← slots]
      exact List.mem_filter.2 ⟨member, isOf⟩
    have hasKeys : keys.isEmpty = false := by
      cases keys with
      | cons head tail => rfl
      | nil =>
        rw [List.mem_singleton.1 listed, slots] at notPlaceholder
        simp [SlotInfo.ofField, slotKeys] at notPlaceholder
    obtain ⟨old, -, rfl⟩ := List.mem_map.1 listed
    refine ⟨keys ++ [key], ?_, ?_, ?_⟩
    · refine List.nodup_append.2 ⟨distinct, List.nodup_cons.2 ⟨by simp, List.nodup_nil⟩, ?_⟩
      rintro other inKeys _ isKey rfl
      rw [List.mem_singleton.1 isKey] at inKeys
      have slot : SlotInfo.ofField entry.1 entry.2 (some key) ∈
          infos.filter (SlotInfo.isOf entry.1.name) := by
        rw [slots, slotKeys, if_neg (by simp [hasKeys]), List.map_map]
        exact List.mem_map_of_mem inKeys
      exact fresh _ (List.mem_filter.1 slot).1 (List.mem_filter.1 slot).2 rfl
    · simp only [List.mem_append, List.mem_singleton, not_or]
      exact ⟨noneEmpty, named.symm⟩
    · rw [List.filter_append, List.filter_cons_of_pos isOfAdded, slots, slotKeys, slotKeys,
        if_neg (by simp [hasKeys]), if_neg (by simp), List.map_append, List.map_append]
      rfl
  · intro other inAfter
    refine (List.mem_append.1 inAfter).imp_right fun added => ?_
    rw [List.mem_singleton.1 added]
    exact isOfAdded
  · exact side.exists_field member isOf
  · rw [OrderedMap.entries_modify, side.places, List.map_map, List.map_map]
    refine List.map_congr_left fun entry _ => ?_
    simp only [Function.comp_apply, List.findIdxs_append, List.findIdxs_cons, Nat.zero_add,
      List.findIdxs_nil]
    by_cases same : entry.1.name = field
    · rw [same, if_pos rfl, if_pos isOfAdded]
    · rw [if_neg same, if_neg, List.append_nil]
      exact fun accepted => same
        ((SlotInfo.isOf_iff.1 accepted).2.symm.trans (SlotInfo.isOf_iff.1 isOf).2)

end Side

end Workflow
