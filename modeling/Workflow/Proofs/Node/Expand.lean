/-
This file expands one field of a model.

What the field adds to each part of a node is stated as an equation, and its slots
are added to a side that was described by the fields before it.
-/

import Workflow.Proofs.Graph.Port
import Workflow.Proofs.Node.Blueprint

namespace Workflow

open Text

/-! ### What expanding a field adds -/

/-- The slots of a field on a side, given its keys. -/
def slotsOfField (direction : Direction) (keys : List String) (entry : Field × Role) :
    List SlotInfo :=
  if entry.2 = direction.plainRole then [SlotInfo.ofField entry.1 entry.2 none]
  else if entry.2 = direction.keyedRole then
    (slotKeys keys).map (SlotInfo.ofField entry.1 entry.2)
  else []

/-- The keys that the members of a document's node give a field. -/
def keysGiven (fragment : Object) (entry : Field × Role) : List String :=
  documentKeys (Object.get? fragment entry.1.name)

/-- The constant of a field, given the members of a document's node. -/
def constantGiven (model : Model) (fragment : Object) (name : String) : Json :=
  ((if name = typeTagField then none else Object.get? fragment name).or
    ((model.default? name).map Default.start)).getD .null

/-- The note of a field, given the members of a document's node. -/
def noteGiven (seed : Seed) (model : Model) (fragment : Object) (node : Node) (place : Nat)
    (name : String) : Option Json :=
  (Object.get? fragment name).or (node.annotationStart seed place (model.default? name))

namespace Node

/-- The inputs of a field, given its keys. -/
def inputsOfField (model : Model) (keys : List String) (entry : Field × Role) : List InputSlot :=
  (slotsOfField .input keys entry).map fun info =>
    .ofInfo info
      (if entry.2 = .input then entry.1.native? (model.default? entry.1.name) else none)

theorem expandField_eq (seed : Seed) (model : Model) (fragment : Object) (node : Node)
    (entry : Field × Role) (place : Nat) :
    expandField seed model fragment node (entry, place) =
      { node with
        inputs := node.inputs ++ inputsOfField model (keysGiven fragment entry) entry
        outputs := node.outputs ++
          (slotsOfField .output (keysGiven fragment entry) entry).map OutputSlot.ofInfo
        multiInputs :=
          if entry.2 = .multiInput then
            node.multiInputs.insert entry.1.name
              (List.range' node.inputs.length (slotKeys (keysGiven fragment entry)).length)
          else node.multiInputs
        multiOutputs :=
          if entry.2 = .multiOutput then
            node.multiOutputs.insert entry.1.name
              (List.range' node.outputs.length (slotKeys (keysGiven fragment entry)).length)
          else node.multiOutputs
        keyedValues :=
          if entry.2.isMulti then
            (documentObject (Object.get? fragment entry.1.name)).elim node.keyedValues
              (node.keyedValues.insert entry.1.name)
          else node.keyedValues
        annotations :=
          if entry.2 = .note then
            (noteGiven seed model fragment node place entry.1.name).elim node.annotations
              (node.annotations.insert entry.1.name)
          else node.annotations
        constants :=
          if entry.2 = .constant then
            node.constants.insert entry.1.name (constantGiven model fragment entry.1.name)
          else node.constants } := by
  obtain ⟨field, role⟩ := entry
  simp only [inputsOfField, slotsOfField, keysGiven, Direction.plainRole, Direction.keyedRole]
  cases role with
  | note =>
    simp only [expandField, noteGiven]
    split <;> simp [Role.isMulti, *]
  | constant => simp [expandField, constantGiven, Role.isMulti]
  | input => simp [expandField, Field.native?, Role.isMulti]
  | output => simp [expandField, Role.isMulti]
  | multiInput =>
    simp only [expandField, expandMulti]
    cases documentObject (Object.get? fragment field.name) <;> simp [Role.isMulti]
  | multiOutput =>
    simp only [expandField, expandMulti]
    cases documentObject (Object.get? fragment field.name) <;> simp [Role.isMulti]

end Node

/-! ### One more field -/

theorem fieldsOf_append (role : Role) (fields : List (Field × Role)) (entry : Field × Role) :
    fieldsOf role (fields ++ [entry]) =
      fieldsOf role fields ++ if entry.2 = role then [entry] else [] := by
  rw [fieldsOf, List.filter_append]
  refine congrArg (fieldsOf role fields ++ ·) ?_
  split <;> simp [*]

theorem mem_fieldsOf {role : Role} {fields : List (Field × Role)} {entry : Field × Role} :
    entry ∈ fieldsOf role fields ↔ entry ∈ fields ∧ entry.2 = role := by
  rw [fieldsOf, List.mem_filter, decide_eq_true_eq]

theorem keyedRole_ne_plainRole (direction : Direction) :
    direction.keyedRole ≠ direction.plainRole := by
  cases direction <;> simp [Direction.keyedRole, Direction.plainRole]

theorem isMulti_plainRole (direction : Direction) : direction.plainRole.isMulti = false := by
  cases direction <;> rfl

theorem isMulti_keyedRole (direction : Direction) : direction.keyedRole.isMulti = true := by
  cases direction <;> rfl

section Push

variable {direction : Direction} {keys : List String} {entry : Field × Role}

/-- A slot of a field is a slot without keys of the plain role or belongs to the field. -/
theorem mem_slotsOfField {info : SlotInfo} (member : info ∈ slotsOfField direction keys entry) :
    (entry.2 = direction.plainRole ∧ info = SlotInfo.ofField entry.1 entry.2 none) ∨
      (entry.2 = direction.keyedRole ∧ info.isOf entry.1.name = true) := by
  rw [slotsOfField] at member
  split at member
  · next isPlain => exact Or.inl ⟨isPlain, List.mem_singleton.1 member⟩
  · split at member
    · next isKeyed =>
      obtain ⟨key, -, rfl⟩ := List.mem_map.1 member
      refine Or.inr ⟨isKeyed, SlotInfo.isOf_iff.2 ⟨?_, rfl⟩⟩
      rw [SlotInfo.ofField, isKeyed]
      exact isMulti_keyedRole direction
    · cases member

theorem filter_plain_slotsOfField :
    (slotsOfField direction keys entry).filter (fun info => !info.isMulti) =
      (if entry.2 = direction.plainRole then [entry] else []).map fun entry =>
        SlotInfo.ofField entry.1 entry.2 none := by
  rw [slotsOfField]
  split
  · next isPlain =>
    refine List.filter_eq_self.2 fun info member => ?_
    rw [List.mem_singleton.1 member, SlotInfo.ofField, isPlain, isMulti_plainRole]
    rfl
  · split
    · next isKeyed =>
      refine List.filter_eq_nil_iff.2 fun info member => ?_
      obtain ⟨key, -, rfl⟩ := List.mem_map.1 member
      rw [SlotInfo.ofField, isKeyed, isMulti_keyedRole]
      simp
    · rfl

theorem filter_isOf_slotsOfField (name : String) :
    (slotsOfField direction keys entry).filter (SlotInfo.isOf name) =
      if entry.2 = direction.keyedRole ∧ entry.1.name = name then
        (slotKeys keys).map (SlotInfo.ofField entry.1 entry.2) else [] := by
  by_cases isKeyed : entry.2 = direction.keyedRole
  · rw [slotsOfField, if_neg (isKeyed ▸ keyedRole_ne_plainRole direction), if_pos isKeyed]
    by_cases same : entry.1.name = name
    · rw [if_pos ⟨isKeyed, same⟩]
      refine List.filter_eq_self.2 fun info member => ?_
      obtain ⟨key, -, rfl⟩ := List.mem_map.1 member
      refine SlotInfo.isOf_iff.2 ⟨?_, same⟩
      rw [SlotInfo.ofField, isKeyed]
      exact isMulti_keyedRole direction
    · rw [if_neg fun both => same both.2]
      refine List.filter_eq_nil_iff.2 fun info member isOf => same ?_
      obtain ⟨key, -, rfl⟩ := List.mem_map.1 member
      exact (SlotInfo.isOf_iff.1 isOf).2
  · rw [if_neg fun both => isKeyed both.1]
    refine List.filter_eq_nil_iff.2 fun info member isOf => ?_
    obtain ⟨isPlain, rfl⟩ | ⟨keyed, -⟩ := mem_slotsOfField member
    · have isMulti := (SlotInfo.isOf_iff.1 isOf).1
      rw [SlotInfo.ofField, isPlain, isMulti_plainRole] at isMulti
      cases isMulti
    · exact isKeyed keyed

theorem findIdxs_eq_range' {Item : Type} {accepts : Item → Bool} {items : List Item}
    (all : ∀ item ∈ items, accepts item = true) (start : Nat) :
    items.findIdxs accepts start = List.range' start items.length := by
  induction items generalizing start with
  | nil => rfl
  | cons item rest inductionHypothesis =>
    rw [List.findIdxs_cons, if_pos (all item List.mem_cons_self),
      inductionHypothesis fun other member => all other (List.mem_cons_of_mem item member)]
    rfl

theorem findIdxs_isOf_slotsOfField (name : String) (start : Nat) :
    (slotsOfField direction keys entry).findIdxs (SlotInfo.isOf name) start =
      if entry.2 = direction.keyedRole ∧ entry.1.name = name then
        List.range' start (slotKeys keys).length else [] := by
  have accepted : (slotsOfField direction keys entry).filter (SlotInfo.isOf name) = _ :=
    filter_isOf_slotsOfField name
  split
  · next both =>
    rw [slotsOfField, if_neg (both.1 ▸ keyedRole_ne_plainRole direction), if_pos both.1]
      at accepted ⊢
    rw [if_pos both, List.filter_eq_self] at accepted
    rw [findIdxs_eq_range' accepted, List.length_map]
  · next apart =>
    rw [if_neg apart, List.filter_eq_nil_iff] at accepted
    rw [List.findIdxs_eq_nil_iff]
    exact fun info member => by simpa using accepted info member

end Push

/-- A side with the slots of one more field. -/
theorem Side.push {fields : List (Field × Role)} {direction : Direction} {infos : List SlotInfo}
    {places : OrderedMap String (List Nat)} (side : Side fields direction infos places)
    {entry : Field × Role} {keys : List String}
    (fresh : entry.1.name ∉ fields.map fun entry => entry.1.name) (distinct : keys.Nodup)
    (named : "" ∉ keys) :
    Side (fields ++ [entry]) direction (infos ++ slotsOfField direction keys entry)
      (if entry.2 = direction.keyedRole then
        places.insert entry.1.name (List.range' infos.length (slotKeys keys).length)
      else places) := by
  have apart : ∀ role, ∀ other ∈ fieldsOf role fields, other.1.name ≠ entry.1.name :=
    fun role other member same => fresh (List.mem_map.2 ⟨other, (mem_fieldsOf.1 member).1, same⟩)
  have noneOf : infos.filter (SlotInfo.isOf entry.1.name) = [] := by
    refine List.filter_eq_nil_iff.2 fun info member isOf => ?_
    obtain ⟨other, isField, same⟩ := side.exists_field member isOf
    exact apart _ other isField same
  refine ⟨?_, ?_, ?_, ?_⟩
  · rw [List.filter_append, side.plain, filter_plain_slotsOfField, fieldsOf_append,
      List.map_append]
  · intro other member
    rw [List.filter_append, filter_isOf_slotsOfField]
    rw [fieldsOf_append] at member
    rcases List.mem_append.1 member with old | added
    · rw [if_neg fun both => apart _ other old both.2.symm, List.append_nil]
      exact side.keyed other old
    · split at added
      · next isKeyed =>
        rw [List.mem_singleton.1 added, if_pos ⟨isKeyed, rfl⟩, noneOf]
        exact ⟨keys, distinct, named, rfl⟩
      · cases added
  · intro info member isMulti
    rw [fieldsOf_append]
    rcases List.mem_append.1 member with old | added
    · obtain ⟨other, isField, same⟩ := side.owned info old isMulti
      exact ⟨other, List.mem_append_left _ isField, same⟩
    · obtain ⟨isPlain, rfl⟩ | ⟨isKeyed, isOf⟩ := mem_slotsOfField added
      · rw [SlotInfo.ofField, isPlain, isMulti_plainRole] at isMulti
        cases isMulti
      · refine ⟨entry, List.mem_append_right _ ?_, (SlotInfo.isOf_iff.1 isOf).2⟩
        rw [if_pos isKeyed]
        exact List.mem_singleton.2 rfl
  · have oldPlaces : places.entries = (fieldsOf direction.keyedRole fields).map fun other =>
        (other.1.name, (infos ++ slotsOfField direction keys entry).findIdxs
          (SlotInfo.isOf other.1.name)) := by
      refine side.places.trans (List.map_congr_left fun other member => ?_)
      rw [List.findIdxs_append, findIdxs_isOf_slotsOfField,
        if_neg fun both => apart _ other member both.2.symm, List.append_nil]
    rw [fieldsOf_append, List.map_append, ← oldPlaces]
    split
    · next isKeyed =>
      rw [OrderedMap.entries_insert_of_notMem, List.map_singleton, List.findIdxs_append,
        findIdxs_isOf_slotsOfField, if_pos ⟨isKeyed, rfl⟩, Nat.zero_add]
      · rw [List.findIdxs_eq_nil_iff.2 fun info member => by
          simpa using List.filter_eq_nil_iff.1 noneOf info member]
        rfl
      · intro listed
        rw [OrderedMap.keys, side.places, List.map_map] at listed
        obtain ⟨other, member, same⟩ := List.mem_map.1 listed
        exact apart _ other member same
    · exact (List.append_nil _).symm

end Workflow
