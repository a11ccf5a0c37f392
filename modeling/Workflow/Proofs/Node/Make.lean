/-
This file describes the nodes that models make.

The fields of a model are expanded one after the other. By induction over the fields,
the slots of the node are those of the fields, the keys and the values are those that
the document gives, and inputs hold their defaults.
-/

import Workflow.Proofs.Node.Expand

namespace Workflow

open Text

/-! ### All fields -/

theorem distinctKeys_spec (before keys : List String) :
    (distinctKeys before keys).Nodup ∧
      ∀ key ∈ distinctKeys before keys, key ≠ "" ∧ key ∉ before := by
  induction keys generalizing before with
  | nil => exact ⟨List.nodup_nil, by simp [distinctKeys]⟩
  | cons key rest inductionHypothesis =>
    rw [distinctKeys]
    split
    · exact inductionHypothesis before
    · next isNew =>
      simp only [Bool.or_eq_true, String.isEmpty_iff, List.contains_iff_mem, not_or] at isNew
      obtain ⟨distinct, others⟩ := inductionHypothesis (key :: before)
      refine ⟨List.nodup_cons.2 ⟨fun listed => (others key listed).2 List.mem_cons_self, distinct⟩,
        ?_⟩
      intro other member
      rcases List.mem_cons.1 member with rfl | later
      · exact isNew
      · exact ⟨(others other later).1, fun seen =>
          (others other later).2 (List.mem_cons_of_mem key seen)⟩

theorem documentKeys_spec (given : Option Json) :
    (documentKeys given).Nodup ∧ "" ∉ documentKeys given := by
  have spec (keys : List String) : (distinctKeys [] keys).Nodup ∧ "" ∉ distinctKeys [] keys :=
    ⟨(distinctKeys_spec [] keys).1, fun empty => ((distinctKeys_spec [] keys).2 "" empty).1 rfl⟩
  rw [documentKeys.eq_def]
  split
  · exact spec _
  · exact spec _
  · exact ⟨List.nodup_nil, List.not_mem_nil⟩

namespace Node

/-- What a node is once some fields of its model are expanded. -/
structure Made (seed : Seed) (model : Model) (fragment : Object) (fields : List (Field × Role))
    (node : Node) : Prop where
  sides : ∀ direction, Side fields direction (node.slots direction) (node.multiSlots direction)
  keys : ∀ direction : Direction, ∀ entry ∈ fieldsOf direction.keyedRole fields,
    (node.slots direction).filter (SlotInfo.isOf entry.1.name) =
      (slotKeys (keysGiven fragment entry)).map (SlotInfo.ofField entry.1 entry.2)
  keyedValues : ∀ direction : Direction, ∀ entry ∈ fieldsOf direction.keyedRole fields,
    node.keyedValues.get? entry.1.name = documentObject (Object.get? fragment entry.1.name)
  keyedNames : ∀ name ∈ node.keyedValues.keys, name ∈ fields.map fun entry => entry.1.name
  keyed : ∀ slot ∈ node.inputs, slot.info.isMulti = true → slot.native = none
  natives : ∀ slot ∈ node.inputs, slot.info.isMulti = false →
    ∀ entry ∈ fieldsOf .input fields, entry.1.name = slot.info.field →
    slot.native = entry.1.native? (model.default? entry.1.name)
  follows : node.annotations.Follows ((fieldsOf .note fields).map fun entry => entry.1.name)
  notes : ∀ entry ∈ fieldsOf .note fields, ∃ place,
    node.annotations.get? entry.1.name = noteGiven seed model fragment node place entry.1.name
  constantNames : node.constants.keys = (fieldsOf .constant fields).map fun entry => entry.1.name
  constants : ∀ entry ∈ fieldsOf .constant fields,
    node.constants.get? entry.1.name = some (constantGiven model fragment entry.1.name)

/-- A node before any field is expanded. -/
def unmade (id : NodeId) (modelRef : String) : Node :=
  { id := id, modelRef := modelRef, position := .origin, size := defaultNodeSize }

variable {seed : Seed} {model : Model} {fragment : Object}

theorem made_unmade (id : NodeId) (modelRef : String) :
    (unmade id modelRef).Made seed model fragment [] where
  sides direction := by
    cases direction <;> exact ⟨rfl, fun _ member => absurd member List.not_mem_nil,
      fun _ member => absurd member List.not_mem_nil, rfl⟩
  keys _ _ member := absurd member List.not_mem_nil
  keyedValues _ _ member := absurd member List.not_mem_nil
  keyedNames _ member := absurd member List.not_mem_nil
  keyed _ member := absurd member List.not_mem_nil
  natives _ member := absurd member List.not_mem_nil
  follows := rfl
  notes _ member := absurd member List.not_mem_nil
  constantNames := rfl
  constants _ member := absurd member List.not_mem_nil

section Step

variable {fields : List (Field × Role)} {node : Node} {entry : Field × Role} {place : Nat}

theorem slots_expandField (direction : Direction) :
    (expandField seed model fragment node (entry, place)).slots direction =
      node.slots direction ++ slotsOfField direction (keysGiven fragment entry) entry := by
  rw [expandField_eq]
  cases direction with
  | input =>
    rw [slots, slots, List.map_append, inputsOfField, List.map_map]
    exact congrArg _ (List.map_id _)
  | output =>
    rw [slots, slots, List.map_append, List.map_map]
    exact congrArg _ (List.map_id _)

theorem multiSlots_expandField (direction : Direction) :
    (expandField seed model fragment node (entry, place)).multiSlots direction =
      if entry.2 = direction.keyedRole then
        (node.multiSlots direction).insert entry.1.name (List.range' (node.slots direction).length
          (slotKeys (keysGiven fragment entry)).length)
      else node.multiSlots direction := by
  rw [expandField_eq]
  cases direction <;> simp only [multiSlots, slots, List.length_map] <;> rfl

theorem inputs_expandField :
    (expandField seed model fragment node (entry, place)).inputs =
      node.inputs ++ inputsOfField model (keysGiven fragment entry) entry := by
  rw [expandField_eq]

theorem keyedValues_expandField :
    (expandField seed model fragment node (entry, place)).keyedValues =
      if entry.2.isMulti then
        (documentObject (Object.get? fragment entry.1.name)).elim node.keyedValues
          (node.keyedValues.insert entry.1.name)
      else node.keyedValues := by
  rw [expandField_eq]

theorem annotations_expandField :
    (expandField seed model fragment node (entry, place)).annotations =
      if entry.2 = .note then
        (noteGiven seed model fragment node place entry.1.name).elim node.annotations
          (node.annotations.insert entry.1.name)
      else node.annotations := by
  rw [expandField_eq]

theorem constants_expandField :
    (expandField seed model fragment node (entry, place)).constants =
      if entry.2 = .constant then
        node.constants.insert entry.1.name (constantGiven model fragment entry.1.name)
      else node.constants := by
  rw [expandField_eq]

theorem noteGiven_expandField (spot : Nat) (name : String) :
    noteGiven seed model fragment (expandField seed model fragment node (entry, place)) spot name =
      noteGiven seed model fragment node spot name := by
  rw [expandField_eq]
  rfl

/-- Names of fields tell a new field from those before it. -/
theorem eq_of_name (fresh : entry.1.name ∉ fields.map fun entry => entry.1.name)
    {role : Role} {other : Field × Role} (member : other ∈ fieldsOf role (fields ++ [entry]))
    (same : other.1.name = entry.1.name) : other = entry := by
  rcases List.mem_append.1 (mem_fieldsOf.1 member).1 with old | added
  · exact absurd (List.mem_map.2 ⟨other, old, same⟩) fresh
  · exact List.mem_singleton.1 added

theorem notMem_names (fresh : entry.1.name ∉ fields.map fun entry => entry.1.name) {role : Role} :
    entry.1.name ∉ (fieldsOf role fields).map fun entry => entry.1.name :=
  fun listed => fresh ((List.filter_sublist.map _).mem listed)

/-- A field of the longer list is the new one or an old one with another name. -/
theorem mem_fieldsOf_append (fresh : entry.1.name ∉ fields.map fun entry => entry.1.name)
    {role : Role} {other : Field × Role} (member : other ∈ fieldsOf role (fields ++ [entry])) :
    (other = entry ∧ entry.2 = role) ∨
      (other ∈ fieldsOf role fields ∧ entry.1.name ≠ other.1.name) := by
  obtain ⟨inFields, isRole⟩ := mem_fieldsOf.1 member
  rcases List.mem_append.1 inFields with old | added
  · exact Or.inr ⟨mem_fieldsOf.2 ⟨old, isRole⟩, fun same =>
      fresh (List.mem_map.2 ⟨other, old, same.symm⟩)⟩
  · obtain rfl := List.mem_singleton.1 added
    exact Or.inl ⟨rfl, isRole⟩

/-- An input without keys is that of a field. -/
theorem exists_plain_field {direction : Direction} {infos : List SlotInfo}
    {places : OrderedMap String (List Nat)} (side : Side fields direction infos places)
    {info : SlotInfo} (member : info ∈ infos) (plain : info.isMulti = false) :
    ∃ entry ∈ fieldsOf direction.plainRole fields,
      info = SlotInfo.ofField entry.1 entry.2 none := by
  have listed : info ∈ infos.filter fun info => !info.isMulti :=
    List.mem_filter.2 ⟨member, by rw [plain]; rfl⟩
  rw [side.plain] at listed
  obtain ⟨entry, isField, same⟩ := List.mem_map.1 listed
  exact ⟨entry, isField, same.symm⟩

theorem Made.push (made : node.Made seed model fragment fields)
    (fresh : entry.1.name ∉ fields.map fun entry => entry.1.name) :
    (expandField seed model fragment node (entry, place)).Made seed model fragment
      (fields ++ [entry]) where
  sides direction := by
    rw [slots_expandField, multiSlots_expandField]
    obtain ⟨distinct, named⟩ := documentKeys_spec (Object.get? fragment entry.1.name)
    exact (made.sides direction).push fresh distinct named
  keys direction other member := by
    rw [slots_expandField, List.filter_append, filter_isOf_slotsOfField]
    obtain ⟨rfl, isKeyed⟩ | ⟨old, apart⟩ := mem_fieldsOf_append fresh member
    · rw [if_pos ⟨isKeyed, rfl⟩, List.filter_eq_nil_iff.2, List.nil_append]
      intro info isSlot isOf
      obtain ⟨field, isField, same⟩ := (made.sides direction).exists_field isSlot isOf
      exact fresh (List.mem_map.2 ⟨field, (mem_fieldsOf.1 isField).1, same⟩)
    · rw [if_neg fun both => apart both.2, List.append_nil]
      exact made.keys direction other old
  keyedValues direction other member := by
    rw [keyedValues_expandField]
    obtain ⟨rfl, isKeyed⟩ | ⟨old, apart⟩ := mem_fieldsOf_append fresh member
    · rw [if_pos (show other.2.isMulti = true by rw [isKeyed, isMulti_keyedRole]),
        OrderedMap.get?_elim_insert, if_pos rfl,
        OrderedMap.get?_eq_none_iff.2 fun listed => fresh (made.keyedNames _ listed),
        Option.or_none]
    · split
      · rw [OrderedMap.get?_elim_insert, if_neg apart]
        exact made.keyedValues direction other old
      · exact made.keyedValues direction other old
  keyedNames name listed := by
    rw [List.map_append, List.mem_append]
    by_cases same : entry.1.name = name
    · exact Or.inr (List.mem_singleton.2 same.symm)
    · refine Or.inl (made.keyedNames name ?_)
      rw [keyedValues_expandField] at listed
      split at listed
      · rw [OrderedMap.mem_keys_iff] at listed ⊢
        obtain ⟨value, found⟩ := listed
        rw [OrderedMap.get?_elim_insert, if_neg same] at found
        exact ⟨value, found⟩
      · exact listed
  keyed slot member isMulti := by
    rw [inputs_expandField] at member
    rcases List.mem_append.1 member with old | added
    · exact made.keyed slot old isMulti
    · obtain ⟨info, isSlot, rfl⟩ := List.mem_map.1 added
      refine if_neg fun isInput => ?_
      obtain ⟨-, rfl⟩ | ⟨isKeyed, -⟩ := mem_slotsOfField isSlot
      · rw [SlotInfo.ofField, isInput] at isMulti
        cases isMulti
      · rw [isInput] at isKeyed
        cases isKeyed
  natives slot member plain other isField same := by
    rw [inputs_expandField] at member
    rcases List.mem_append.1 member with old | added
    · obtain ⟨field, inFields, info⟩ := exists_plain_field (made.sides .input)
        (List.mem_map_of_mem old) plain
      obtain ⟨rfl, -⟩ | ⟨isOld, -⟩ := mem_fieldsOf_append fresh isField
      · rw [info] at same
        exact absurd (List.mem_map.2 ⟨field, (mem_fieldsOf.1 inFields).1, same.symm⟩) fresh
      · exact made.natives slot old plain other isOld same
    · obtain ⟨info, isSlot, rfl⟩ := List.mem_map.1 added
      obtain ⟨isInput, rfl⟩ | ⟨-, isOf⟩ := mem_slotsOfField isSlot
      · rw [eq_of_name fresh isField same]
        exact if_pos isInput
      · cases plain.symm.trans (SlotInfo.isOf_iff.1 isOf).1
  follows := by
    rw [annotations_expandField, fieldsOf_append, List.map_append]
    by_cases isNote : entry.2 = .note
    · rw [if_pos isNote, if_pos isNote, List.map_singleton]
      cases noteGiven seed model fragment node place entry.1.name with
      | none => exact made.follows.append (notMem_names fresh)
      | some value => exact made.follows.insert value (notMem_names fresh)
    · rw [if_neg isNote, if_neg isNote, List.map_nil, List.append_nil]
      exact made.follows
  notes other member := by
    rw [annotations_expandField]
    obtain ⟨rfl, isNote⟩ | ⟨old, apart⟩ := mem_fieldsOf_append fresh member
    · refine ⟨place, ?_⟩
      rw [if_pos isNote, OrderedMap.get?_elim_insert, if_pos rfl,
        OrderedMap.get?_eq_none_iff.2 fun listed =>
          notMem_names fresh (made.follows.keys_subset listed), Option.or_none]
      exact (noteGiven_expandField place _).symm
    · obtain ⟨before, isBefore⟩ := made.notes other old
      refine ⟨before, ?_⟩
      rw [noteGiven_expandField, ← isBefore]
      split
      · rw [OrderedMap.get?_elim_insert, if_neg apart]
      · rfl
  constantNames := by
    rw [constants_expandField, fieldsOf_append, List.map_append, ← made.constantNames]
    by_cases isConstant : entry.2 = .constant
    · have absent : entry.1.name ∉ node.constants.keys := by
        rw [made.constantNames]
        exact notMem_names fresh
      rw [if_pos isConstant, if_pos isConstant, OrderedMap.keys,
        OrderedMap.entries_insert_of_notMem absent, List.map_append]
      rfl
    · rw [if_neg isConstant, if_neg isConstant]
      exact (List.append_nil _).symm
  constants other member := by
    rw [constants_expandField]
    obtain ⟨rfl, isConstant⟩ | ⟨old, apart⟩ := mem_fieldsOf_append fresh member
    · rw [if_pos isConstant, OrderedMap.get?_insert, if_pos rfl]
    · split
      · rw [OrderedMap.get?_insert, if_neg apart]
        exact made.constants other old
      · exact made.constants other old

end Step

/-! ### Whole nodes -/

/-- The node with some fields expanded, each at its place. -/
def withFields (seed : Seed) (model : Model) (fragment : Object) (node : Node)
    (fields : List (Field × Role)) : Node :=
  fields.zipIdx.foldl (expandField seed model fragment) node

theorem withFields_append (node : Node) (fields : List (Field × Role)) (entry : Field × Role) :
    withFields seed model fragment node (fields ++ [entry]) =
      expandField seed model fragment (withFields seed model fragment node fields)
        (entry, fields.length) := by
  rw [withFields, List.zipIdx_append, List.foldl_append]
  simp [withFields]

theorem made_withFields (id : NodeId) (modelRef : String) (fields : List (Field × Role))
    (distinct : (fields.map fun entry => entry.1.name).Nodup) :
    (withFields seed model fragment (unmade id modelRef) fields).Made seed model fragment
      fields := by
  induction fields using List.reverseRecOn with
  | nil => exact made_unmade id modelRef
  | append_singleton fields entry inductionHypothesis =>
    rw [List.map_append, List.nodup_append] at distinct
    rw [withFields_append]
    refine (inductionHypothesis distinct.1).push fun listed => ?_
    exact distinct.2.2 _ listed _ (List.mem_singleton.2 rfl) rfl

/-- The node without what its fields were expanded into. -/
def bare (node : Node) : Node :=
  { node with
    inputs := []
    outputs := []
    multiInputs := {}
    multiOutputs := {}
    keyedValues := {}
    constants := {}
    annotations := {} }

theorem bare_withFields (node : Node) (fields : List (Field × Role)) :
    (withFields seed model fragment node fields).bare = node.bare := by
  induction fields using List.reverseRecOn with
  | nil => rfl
  | append_singleton fields entry inductionHypothesis =>
    rw [withFields_append, expandField_eq]
    exact inductionHypothesis

theorem bare_ofModel (seed : Seed) (id : NodeId) (modelRef : String) (model : Model)
    (fragment : Object) :
    (ofModel seed id modelRef model fragment).bare = (unmade id modelRef).bare :=
  bare_withFields _ _

theorem made_ofModel {modelRef : String} (sound : (Blueprint.ofModel modelRef model).Sound)
    (seed : Seed) (id : NodeId) (fragment : Object) :
    (ofModel seed id modelRef model fragment).Made seed model fragment model.fieldsWithRoles :=
  made_withFields _ _ _ sound.distinct

/-- No slot of a new node is linked. -/
theorem links_withFields (node : Node)
    (unlinked : ∀ direction, ∀ port ∈ node.ports direction, port.links = [])
    (fields : List (Field × Role)) :
    ∀ direction, ∀ port ∈ (withFields seed model fragment node fields).ports direction,
      port.links = [] := by
  induction fields using List.reverseRecOn with
  | nil => exact unlinked
  | append_singleton fields entry inductionHypothesis =>
    intro direction port member
    rw [withFields_append, expandField_eq] at member
    cases direction with
    | input =>
      rw [ports, List.map_append] at member
      rcases List.mem_append.1 member with old | added
      · exact inductionHypothesis .input port old
      · obtain ⟨slot, isSlot, rfl⟩ := List.mem_map.1 added
        obtain ⟨info, -, rfl⟩ := List.mem_map.1 isSlot
        rfl
    | output =>
      rw [ports, List.map_append] at member
      rcases List.mem_append.1 member with old | added
      · exact inductionHypothesis .output port old
      · obtain ⟨slot, isSlot, rfl⟩ := List.mem_map.1 added
        obtain ⟨info, -, rfl⟩ := List.mem_map.1 isSlot
        rfl

theorem runFactory_isSome {seed other : Seed} {id otherId : NodeId} {place otherPlace : Nat}
    {name : String} (known : (runFactory seed id place name).isSome = true) :
    (runFactory other otherId otherPlace name).isSome = true := by
  unfold runFactory at known ⊢
  split at known
  · next isKnown => rw [if_pos isKnown]; rfl
  · cases known

theorem annotationStart_isSome {seed other : Seed} {node otherNode : Node} {place otherPlace : Nat}
    {start : Option Default} (known : (node.annotationStart seed place start).isSome = true) :
    (otherNode.annotationStart other otherPlace start).isSome = true := by
  rw [annotationStart.eq_def] at known ⊢
  split at known
  · exact runFactory_isSome known
  · cases known

theorem Made.fits {node : Node} {modelRef : String} {fields : List (Field × Role)}
    (made : node.Made seed model fragment fields) (ref : node.modelRef = modelRef) :
    node.Fits (.ofFields modelRef model fields) where
  modelRef := ref
  sides := made.sides
  natives slot member := ⟨made.keyed slot member, fun plain entry isField same =>
    Or.inl (made.natives slot member plain entry isField same)⟩
  notes := made.follows
  minted entry member other _ place known := by
    obtain ⟨spot, isNote⟩ := made.notes entry member
    have starts : (annotationStart seed node spot (model.default? entry.1.name)).isSome = true :=
      annotationStart_isSome known
    rw [isNote, noteGiven, Option.isSome_or, starts, Bool.or_true]
  constants := made.constantNames

theorem Made.tagged {node : Node} {modelRef : String} {fields : List (Field × Role)}
    (made : node.Made seed model fragment fields) :
    node.Tagged (.ofFields modelRef model fields) := by
  intro entry member isTag
  rw [← isTag, made.constants entry member, isTag, constantGiven, if_pos rfl]
  rfl

/-! ### Primitive nodes -/

theorem ofField_ofKind (kind : NativeKind) :
    SlotInfo.ofField (Field.ofRaw primitiveValueField kind.rawType) .output none =
      { field := primitiveValueField
        title := none
        description := none
        rawType := kind.rawType
        isMulti := false
        key := none
        optional := false } := by
  have required : (TypeExpr.parse kind.rawType).isOptional = false := by
    cases kind <;> decide +kernel
  rw [SlotInfo.ofField]
  simp only [Field.ofRaw, slotType, Role.isMulti, Bool.false_eq_true, if_false, required]

theorem fits_primitive (id : NodeId) (kind : NativeKind) (value : Json) :
    (primitive id kind value).Fits (.ofKind kind) where
  modelRef := rfl
  sides direction := by
    cases direction with
    | input => exact ⟨rfl, fun _ member => absurd member List.not_mem_nil,
        fun _ member => absurd member List.not_mem_nil, rfl⟩
    | output =>
      refine ⟨?_, fun _ member => absurd member List.not_mem_nil, fun info member => ?_, rfl⟩
      · exact congrArg (fun info => [info]) (ofField_ofKind kind).symm
      · rw [List.mem_singleton.1 member]
        exact fun isMulti => nomatch isMulti
  natives _ member := absurd member List.not_mem_nil
  notes := rfl
  minted _ member := absurd member List.not_mem_nil
  constants := rfl

end Node

theorem Blueprint.sound_ofKind (kind : NativeKind) : (Blueprint.ofKind kind).Sound where
  distinct := List.nodup_cons.2 ⟨List.not_mem_nil, List.nodup_nil⟩
  dotless entry member := by
    rw [List.mem_singleton.1 member]
    show '.' ∉ primitiveValueField.toList
    decide
  typed entry member := by
    rw [List.mem_singleton.1 member]
    rfl

end Workflow
