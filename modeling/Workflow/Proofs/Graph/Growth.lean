/-
This file follows the slots of nodes while edges are read.

Finding a slot by a name may add a key to a field. The key goes to the placeholder of
the field or to a new slot, and the slots are the same otherwise; so a slot that has a
key keeps its name, and a placeholder keeps its name until its field gets a key. A name
may also lead to a slot that is only shown under it, and this slot never gets the name.
So it can be said once all edges are read whether an end has the name by which it was
found.
-/

import Workflow.Proofs.Graph.Operations
import Workflow.Proofs.Node.Names
import Workflow.Proofs.Text.Split

namespace Workflow

open Text

/-! ### Names of slots -/

/-- The names that edges may use for slots: those of fields, and of keys of fields with keys. -/
inductive Blueprint.Names (blueprint : Blueprint) (direction : Direction) : String → Prop
  | field {entry : Field × Role} (isField : entry ∈ blueprint.fields) (isMulti : Bool)
      (role : entry.2 = direction.role isMulti) : Names blueprint direction entry.1.name
  | key {entry : Field × Role} (isField : entry ∈ blueprint.fields)
      (role : entry.2 = direction.keyedRole) {key : String} (named : key ≠ "")
      (trimmed : trimKey key = key) :
      Names blueprint direction (entry.1.name ++ "." ++ key)

namespace Node

/-- Some slot of a field has a key. -/
def HasKeys (node : Node) (direction : Direction) (field : String) : Prop :=
  ∃ info ∈ node.slots direction, info.field = field ∧ info.key.isSome = true

/-- No slot has the name, but one is shown under it. -/
def Misleads (node : Node) (direction : Direction) (name : String) : Prop :=
  (∀ info ∈ node.slots direction, info.internalName ≠ name) ∧
    ∃ info ∈ node.slots direction, info.displayName = name

variable {node : Node} {direction : Direction} {name : String} {place : Nat}

theorem slotNamed?_eq_none_iff : node.slotNamed? direction name = none ↔
    ∀ info ∈ node.slots direction, info.internalName ≠ name := by
  simp [slotNamed?, List.findIdx?_eq_none_iff]

theorem exists_of_slotNamed? (found : node.slotNamed? direction name = some place) :
    ∃ info, (node.slots direction)[place]? = some info ∧ info.internalName = name := by
  obtain ⟨inRange, accepted, -⟩ := List.findIdx?_eq_some_iff_getElem.1 found
  exact ⟨_, List.getElem?_eq_getElem inRange, by simpa using accepted⟩

theorem slotShown?_eq_none_iff : node.slotShown? direction name = none ↔
    ∀ info ∈ node.slots direction, info.displayName ≠ name := by
  simp [slotShown?, shownNames_eq, List.findIdx?_eq_none_iff]

theorem exists_of_slotShown? (found : node.slotShown? direction name = some place) :
    ∃ info, (node.slots direction)[place]? = some info ∧ info.displayName = name := by
  rw [slotShown?, shownNames_eq] at found
  obtain ⟨inRange, accepted, -⟩ := List.findIdx?_eq_some_iff_getElem.1 found
  rw [List.length_map] at inRange
  exact ⟨_, List.getElem?_eq_getElem inRange, by simpa using accepted⟩

theorem keyedName?_eq_none (dotless : '.' ∉ name.toList) :
    node.keyedName? direction name = none := by
  rw [keyedName?, cut_eq_none dotless]

/-- A name with a dot is read as a key if the part before the dot is a field with keys. -/
theorem keyedName?_append {field : String} (dotless : '.' ∉ field.toList) (key : String) :
    node.keyedName? direction (field ++ "." ++ key) =
      if (node.multiSlots direction).contains field then some (field, key) else none := by
  have letters : (field ++ "." ++ key).toList = field.toList ++ '.' :: key.toList := by
    simp [String.toList_append]
  rw [keyedName?, letters, cut_append dotless]
  simp

end Node

namespace Node

variable {blueprint : Blueprint} {node : Node} {direction : Direction} {name : String}

/-- A field has a slot under its name, or its slots have keys. -/
theorem Fits.exists_slot_of_field (fits : node.Fits blueprint) {entry : Field × Role}
    (isField : entry ∈ blueprint.fields) {isMulti : Bool}
    (role : entry.2 = direction.role isMulti) :
    (∃ info ∈ node.slots direction, info.internalName = entry.1.name) ∨
      node.HasKeys direction entry.1.name := by
  have side := fits.sides direction
  cases isMulti with
  | false =>
    have listed : SlotInfo.ofField entry.1 entry.2 none ∈
        (node.slots direction).filter fun info => !info.isMulti := by
      rw [side.plain]
      exact List.mem_map.2 ⟨entry, mem_fieldsOf.2 ⟨isField, role⟩, rfl⟩
    exact Or.inl ⟨_, List.mem_of_mem_filter listed, rfl⟩
  | true =>
    obtain ⟨keys, -, -, slots⟩ := side.keyed entry (mem_fieldsOf.2 ⟨isField, role⟩)
    have member (key : Option String) (isKey : key ∈ slotKeys keys) :
        SlotInfo.ofField entry.1 entry.2 key ∈ node.slots direction := by
      have listed := List.mem_map_of_mem (f := SlotInfo.ofField entry.1 entry.2) isKey
      rw [← slots] at listed
      exact List.mem_of_mem_filter listed
    cases keys with
    | nil => exact Or.inl ⟨_, member none List.mem_cons_self, rfl⟩
    | cons key rest => exact Or.inr ⟨_, member (some key) List.mem_cons_self, rfl, rfl⟩

/-- Slots of a field have keys or not alike. -/
theorem Fits.key_eq_none_of_field (sound : blueprint.Sound) (fits : node.Fits blueprint)
    {first second : SlotInfo} (isFirst : first ∈ node.slots direction)
    (isSecond : second ∈ node.slots direction) (same : first.field = second.field)
    (bare : first.key = none) : second.key = none := by
  have side := fits.sides direction
  obtain ⟨-, alike⟩ := fits.eq_of_field sound isFirst isSecond same
  cases isMulti : first.isMulti with
  | false =>
    have listed : second ∈ (node.slots direction).filter fun info => !info.isMulti :=
      List.mem_filter.2 ⟨isSecond, by rw [← alike, isMulti]; rfl⟩
    rw [side.plain] at listed
    obtain ⟨entry, -, rfl⟩ := List.mem_map.1 listed
    rfl
  | true =>
    obtain ⟨entry, isEntry, ofField⟩ := side.owned first isFirst isMulti
    obtain ⟨keys, -, -, slots⟩ := side.keyed entry isEntry
    have listed {info : SlotInfo} (member : info ∈ node.slots direction)
        (multi : info.isMulti = true) (ofField : info.field = entry.1.name) :
        info.key ∈ slotKeys keys := by
      have inField : info ∈ (node.slots direction).filter (SlotInfo.isOf entry.1.name) :=
        List.mem_filter.2 ⟨member, SlotInfo.isOf_iff.2 ⟨multi, ofField⟩⟩
      rw [slots] at inField
      obtain ⟨key, isKey, rfl⟩ := List.mem_map.1 inField
      exact isKey
    have isNone := listed isFirst isMulti ofField
    have isKey := listed isSecond (alike ▸ isMulti) (same ▸ ofField)
    rw [bare, slotKeys] at isNone
    rw [slotKeys] at isKey
    split at isNone
    · next empty =>
      rw [if_pos empty] at isKey
      exact List.mem_singleton.1 isKey
    · obtain ⟨key, -, isSome⟩ := List.mem_map.1 isNone
      cases isSome

/-- A slot whose name is that of a field has no key, and so have all slots of the field. -/
theorem Fits.not_hasKeys (sound : blueprint.Sound) (fits : node.Fits blueprint)
    {info : SlotInfo} (member : info ∈ node.slots direction) (named : info.internalName = name) :
    ¬ node.HasKeys direction name := by
  rintro ⟨other, isOther, rfl, isKeyed⟩
  have dotless {info : SlotInfo} (member : info ∈ node.slots direction) :
      '.' ∉ info.field.toList := by
    obtain ⟨entry, isEntry, ofField, -⟩ := (fits.sides direction).exists_entry member
    rw [← ofField]
    exact sound.dotless entry isEntry
  have sameName : info.name = ⟨other.field, none⟩ :=
    @SlotInfo.name_eq_of_internalName info { other with key := none } (dotless member)
      (show '.' ∉ other.field.toList from dotless isOther) named
  have bare := fits.key_eq_none_of_field sound member isOther (congrArg SlotName.field sameName)
    (congrArg SlotName.key sameName)
  rw [bare] at isKeyed
  cases isKeyed

/-- A proper name that is neither that of a slot nor read as a key is that of a field whose slots
have keys. -/
theorem Fits.hasKeys_of_keyedName?_eq_none (sound : blueprint.Sound) (fits : node.Fits blueprint)
    (names : blueprint.Names direction name)
    (notNamed : ∀ info ∈ node.slots direction, info.internalName ≠ name)
    (notKeyed : node.keyedName? direction name = none) : node.HasKeys direction name := by
  cases names with
  | field isField isMulti role =>
    obtain ⟨info, member, named⟩ | hasKeys := fits.exists_slot_of_field isField role
    · exact absurd named (notNamed info member)
    · exact hasKeys
  | @key entry isField role key named trimmed =>
    have held := (fits.sides direction).get?_places sound.distinct
      (mem_fieldsOf.2 ⟨isField, role⟩)
    rw [keyedName?_append (sound.dotless _ isField), if_pos] at notKeyed
    · cases notKeyed
    · rw [OrderedMap.contains_iff]
      exact OrderedMap.mem_keys_iff.2 ⟨_, held⟩

end Node

/-- A name that is read as a key has a trimmed key, and its field is on the side of the name. -/
theorem Node.Fits.of_keyedName? {blueprint : Blueprint} {node : Node} {direction : Direction}
    {name field key : String} (sound : blueprint.Sound) (fits : node.Fits blueprint)
    (names : blueprint.Names direction name)
    (keyed : node.keyedName? direction name = some (field, key)) :
    name = field ++ "." ++ trimKey key ∧ ∀ side places,
      node.multiField? field = some (side, places) → side = direction := by
  cases names with
  | field isField isMulti role =>
    rw [Node.keyedName?_eq_none (sound.dotless _ isField)] at keyed
    cases keyed
  | @key entry isField role key _ trimmed =>
    rw [Node.keyedName?_append (sound.dotless _ isField)] at keyed
    split at keyed
    · cases keyed
      refine ⟨by rw [trimmed], fun side places found => ?_⟩
      obtain ⟨other, isEntry, same, -⟩ :=
        (fits.sides side).entry_of_places (Node.get?_multiSlots found)
      obtain ⟨inFields, otherRole⟩ := mem_fieldsOf.1 isEntry
      rw [sound.eq_of_name inFields isField same, role] at otherRole
      have sameRole : direction.role true = side.role true := otherRole
      exact (role_eq_iff.1 sameRole).1.symm
    · cases keyed

/-! ### Slots that grow -/

/-- What a slot may become while edges are read: a placeholder may get a key, though none that gives
it the name it was shown under. -/
def SlotInfo.Grows (before after : SlotInfo) : Prop :=
  after = before ∨ before.key = none ∧
    ∃ key, after = before.withKey key ∧ after.internalName ≠ before.displayName

theorem SlotInfo.Grows.trans {first second third : SlotInfo} (one : first.Grows second)
    (other : second.Grows third) : first.Grows third := by
  obtain rfl | ⟨bare, key, rfl, apart⟩ := other
  · exact one
  · obtain rfl | ⟨-, earlier, rfl, -⟩ := one
    · exact Or.inr ⟨bare, key, rfl, apart⟩
    · cases bare

/-- A slot with a key stays as it is. -/
theorem SlotInfo.Grows.eq_of_key {before after : SlotInfo} (grows : before.Grows after)
    (keyed : before.key.isSome = true) : after = before := by
  obtain same | ⟨bare, -⟩ := grows
  · exact same
  · rw [bare] at keyed
    cases keyed

/-- A slot never gets the name it is shown under. -/
theorem SlotInfo.Grows.internalName_ne {before after : SlotInfo} (grows : before.Grows after)
    (other : before.internalName ≠ before.displayName) :
    after.internalName ≠ before.displayName := by
  obtain rfl | ⟨-, key, -, apart⟩ := grows
  · exact other
  · exact apart

namespace Node

/-- The slots of a node stay at their places and grow. -/
def Grows (before after : Node) : Prop :=
  ∀ (direction : Direction) (place : Nat) (info : SlotInfo),
    (before.slots direction)[place]? = some info →
      ∃ grown, (after.slots direction)[place]? = some grown ∧ info.Grows grown

variable {node after : Node}

theorem grows_of_slots (same : ∀ direction, after.slots direction = node.slots direction) :
    node.Grows after :=
  fun direction _ info isSlot => ⟨info, same direction ▸ isSlot, Or.inl rfl⟩

theorem Grows.trans {first second third : Node} (one : first.Grows second)
    (other : second.Grows third) : first.Grows third := by
  intro direction place info isSlot
  obtain ⟨middle, isMiddle, grows⟩ := one direction place info isSlot
  obtain ⟨grown, isGrown, further⟩ := other direction place middle isMiddle
  exact ⟨grown, isGrown, grows.trans further⟩

theorem HasKeys.grows {direction : Direction} {field : String}
    (hasKeys : node.HasKeys direction field) (grows : node.Grows after) :
    after.HasKeys direction field := by
  obtain ⟨info, member, ofField, keyed⟩ := hasKeys
  obtain ⟨place, isSlot⟩ := List.mem_iff_getElem?.1 member
  obtain ⟨grown, isGrown, further⟩ := grows direction place info isSlot
  rw [further.eq_of_key keyed] at isGrown
  exact ⟨info, List.mem_of_getElem? isGrown, ofField, keyed⟩

/-- A slot keeps its name unless its field gets a key. -/
theorem Fits.internalName_iff {blueprint : Blueprint} (sound : blueprint.Sound)
    (fits : after.Fits blueprint) {direction : Direction} {name : String} {info grown : SlotInfo}
    (named : info.internalName = name) (grows : info.Grows grown)
    (member : grown ∈ after.slots direction) :
    grown.internalName = name ↔ ¬ after.HasKeys direction name := by
  refine ⟨fits.not_hasKeys sound member, fun keyless => ?_⟩
  obtain rfl | ⟨bare, key, rfl, -⟩ := grows
  · exact named
  · rw [SlotInfo.internalName, bare] at named
    exact absurd ⟨_, member, named, rfl⟩ keyless

/-- A placeholder may get a key that does not give it the name it is shown under. -/
theorem grows_rekey {side : Direction} {place : Nat} {info : SlotInfo} {key : String}
    (isSlot : (node.slots side)[place]? = some info) (bare : info.key = none)
    (apart : (info.withKey key).internalName ≠ info.displayName) :
    node.Grows (node.rekey side place key) := by
  intro direction spot other isOther
  rw [slots_rekey]
  split
  · next same =>
    subst same
    rw [List.getElem?_modify, isOther, Option.map_eq_map, Option.map_some]
    split
    · next same =>
      subst same
      rw [isSlot] at isOther
      cases isOther
      exact ⟨_, rfl, Or.inr ⟨bare, key, rfl, apart⟩⟩
    · exact ⟨_, rfl, Or.inl rfl⟩
  · exact ⟨other, isOther, Or.inl rfl⟩

theorem grows_appendSlot (side : Direction) (field : String) (info : SlotInfo) :
    node.Grows (node.appendSlot side field info) := by
  intro direction place other isOther
  rw [slots_appendSlot]
  split
  · have inRange := (List.getElem?_eq_some_iff.1 isOther).1
    exact ⟨other, by rw [List.getElem?_append_left inRange, isOther], Or.inl rfl⟩
  · exact ⟨other, isOther, Or.inl rfl⟩

end Node

namespace Graph

/-- The nodes of a graph are still there, and their slots grow. -/
def Grows (before after : Graph) : Prop :=
  ∀ id node, before.node? id = some node → ∃ grown, after.node? id = some grown ∧ node.Grows grown

variable {graph middle after : Graph} {id : NodeId}

theorem Grows.refl (graph : Graph) : graph.Grows graph :=
  fun _ node isNode => ⟨node, isNode, Node.grows_of_slots fun _ => rfl⟩

theorem Grows.trans (one : graph.Grows middle) (other : middle.Grows after) :
    graph.Grows after := by
  intro id node isNode
  obtain ⟨between, isBetween, grows⟩ := one id node isNode
  obtain ⟨grown, isGrown, further⟩ := other id between isBetween
  exact ⟨grown, isGrown, grows.trans further⟩

theorem grows_of_unlinked
    (same : after.nodes.map Node.unlinked = graph.nodes.map Node.unlinked) :
    graph.Grows after := by
  have found (other : Graph) (id : NodeId) :
      (other.nodes.map Node.unlinked).find? (fun node => node.id = id) =
        (other.node? id).map Node.unlinked := List.find?_map
  intro id node isNode
  have alike := found after id
  rw [same, found graph, isNode] at alike
  obtain ⟨grown, isGrown, isSame⟩ := Option.map_eq_some_iff.1 alike.symm
  exact ⟨grown, isGrown, Node.grows_of_slots (Node.Retouches.of_unlinked isSame).slots⟩

theorem grows_modifyNode {change : Node → Node} (keeps : ∀ node, (change node).id = node.id)
    (grows : ∀ node, graph.node? id = some node → node.Grows (change node)) :
    graph.Grows (graph.modifyNode id change) := by
  intro other node isNode
  rw [node?_modifyNode graph id other change keeps, isNode]
  refine ⟨_, rfl, ?_⟩
  split
  · next same =>
    subst same
    exact grows node isNode
  · exact Node.grows_of_slots fun _ => rfl

/-! ### Slots found by name -/

section Found

variable {node : Node} {blueprint : Blueprint} {direction : Direction} {name : String}
  {place : Nat}

/-- The ways in which a slot is found: by its name, by the name it is shown under, as a key that is
added, or by its place. -/
theorem resolveSlot_ways (isNode : graph.node? id = some node)
    (found : graph.resolveSlot id direction name = some (place, after)) :
    (node.slotNamed? direction name = some place ∧ after = graph) ∨
    (node.slotNamed? direction name = none ∧ node.slotShown? direction name = some place ∧
      after = graph) ∨
    (node.slotNamed? direction name = none ∧ node.slotShown? direction name = none ∧
      ((∃ field key, node.keyedName? direction name = some (field, key) ∧
          graph.addKey id field key = .ok (place, after)) ∨
        node.keyedName? direction name = none ∧ place < (node.slots direction).length ∧
          after = graph)) := by
  rw [resolveSlot, isNode] at found
  dsimp only at found
  split at found
  · next spot isSpot =>
    cases found
    obtain isNamed | ⟨notNamed, isShown⟩ := Option.or_eq_some_iff.1 isSpot
    · exact Or.inl ⟨isNamed, rfl⟩
    · exact Or.inr (Or.inl ⟨notNamed, isShown, rfl⟩)
  · next absent =>
    obtain ⟨notNamed, notShown⟩ := Option.or_eq_none_iff.1 absent
    refine Or.inr (Or.inr ⟨notNamed, notShown, ?_⟩)
    split at found
    · next field key keyed =>
      cases added : graph.addKey id field key with
      | error problem =>
        rw [added] at found
        cases found
      | ok answer =>
        rw [added] at found
        cases found
        exact Or.inl ⟨field, key, keyed, added⟩
    · next notKeyed =>
      refine Or.inr ⟨notKeyed, ?_⟩
      split at found
      · split at found <;> cases found
        exact ⟨‹_›, rfl⟩
      · split at found <;> cases found
        exact ⟨by omega, rfl⟩

/-- Adding a key to a field of a node named the placeholder among its slots, or gave it one more. -/
theorem addKey_of_field (fits : node.Fits blueprint) (isNode : graph.node? id = some node)
    {field key : String} {side : Direction} {places : List Nat}
    (isField : node.multiField? field = some (side, places))
    (success : graph.addKey id field key = .ok (place, after)) :
    ∃ template : SlotInfo, template.isOf field = true ∧ template ∈ node.slots side ∧
      ((template.key = none ∧ (node.slots side)[place]? = some template ∧
          after = (graph.modifyNode id fun node =>
            node.rekey side place (trimKey key)).record (.slotsChanged id field)) ∨
        (place = (node.slots side).length ∧
          after = (graph.modifyNode id fun node => node.appendSlot side field
            { template with key := some (trimKey key) }).record (.slotsChanged id field))) := by
  obtain ⟨-, found, direction, first, others, template, isFound, isSide, -, isTemplate, change⟩ :=
    addKey_cases success
  obtain rfl := Option.some.inj (isNode.symm.trans isFound)
  obtain ⟨rfl, rfl⟩ := Prod.mk.inj (Option.some.inj (isField.symm.trans isSide))
  obtain ⟨info, isInfo, isOf⟩ := fits.slot_of_place isField List.mem_cons_self
  obtain rfl := Option.some.inj (isTemplate.symm.trans isInfo)
  refine ⟨template, isOf, List.mem_of_getElem? isTemplate, ?_⟩
  obtain ⟨-, bare, rfl, rfl⟩ | ⟨-, rfl, rfl⟩ := change
  · exact Or.inl ⟨bare, isTemplate, rfl⟩
  · exact Or.inr ⟨rfl, rfl⟩

/-- A key that is added names a slot, and the other slots stay or grow. -/
theorem addKey_named (fits : node.Fits blueprint) (isNode : graph.node? id = some node)
    {field key : String} (success : graph.addKey id field key = .ok (place, after))
    {side : Direction} {places : List Nat} (isField : node.multiField? field = some (side, places))
    (unshown : ∀ info ∈ node.slots side, info.displayName ≠ field ++ "." ++ trimKey key) :
    graph.Grows after ∧ ∃ grown, after.node? id = some grown ∧
      ∃ info, (grown.slots side)[place]? = some info ∧
        info.internalName = field ++ "." ++ trimKey key ∧ info.key.isSome = true := by
  obtain ⟨template, isOf, member, change⟩ := addKey_of_field fits isNode isField success
  obtain ⟨-, ofField⟩ := SlotInfo.isOf_iff.1 isOf
  have named : (template.withKey (trimKey key)).internalName = field ++ "." ++ trimKey key := by
    rw [← ofField]
    rfl
  have apart : (template.withKey (trimKey key)).internalName ≠ template.displayName :=
    fun same => unshown template member (same.symm.trans named)
  obtain ⟨bare, isTemplate, rfl⟩ | ⟨rfl, rfl⟩ := change
  · have keeps (node : Node) : (node.rekey side place (trimKey key)).id = node.id := by
      cases side <;> rfl
    refine ⟨grows_modifyNode keeps fun other isOther => ?_, _, node?_modifyNode_self isNode keeps,
      template.withKey (trimKey key), ?_, named, rfl⟩
    · obtain rfl := Option.some.inj (isNode.symm.trans isOther)
      exact Node.grows_rekey isTemplate bare apart
    · rw [Node.slots_rekey, if_pos rfl, List.getElem?_modify_eq, isTemplate]
      rfl
  · have keeps (node : Node) : (node.appendSlot side field
        { template with key := some (trimKey key) }).id = node.id := by
      cases side <;> rfl
    refine ⟨grows_modifyNode keeps fun other _ => Node.grows_appendSlot side field _, _,
      node?_modifyNode_self isNode keeps, template.withKey (trimKey key), ?_, named, rfl⟩
    rw [Node.slots_appendSlot, if_pos rfl, List.getElem?_concat_length]
    rfl

/-- A proper name for which a key is added is that of a field of the node and the trimmed key. -/
theorem exists_field_of_addKey (sound : blueprint.Sound) (fits : node.Fits blueprint)
    (isNode : graph.node? id = some node) (names : blueprint.Names direction name)
    {field key : String} (keyed : node.keyedName? direction name = some (field, key))
    (added : graph.addKey id field key = .ok (place, after)) :
    name = field ++ "." ++ trimKey key ∧
      ∃ places, node.multiField? field = some (direction, places) := by
  obtain ⟨named, sides⟩ := fits.of_keyedName? sound names keyed
  obtain ⟨-, other, side, first, others, template, isOther, isField, -⟩ := addKey_cases added
  obtain rfl := Option.some.inj (isNode.symm.trans isOther)
  obtain rfl := sides side _ isField
  exact ⟨named, _, isField⟩

/-- Finding a slot by a proper name lets slots grow. -/
theorem grows_resolveSlot (sound : blueprint.Sound) (fits : node.Fits blueprint)
    (isNode : graph.node? id = some node) (names : blueprint.Names direction name)
    (found : graph.resolveSlot id direction name = some (place, after)) : graph.Grows after := by
  obtain ⟨-, rfl⟩ | ⟨-, -, rfl⟩ | ⟨-, notShown, ⟨field, key, keyed, added⟩ | ⟨-, -, rfl⟩⟩ :=
    resolveSlot_ways isNode found
  · exact .refl _
  · exact .refl _
  · obtain ⟨named, places, isField⟩ := exists_field_of_addKey sound fits isNode names keyed added
    rw [named] at notShown
    exact (addKey_named fits isNode added isField
      (Node.slotShown?_eq_none_iff.1 notShown)).1
  · exact .refl _

/-- Finding a slot by a proper name leaves the slots of the other side as they are. -/
theorem slots_resolveSlot (sound : blueprint.Sound) (fits : node.Fits blueprint)
    (isNode : graph.node? id = some node) (names : blueprint.Names direction name)
    (found : graph.resolveSlot id direction name = some (place, after)) {other : NodeId}
    {before : Node} (isBefore : graph.node? other = some before) {side : Direction}
    (apart : side ≠ direction) :
    ∃ same, after.node? other = some same ∧ same.slots side = before.slots side := by
  obtain ⟨-, rfl⟩ | ⟨-, -, rfl⟩ | ⟨-, -, ⟨field, key, keyed, added⟩ | ⟨-, -, rfl⟩⟩ :=
    resolveSlot_ways isNode found
  · exact ⟨before, isBefore, rfl⟩
  · exact ⟨before, isBefore, rfl⟩
  · obtain ⟨-, places, isField⟩ := exists_field_of_addKey sound fits isNode names keyed added
    have kept {change : Node → Node} (keeps : ∀ node, (change node).id = node.id)
        (slots : ∀ node, (change node).slots side = node.slots side) :
        ∃ same, (graph.modifyNode id change).node? other = some same ∧
          same.slots side = before.slots side := by
      refine ⟨_, (node?_modifyNode graph id other change keeps).trans (by rw [isBefore]; rfl), ?_⟩
      split
      · exact slots before
      · rfl
    obtain ⟨template, -, -, ⟨-, -, rfl⟩ | ⟨-, rfl⟩⟩ := addKey_of_field fits isNode isField added
    · refine kept (fun node => by cases direction <;> rfl) fun node => ?_
      rw [Node.slots_rekey, if_neg apart]
    · refine kept (fun node => by cases direction <;> rfl) fun node => ?_
      rw [Node.slots_appendSlot, if_neg apart]
  · exact ⟨before, isBefore, rfl⟩

/-- Once edges are read, a slot that was found by a proper name has the name if no slot of the field
of this name has a key, and if the name did not lead to a slot that is only shown under it. -/
theorem internalName_resolveSlot (sound : blueprint.Sound) (fits : node.Fits blueprint)
    (isNode : graph.node? id = some node) (names : blueprint.Names direction name)
    (found : graph.resolveSlot id direction name = some (place, middle))
    (grows : middle.Grows after) {last : Node} (isLast : after.node? id = some last)
    (fitsLast : last.Fits blueprint) :
    ∃ info, (last.slots direction)[place]? = some info ∧
      (info.internalName = name ↔
        ¬ last.HasKeys direction name ∧ ¬ node.Misleads direction name) := by
  have grown {between : Node} (isBetween : middle.node? id = some between) :
      between.Grows last := by
    obtain ⟨_, isGrown, grows⟩ := grows id between isBetween
    obtain rfl := Option.some.inj (isLast.symm.trans isGrown)
    exact grows
  obtain ⟨isNamed, rfl⟩ | ⟨notNamed, isShown, rfl⟩ | ⟨notNamed, notShown, key | place⟩ :=
    resolveSlot_ways isNode found
  · -- The slot had the name, and can only lose it to a key.
    obtain ⟨info, isInfo, named⟩ := Node.exists_of_slotNamed? isNamed
    obtain ⟨final, isFinal, further⟩ := grown isNode direction place info isInfo
    have leads : ¬ node.Misleads direction name := fun misleads =>
      misleads.1 info (List.mem_of_getElem? isInfo) named
    refine ⟨final, isFinal, ?_⟩
    rw [fitsLast.internalName_iff sound named further (List.mem_of_getElem? isFinal),
      and_iff_left leads]
  · -- A slot that is only shown under the name never gets it.
    obtain ⟨info, isInfo, shown⟩ := Node.exists_of_slotShown? isShown
    obtain ⟨final, isFinal, further⟩ := grown isNode direction place info isInfo
    have notNamed := Node.slotNamed?_eq_none_iff.1 notNamed
    have misleads : node.Misleads direction name :=
      ⟨notNamed, info, List.mem_of_getElem? isInfo, shown⟩
    have other := notNamed info (List.mem_of_getElem? isInfo)
    rw [← shown] at other
    refine ⟨final, isFinal, iff_of_false ?_ fun both => both.2 misleads⟩
    rw [← shown]
    exact further.internalName_ne other
  all_goals
    have notNamed := Node.slotNamed?_eq_none_iff.1 notNamed
    have leads : ¬ node.Misleads direction name := fun ⟨_, info, member, shown⟩ =>
      Node.slotShown?_eq_none_iff.1 notShown info member shown
    rw [and_iff_left leads]
  · obtain ⟨field, key, keyed, added⟩ := key
    obtain ⟨named, places, isField⟩ := exists_field_of_addKey sound fits isNode names keyed added
    rw [named] at notShown
    obtain ⟨-, between, isBetween, info, isInfo, isName, isKeyed⟩ :=
      addKey_named fits isNode added isField (Node.slotShown?_eq_none_iff.1 notShown)
    obtain ⟨final, isFinal, further⟩ := grown isBetween direction place info isInfo
    refine ⟨final, isFinal, fitsLast.internalName_iff sound (isName.trans named.symm) further
      (List.mem_of_getElem? isFinal)⟩
  · -- Only the bare name of a field that has keys already leads to a slot by place.
    obtain ⟨notKeyed, inRange, rfl⟩ := place
    obtain ⟨final, isFinal, -⟩ := grown isNode direction _ _ (List.getElem?_eq_getElem inRange)
    have hasKeys : last.HasKeys direction name :=
      (fits.hasKeys_of_keyedName?_eq_none sound names notNamed notKeyed).grows (grown isNode)
    exact ⟨final, isFinal, iff_of_false
      (fun named => fitsLast.not_hasKeys sound (List.mem_of_getElem? isFinal) named hasKeys)
      fun keyless => keyless hasKeys⟩

end Found

end Graph

end Workflow
