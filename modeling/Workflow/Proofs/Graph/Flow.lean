/-
This file proves that what a node sees goes on along its links.

In the object that a node sees, every input without keys has a member of its own, and
every slot with a key has one in the object of its field; so a node sees what each of
its links carries. No output has a member in it, for the fields of a model have
different names. A node that passes on what it sees therefore adds the first value that
is not empty under the name of every output, and changes nothing else. So its links
carry this value, their targets see it, and so on from node to node.
-/

import Workflow.Proofs.Graph.SlotPlaces
import Workflow.Proofs.Graph.Sorting
import Workflow.Proofs.Json.Object

namespace Workflow

/-- What steps leave as it is stays after all of them. -/
theorem foldl_frame {State Item View : Type} {step : State → Item → State} (view : State → View)
    {items : List Item} (frame : ∀ item ∈ items, ∀ state, view (step state item) = view state)
    (start : State) : view (items.foldl step start) = view start := by
  induction items generalizing start with
  | nil => rfl
  | cons item rest inductionHypothesis =>
    rw [List.foldl_cons, inductionHypothesis fun other member =>
      frame other (List.mem_cons_of_mem item member)]
    exact frame item List.mem_cons_self start

/-! ### Names of slots -/

/-- Slots of one field have different keys. -/
def SlotInfo.Apart (first second : SlotInfo) : Prop :=
  first.field = second.field →
    ∃ one other, first.key = some one ∧ second.key = some other ∧ one ≠ other

theorem SlotInfo.Apart.symm {first second : SlotInfo} (apart : first.Apart second) :
    second.Apart first := by
  intro same
  obtain ⟨one, other, isOne, isOther, differ⟩ := apart same.symm
  exact ⟨other, one, isOther, isOne, differ.symm⟩

namespace Side

variable {fields : List (Field × Role)} {direction : Direction} {infos : List SlotInfo}
  {places : OrderedMap String (List Nat)}

theorem key_of_plain (side : Side fields direction infos places) {info : SlotInfo}
    (member : info ∈ infos) (plain : info.isMulti = false) : info.key = none := by
  have listed : info ∈ infos.filter fun info => !info.isMulti :=
    List.mem_filter.2 ⟨member, by rw [plain]; rfl⟩
  rw [side.plain] at listed
  obtain ⟨entry, -, rfl⟩ := List.mem_map.1 listed
  rfl

/-- The slots of a field have keys, or none of them has one. -/
theorem isSome_key_eq (side : Side fields direction infos places) {first second : SlotInfo}
    (isFirst : first ∈ infos) (isSecond : second ∈ infos) (same : first.field = second.field)
    (alike : first.isMulti = second.isMulti) : first.key.isSome = second.key.isSome := by
  cases isMulti : first.isMulti with
  | false =>
    rw [side.key_of_plain isFirst isMulti, side.key_of_plain isSecond (alike ▸ isMulti)]
  | true =>
    obtain ⟨entry, isEntry, ofField⟩ := side.owned first isFirst isMulti
    obtain ⟨keys, -, -, slots⟩ := side.keyed entry isEntry
    have key {info : SlotInfo} (member : info ∈ infos) (isMulti : info.isMulti = true)
        (ofField : info.field = entry.1.name) : info.key.isSome = !keys.isEmpty := by
      have listed : info ∈ infos.filter (SlotInfo.isOf entry.1.name) :=
        List.mem_filter.2 ⟨member, SlotInfo.isOf_iff.2 ⟨isMulti, ofField⟩⟩
      rw [slots] at listed
      obtain ⟨key, isKey, rfl⟩ := List.mem_map.1 listed
      rw [slotKeys] at isKey
      split at isKey
      · next none =>
        rw [List.mem_singleton.1 isKey, none]
        rfl
      · next some =>
        obtain ⟨text, -, rfl⟩ := List.mem_map.1 isKey
        rw [Bool.eq_false_of_not_eq_true some]
        rfl
    rw [key isFirst isMulti ofField, key isSecond (alike ▸ isMulti) (same ▸ ofField)]

end Side

namespace Node

variable {blueprint : Blueprint} {node : Node}

/-- Inputs without keys have fields of their own. -/
theorem Fits.pairwise_plain (sound : blueprint.Sound) (fits : node.Fits blueprint) :
    node.inputs.Pairwise fun first second => first.info.isMulti = false →
      second.info.isMulti = false → first.info.field ≠ second.info.field := by
  have side := fits.sides .input
  refine (List.pairwise_map.1 (fits.pairwise_name sound .input)).imp_of_mem ?_
  intro first second isFirst isSecond apart plain plain' same
  refine apart (congrArg₂ SlotName.mk same ?_)
  rw [side.key_of_plain (List.mem_map_of_mem isFirst) plain,
    side.key_of_plain (List.mem_map_of_mem isSecond) plain']

/-- Outputs of one field have different keys. -/
theorem Fits.pairwise_output (sound : blueprint.Sound) (fits : node.Fits blueprint) :
    node.outputs.Pairwise fun first second => first.info.Apart second.info := by
  refine (List.pairwise_map.1 (fits.pairwise_name sound .output)).imp_of_mem ?_
  intro first second isFirst isSecond apart same
  have isFirst : first.info ∈ node.slots .output := List.mem_map_of_mem isFirst
  have isSecond : second.info ∈ node.slots .output := List.mem_map_of_mem isSecond
  have alike := (fits.sides .output).isSome_key_eq isFirst isSecond same
    (fits.eq_of_field sound isFirst isSecond same).2
  have differ : first.info.key ≠ second.info.key := fun sameKey =>
    apart (congrArg₂ SlotName.mk same sameKey)
  cases isOne : first.info.key with
  | none =>
    rw [isOne, Option.isSome_none, eq_comm, Option.isSome_eq_false_iff, Option.isNone_iff_eq_none]
      at alike
    exact absurd (isOne.trans alike.symm) differ
  | some one =>
    rw [isOne, Option.isSome_some, eq_comm, Option.isSome_iff_exists] at alike
    obtain ⟨other, isOther⟩ := alike
    rw [isOne, isOther] at differ
    exact ⟨one, other, rfl, isOther, fun sameKey => differ (congrArg some sameKey)⟩

end Node

namespace Graph

variable {graph : Graph} {outputs : Outputs} {node : Node} {blueprint : Blueprint}

/-! ### What links bring is seen -/

/-- An input without keys changes nothing but the member of its field. -/
theorem get?_gatherInput_of_ne {slot : InputSlot} {key : String}
    (apart : slot.info.isMulti = false → slot.info.field ≠ key) (gathered : Object) :
    Object.get? (graph.gatherInput outputs gathered slot) key = Object.get? gathered key := by
  rw [gatherInput]
  split
  · rfl
  · next plain =>
    have other := apart (Bool.eq_false_of_not_eq_true plain)
    split
    · rw [Object.get?_insert, if_neg other]
    · split
      · split
        · rw [Object.get?_insert, if_neg other]
        · rfl
      · rfl

/-- A field with keys changes nothing but its own member. -/
theorem get?_gatherMulti_of_ne {entry : String × List Nat} {key : String} (apart : entry.1 ≠ key)
    (gathered : Object) :
    Object.get? (graph.gatherMulti outputs node gathered entry) key = Object.get? gathered key := by
  rw [gatherMulti]
  split
  · rfl
  · rw [Object.get?_insert, if_neg apart]

/-- The places of a field with keys are those of its slots, which are inputs. -/
theorem exists_keyed_input (fits : node.Fits blueprint) {entry : String × List Nat}
    (isEntry : entry ∈ node.multiInputs.entries) :
    ∃ info ∈ node.slots .input, info.isMulti = true ∧ info.field = entry.1 := by
  obtain ⟨-, owner, isOwner, field⟩ := @Node.Fits.eq_of_mem_multiSlots _ _ fits .input _ isEntry
  obtain ⟨info, isSlot, isOf⟩ := (fits.sides .input).exists_slot isOwner
  obtain ⟨isMulti, ofField⟩ := SlotInfo.isOf_iff.1 isOf
  exact ⟨info, isSlot, isMulti, ofField.trans field⟩

/-- Where no input has the name, a node sees what its constants say. -/
theorem get?_gather (fits : node.Fits blueprint) (distinct : node.constants.keys.Nodup)
    {key : String} (noInput : ∀ info ∈ node.slots .input, info.field ≠ key) :
    Object.get? (graph.gather outputs node) key = node.constants.get? key := by
  have start : Object.get? (Object.ofList node.constants.entries) key =
      node.constants.get? key := by
    rw [Object.get?_ofList distinct]
    cases found : node.constants.get? key with
    | none => exact Object.get?_eq_none_iff.2 (OrderedMap.get?_eq_none_iff.1 found)
    | some value =>
      exact (Object.get?_eq_some_iff distinct).2 (OrderedMap.mem_entries_of_get? found)
  rw [gather, foldl_frame (Object.get? · key) fun entry isEntry => get?_gatherMulti_of_ne ?_,
    foldl_frame (Object.get? · key) fun slot isSlot => get?_gatherInput_of_ne fun _ =>
      noInput _ (List.mem_map_of_mem isSlot), start]
  obtain ⟨info, isSlot, -, field⟩ := exists_keyed_input fits isEntry
  exact field ▸ noInput info isSlot

/-- Each slot of a field with keys has a name of its own in the object of the field. -/
theorem pairwise_names (sound : blueprint.Sound) (fits : node.Fits blueprint)
    {entry : String × List Nat} (isEntry : entry ∈ node.multiInputs.entries) :
    entry.2.Pairwise fun place spot => (node.keyAt? .input place).map (·.getD entry.1) ≠
      (node.keyAt? .input spot).map (·.getD entry.1) := by
  obtain ⟨keys, distinct, -, -, keyAt⟩ := (fits.indexes sound .input).keys entry isEntry
  have names : ((entry.2.map (node.keyAt? .input)).map (Option.map (·.getD entry.1))).Nodup := by
    rw [keyAt, slotKeys]
    split
    · exact List.nodup_singleton _
    · rw [List.map_map, List.map_map]
      exact distinct.map fun _ _ same => Option.some.inj same
  rw [List.map_map] at names
  exact List.pairwise_map.1 names

/-- The object of a field with keys has the value of each link under the key of its slot. -/
theorem get?_gatherKeys (sound : blueprint.Sound) (fits : node.Fits blueprint)
    {entry : String × List Nat} (isEntry : entry ∈ node.multiInputs.entries) {place : Nat}
    (isPlace : place ∈ entry.2) {slot : InputSlot} (isSlot : node.inputs[place]? = some slot)
    {link : LinkId} (linked : slot.link = some link) :
    Object.get? (graph.gatherKeys outputs node entry.1 entry.2) (slot.info.key.getD entry.1) =
      some (graph.carried outputs link) := by
  have named {place : Nat} {member : String × Json}
      (gives : ((node.inputs[place]?).bind fun slot => slot.link.map fun link =>
        (slot.info.key.getD entry.1, graph.carried outputs link)) = some member) :
      (node.keyAt? .input place).map (·.getD entry.1) = some member.1 := by
    obtain ⟨slot, isSlot, isMember⟩ := Option.bind_eq_some_iff.1 gives
    obtain ⟨link, -, rfl⟩ := Option.map_eq_some_iff.1 isMember
    rw [Node.keyAt?, Node.getElem?_slots_input isSlot]
    rfl
  rw [gatherKeys, Object.get?_ofList, Object.get?_eq_some_iff]
  · refine List.mem_filterMap.2 ⟨place, isPlace, ?_⟩
    rw [isSlot, Option.bind_some, linked]
    rfl
  all_goals
    refine List.pairwise_map.2 (List.pairwise_filterMap.2 ?_)
    refine (pairwise_names sound fits isEntry).imp
      fun apart first isFirst second isSecond same => ?_
    rw [named isFirst, named isSecond, same] at apart
    exact apart rfl

/-- A node sees what its links carry to an input of a field without keys. -/
theorem seenValue_gather_plain (sound : blueprint.Sound) (fits : node.Fits blueprint)
    {slot : InputSlot} (isSlot : slot ∈ node.inputs) {link : LinkId}
    (linked : slot.link = some link) (isPlain : slot.info.isMulti = false) :
    seenValue slot (graph.gather outputs node) = some (graph.carried outputs link) := by
  obtain ⟨before, after, split⟩ := List.append_of_mem isSlot
  have distinct := fits.pairwise_plain sound
  rw [split] at distinct
  have apart := (List.pairwise_cons.1 (List.pairwise_append.1 distinct).2.1).1
  rw [seenValue, isPlain, gather,
    foldl_frame (Object.get? · slot.info.field) fun entry isEntry => get?_gatherMulti_of_ne ?_,
    split, List.foldl_append, List.foldl_cons,
    foldl_frame (Object.get? · slot.info.field) fun later isLater =>
      get?_gatherInput_of_ne fun plain => (apart later isLater isPlain plain).symm]
  · rw [gatherInput, isPlain, linked]
    exact (Object.get?_insert _ _ _ _).trans (if_pos rfl)
  · intro same
    obtain ⟨info, isKeyed, keyed, field⟩ := exists_keyed_input fits isEntry
    have isInfo : slot.info ∈ node.slots .input := List.mem_map_of_mem isSlot
    have alike := (fits.eq_of_field sound isKeyed isInfo (field.trans same)).2
    rw [keyed, isPlain] at alike
    cases alike

/-- A node sees what its links carry to an input with a key among what it sees for the field. -/
theorem seenValue_gather_keyed (sound : blueprint.Sound) (fits : node.Fits blueprint)
    {slot : InputSlot} (isSlot : slot ∈ node.inputs) {link : LinkId}
    (linked : slot.link = some link) (isMulti : slot.info.isMulti = true) :
    seenValue slot (graph.gather outputs node) = some (graph.carried outputs link) := by
  obtain ⟨place, atPlace⟩ := List.mem_iff_getElem?.1 isSlot
  obtain ⟨entry, ⟨isEntry, isPlace⟩, -⟩ := (fits.indexes sound .input).owned place slot.info
    (Node.getElem?_slots_input atPlace) isMulti
  obtain ⟨info, isHere, -, field⟩ :=
    ((fits.indexes sound .input).places entry isEntry place).1 isPlace
  rw [Node.getElem?_slots_input atPlace] at isHere
  rw [← Option.some.inj isHere] at field
  have found : Object.get? (graph.gatherKeys outputs node entry.1 entry.2)
      (slot.info.key.getD entry.1) = some (graph.carried outputs link) :=
    get?_gatherKeys sound fits isEntry isPlace atPlace linked
  have notEmpty : (graph.gatherKeys outputs node entry.1 entry.2).isEmpty = false := by
    rw [List.isEmpty_eq_false_iff]
    intro empty
    rw [empty] at found
    cases found
  change entry ∈ node.multiInputs.entries at isEntry
  obtain ⟨before, after, split⟩ := List.append_of_mem isEntry
  have distinct : (node.multiInputs.entries.map Prod.fst).Nodup :=
    (fits.indexes sound .input).fields
  rw [split, List.map_append, List.map_cons] at distinct
  have apart := (List.nodup_cons.1 (List.nodup_append.1 distinct).2.1).1
  rw [seenValue, isMulti, gather, split, List.foldl_append, List.foldl_cons, field,
    foldl_frame (Object.get? · entry.1) fun later isLater => get?_gatherMulti_of_ne fun same =>
      apart (same ▸ List.mem_map_of_mem isLater), gatherMulti, notEmpty,
    if_neg Bool.false_ne_true, Object.get?_insert, if_pos rfl, if_pos rfl]
  exact found

/-- A node sees what its links carry. -/
theorem seenValue_gather (sound : blueprint.Sound) (fits : node.Fits blueprint) {slot : InputSlot}
    (isSlot : slot ∈ node.inputs) {link : LinkId} (linked : slot.link = some link) :
    seenValue slot (graph.gather outputs node) = some (graph.carried outputs link) := by
  cases isMulti : slot.info.isMulti with
  | false => exact seenValue_gather_plain sound fits isSlot linked isMulti
  | true => exact seenValue_gather_keyed sound fits isSlot linked isMulti

end Graph

/-! ### What is passed on -/

/-- What an object has for a slot: the member of its field, or what stands under its key in
there. -/
def SlotInfo.read? (info : SlotInfo) (produced : Object) : Option Json :=
  (Object.get? produced info.field).bind fun value =>
    match info.key with
    | none => some value
    | some key => value.member? key

/-- An object has nothing for a slot, and nothing that its value could not be added to. -/
structure SlotInfo.Open (info : SlotInfo) (object : Object) : Prop where
  unread : info.read? object = none
  keyed : ∀ value, Object.get? object info.field = some value → ∃ members, value = .object members

theorem SlotInfo.open_of_absent {info : SlotInfo} {object : Object}
    (absent : Object.get? object info.field = none) : info.Open object where
  unread := by rw [read?, absent, Option.bind_none]
  keyed value found := by cases absent.symm.trans found

variable {slot : OutputSlot} {info : SlotInfo} {object : Object} {value : Json}

theorem get?_insertNew_of_ne {members : Object} {key other : String} (apart : key ≠ other) :
    Object.get? (Object.insertNew members key value) other = Object.get? members other := by
  rw [Object.insertNew]
  split
  · rfl
  · rw [Object.get?_insert, if_neg apart]

/-- An output changes nothing but the member of its field. -/
theorem get?_fillOutput_of_ne {key : String} (apart : slot.info.field ≠ key) :
    Object.get? (fillOutput value object slot) key = Object.get? object key := by
  rw [fillOutput]
  split
  · exact get?_insertNew_of_ne apart
  · split
    · rw [Object.get?_insert, if_neg apart]
    · rw [Object.get?_insert, if_neg apart]
    · rfl

/-- An output for which there is nothing takes the value. -/
theorem read?_fillOutput (isOpen : slot.info.Open object) :
    slot.info.read? (fillOutput value object slot) = some value := by
  obtain ⟨unread, keyed⟩ := isOpen
  rw [SlotInfo.read?] at unread ⊢
  cases isKey : slot.info.key with
  | none =>
    rw [isKey, Option.bind_fun_some] at unread
    rw [fillOutput, isKey, Object.insertNew, unread]
    simp [Object.get?_insert]
  | some key =>
    rw [isKey] at unread
    rw [fillOutput, isKey]
    cases found : Object.get? object slot.info.field with
    | none => simp [Object.get?_insert, Json.member?, Object.get?]
    | some held =>
      obtain ⟨members, rfl⟩ := keyed held found
      rw [found] at unread
      change Object.get? members key = none at unread
      simp [Object.get?_insert, Json.member?, Object.insertNew, unread]

/-- An output with a key changes nothing in the member of its field but what is under its key. -/
theorem exists_get?_fillOutput {key : String} (isKey : slot.info.key = some key) :
    ∃ held, Object.get? (fillOutput value object slot) slot.info.field = some held ∧
      (∀ other, key ≠ other → held.member? other =
        (Object.get? object slot.info.field).bind (·.member? other)) ∧
      ((∀ value, Object.get? object slot.info.field = some value →
        ∃ members, value = .object members) → ∃ members, held = .object members) := by
  rw [fillOutput, isKey]
  cases found : Object.get? object slot.info.field with
  | none =>
    exact ⟨_, (Object.get?_insert ..).trans (if_pos rfl), fun other apart => if_neg apart,
      fun _ => ⟨_, rfl⟩⟩
  | some held =>
    cases held with
    | object members =>
      exact ⟨_, (Object.get?_insert ..).trans (if_pos rfl),
        fun other apart => get?_insertNew_of_ne apart, fun _ => ⟨_, rfl⟩⟩
    | _ => exact ⟨_, found, fun other _ => rfl, fun keyed => keyed _ rfl⟩

/-- An output leaves what there is for others. -/
theorem read?_fillOutput_of_apart (apart : slot.info.Apart info) :
    info.read? (fillOutput value object slot) = info.read? object := by
  by_cases same : slot.info.field = info.field
  · obtain ⟨one, other, isOne, isOther, differ⟩ := apart same
    obtain ⟨held, here, members, -⟩ := exists_get?_fillOutput isOne
    rw [SlotInfo.read?, SlotInfo.read?, isOther, ← same, here, Option.bind_some]
    exact members other differ
  · rw [SlotInfo.read?, get?_fillOutput_of_ne same, SlotInfo.read?]

/-- An output leaves room for others. -/
theorem SlotInfo.Open.fillOutput (isOpen : info.Open object) (apart : slot.info.Apart info) :
    info.Open (fillOutput value object slot) := by
  refine ⟨(read?_fillOutput_of_apart apart).trans isOpen.unread, fun held found => ?_⟩
  by_cases same : slot.info.field = info.field
  · obtain ⟨one, -, isOne, -⟩ := apart same
    obtain ⟨other, here, -, keyed⟩ := exists_get?_fillOutput isOne
    rw [same] at here keyed
    rw [Option.some.inj (found.symm.trans here)]
    exact keyed isOpen.keyed
  · rw [get?_fillOutput_of_ne same] at found
    exact isOpen.keyed held found

/-- Every output takes the value if there is nothing for any of them and their names differ. -/
theorem read?_foldl_fillOutput {slots : List OutputSlot}
    (apart : slots.Pairwise fun first second => first.info.Apart second.info)
    (absent : ∀ slot ∈ slots, Object.get? object slot.info.field = none) (isSlot : slot ∈ slots) :
    slot.info.read? (slots.foldl (fillOutput value) object) = some value := by
  obtain ⟨before, after, rfl⟩ := List.append_of_mem isSlot
  obtain ⟨-, fromSlot, across⟩ := List.pairwise_append.1 apart
  have later := (List.pairwise_cons.1 fromSlot).1
  have isOpen : slot.info.Open (before.foldl (fillOutput value) object) := by
    refine List.foldlRecOn before _ (SlotInfo.open_of_absent (absent slot isSlot)) ?_
    intro reached isOpen earlier isEarlier
    exact isOpen.fillOutput (across earlier isEarlier slot List.mem_cons_self)
  rw [List.foldl_append, List.foldl_cons, foldl_frame (slot.info.read? ·) fun other isLater state =>
    read?_fillOutput_of_apart (later other isLater).symm]
  exact read?_fillOutput isOpen

namespace Node

/-- A value is the first one that is not empty among those a node sees, in the order of its
inputs. -/
def SeesFirst (node : Node) (inputs : Object) (value : Json) : Prop :=
  ∃ before slot after, node.inputs = before ++ slot :: after ∧
    (seenValue slot inputs = some value ∧ value.isEmpty = false) ∧
    ∀ earlier ∈ before, ∀ seen, seenValue earlier inputs = some seen → seen.isEmpty = true

variable {node : Node} {inputs : Object}

theorem firstInputValue_eq_some_iff :
    firstInputValue node inputs = some value ↔ node.SeesFirst inputs value := by
  simp only [firstInputValue, List.findSome?_eq_some_iff, SeesFirst, Option.filter_eq_some_iff,
    Option.filter_eq_none_iff, Bool.not_eq_true', Bool.not_eq_false]

theorem exists_seesFirst_iff : (∃ value, node.SeesFirst inputs value) ↔
    ∃ slot ∈ node.inputs, ∃ value, seenValue slot inputs = some value ∧ value.isEmpty = false := by
  simp only [← firstInputValue_eq_some_iff, ← Option.isSome_iff_exists, firstInputValue,
    List.findSome?_isSome_iff, Option.isSome_filter, Option.any_eq_true, Bool.not_eq_true']

/-- A node that passes on what it sees keeps all of it. -/
theorem get?_passThrough (absent : ∀ slot ∈ node.outputs, Object.get? inputs slot.info.field = none)
    {key : String} (found : Object.get? inputs key = some value) :
    Object.get? (passThrough node inputs) key = some value := by
  rw [passThrough]
  split
  · exact found
  · rw [foldl_frame (Object.get? · key) fun slot isSlot state => get?_fillOutput_of_ne ?_]
    · exact found
    · rintro rfl
      cases (absent slot isSlot).symm.trans found

/-- A node that passes on what it sees gives its outputs the first value. -/
theorem read?_passThrough (apart : node.outputs.Pairwise fun first second =>
      first.info.Apart second.info)
    (absent : ∀ slot ∈ node.outputs, Object.get? inputs slot.info.field = none)
    (first : node.SeesFirst inputs value) (isSlot : slot ∈ node.outputs) :
    slot.info.read? (passThrough node inputs) = some value := by
  rw [passThrough, firstInputValue_eq_some_iff.2 first]
  exact read?_foldl_fillOutput apart absent isSlot

/-! ### Nodes of models and primitive nodes -/

/-- The names of constants differ. -/
theorem Fits.nodup_constants {blueprint : Blueprint} (isMade : blueprint.IsMade)
    (fits : node.Fits blueprint) : node.constants.keys.Nodup := by
  rw [fits.constants]
  obtain ⟨modelRef, model, declared, rfl⟩ | ⟨kind, rfl⟩ := isMade
  · exact (declared.sound modelRef).distinct.sublist (List.filter_sublist.map _)
  · exact List.nodup_singleton _

/-- No slot of a model has the name of a constant. -/
theorem Fits.field_notMem_constants {modelRef : String} {model : Model}
    (sound : (Blueprint.ofModel modelRef model).Sound) (fits : node.Fits (.ofModel modelRef model))
    {direction : Direction} {info : SlotInfo} (isSlot : info ∈ node.slots direction) :
    info.field ∉ node.constants.keys := by
  intro isConstant
  obtain ⟨entry, inFields, field, role, -⟩ := (fits.sides direction).exists_entry isSlot
  rw [fits.constants] at isConstant
  obtain ⟨other, isOther, name⟩ := List.mem_map.1 isConstant
  obtain ⟨inFieldsToo, otherRole⟩ := mem_fieldsOf.1 isOther
  rw [sound.eq_of_name inFields inFieldsToo (field.trans name.symm), otherRole] at role
  cases direction <;> cases isMulti : info.isMulti <;> rw [isMulti] at role <;> cases role

/-- A primitive node has no inputs. -/
theorem Fits.inputs_ofKind {kind : NativeKind} (fits : node.Fits (.ofKind kind)) :
    node.inputs = [] := by
  have side := fits.sides .input
  have none (info : SlotInfo) (isSlot : info ∈ node.slots .input) : False := by
    obtain ⟨entry, inFields, -, role, -⟩ := side.exists_entry isSlot
    rw [List.mem_singleton.1 inFields] at role
    cases isMulti : info.isMulti <;> rw [isMulti] at role <;> cases role
  refine List.map_eq_nil_iff.1 (List.eq_nil_iff_forall_not_mem.2 none)

/-- The outputs of a primitive node are for its value. -/
theorem Fits.output_ofKind {kind : NativeKind} (fits : node.Fits (.ofKind kind))
    (isSlot : slot ∈ node.outputs) :
    slot.info.field = primitiveValueField ∧ slot.info.key = none := by
  have side := fits.sides .output
  have isInfo : slot.info ∈ node.slots .output := List.mem_map_of_mem isSlot
  obtain ⟨entry, inFields, field, role, -⟩ := side.exists_entry isInfo
  rw [List.mem_singleton.1 inFields] at field role
  refine ⟨field.symm, side.key_of_plain isInfo ?_⟩
  cases isMulti : slot.info.isMulti with
  | false => rfl
  | true =>
    rw [isMulti] at role
    cases role

end Node

namespace Graph

variable {graph : Graph} {outputs : Outputs} {node : Node} {blueprint : Blueprint}

/-- No output of a model has a member in what the node sees. -/
theorem get?_gather_output {modelRef : String} {model : Model} (declared : model.IsDeclared)
    (fits : node.Fits (.ofModel modelRef model)) (isSlot : slot ∈ node.outputs) :
    Object.get? (graph.gather outputs node) slot.info.field = none := by
  have sound := declared.sound modelRef
  have isInfo : slot.info ∈ node.slots .output := List.mem_map_of_mem isSlot
  have distinct := fits.nodup_constants (Or.inl ⟨modelRef, model, declared, rfl⟩)
  rw [get?_gather fits distinct fun info isInput same => ?_]
  · exact OrderedMap.get?_eq_none_iff.2 (fits.field_notMem_constants sound isInfo)
  · cases (fits.eq_of_field sound isInput isInfo same).1

/-- A node sees its constants. -/
theorem get?_gather_constant (isMade : blueprint.IsMade) (fits : node.Fits blueprint) {key : String}
    {value : Json} (isValue : node.constants.get? key = some value) :
    Object.get? (graph.gather outputs node) key = some value := by
  rw [get?_gather fits (fits.nodup_constants isMade) fun info isInput same => ?_]
  · exact isValue
  · have isConstant : key ∈ node.constants.keys := OrderedMap.mem_keys_iff.2 ⟨value, isValue⟩
    obtain ⟨modelRef, model, declared, rfl⟩ | ⟨kind, rfl⟩ := isMade
    · exact fits.field_notMem_constants (declared.sound modelRef) isInput (same ▸ isConstant)
    · rw [Node.slots, fits.inputs_ofKind] at isInput
      cases isInput

/-- What a node produces by passing on what it sees: all of this, and under the name of every output
the first value seen. -/
theorem passThrough_spec (graph : Graph) (outputs : Outputs)
    (isMade : ∃ blueprint : Blueprint, blueprint.IsMade ∧ node.Fits blueprint) :
    let inputs := graph.gather outputs node
    (∀ key value, Object.get? inputs key = some value →
      Object.get? (passThrough node inputs) key = some value) ∧
    ∀ value, node.SeesFirst inputs value → ∀ slot ∈ node.outputs,
      slot.info.read? (passThrough node inputs) = some value := by
  intro inputs
  obtain ⟨_, ⟨modelRef, model, declared, rfl⟩ | ⟨kind, rfl⟩, fits⟩ := isMade
  · have sound := declared.sound modelRef
    have absent : ∀ slot ∈ node.outputs, Object.get? inputs slot.info.field = none :=
      fun slot isSlot => get?_gather_output declared fits isSlot
    exact ⟨fun key value found => Node.get?_passThrough absent found, fun value first slot isSlot =>
      Node.read?_passThrough (fits.pairwise_output sound) absent first isSlot⟩
  · have none : ∀ value, ¬ node.SeesFirst inputs value := by
      rintro value ⟨before, slot, after, split, -⟩
      rw [fits.inputs_ofKind] at split
      cases before <;> cases split
    refine ⟨fun key value found => ?_, fun value first => absurd first (none value)⟩
    rw [passThrough]
    split
    · exact found
    · next value isFirst => exact absurd (Node.firstInputValue_eq_some_iff.1 isFirst) (none value)

/-! ### Live nodes -/

/-- A link carries what its origin has produced for its output. -/
theorem exists_carried (tied : graph.Tied) {link : Link} (isLink : link ∈ graph.links) :
    ∃ node ∈ graph.nodes, node.id = link.origin ∧ ∃ slot ∈ node.outputs, ∀ outputs,
      graph.carried outputs link.id =
        ((outputs.lookup link.origin).bind slot.info.read?).getD .null := by
  obtain ⟨port, isPort⟩ := tied.exists_endPort isLink .output
  obtain ⟨node, found, atPlace⟩ := Option.bind_eq_some_iff.1 isPort
  obtain ⟨isNode, isOrigin⟩ := mem_of_node? found
  rw [Node.ports, List.getElem?_map] at atPlace
  obtain ⟨slot, isSlot, -⟩ := Option.map_eq_some_iff.1 atPlace
  refine ⟨node, isNode, isOrigin, slot, List.mem_of_getElem? isSlot, fun outputs => ?_⟩
  change node.outputs[link.originSlot]? = some slot at isSlot
  change graph.node? link.origin = some node at found
  rw [carried, link?_of_mem tied.linksAscend isLink, Option.bind_some, found, Option.bind_some,
    isSlot]
  simp only [Option.map_some]
  cases outputs.lookup link.origin with
  | none => rfl
  | some produced =>
    simp only [Option.bind_some, SlotInfo.read?]
    cases Object.get? produced slot.info.field with
    | none => rfl
    | some value => cases slot.info.key <;> rfl

/-- The target of a link has an input for it. -/
theorem exists_target (tied : graph.Tied) {link : Link} (isLink : link ∈ graph.links)
    (isNode : node ∈ graph.nodes) (enters : link.target = node.id) :
    ∃ slot ∈ node.inputs, slot.link = some link.id := by
  obtain ⟨port, isPort⟩ := tied.exists_endPort isLink .input
  have atPlace : graph.port? node.id .input link.targetSlot = some port := by
    rw [← enters]
    exact isPort
  rw [tied.port?_of_mem isNode] at atPlace
  rw [Node.ports, List.getElem?_map] at atPlace
  obtain ⟨slot, isSlot, rfl⟩ := Option.map_eq_some_iff.1 atPlace
  exact ⟨slot, List.mem_of_getElem? isSlot, tied.link_of_input isLink isPort⟩

/-- A node sees something that is not empty in one of its inputs, or is a primitive node whose value
is not empty. -/
def Live (graph : Graph) (outputs : Outputs) (node : Node) : Prop :=
  (∃ slot ∈ node.inputs, ∃ value,
    seenValue slot (graph.gather outputs node) = some value ∧ value.isEmpty = false) ∨
  ((∃ kind, node.Fits (.ofKind kind)) ∧
    ∃ value, node.constants.get? primitiveValueField = some value ∧ value.isEmpty = false)

/-- A live node has something that is not empty for each of its outputs. -/
theorem Live.read? (live : graph.Live outputs node)
    (isMade : ∃ blueprint : Blueprint, blueprint.IsMade ∧ node.Fits blueprint)
    (isSlot : slot ∈ node.outputs) : ∃ value,
      slot.info.read? (passThrough node (graph.gather outputs node)) = some value ∧
        value.isEmpty = false := by
  obtain ⟨keeps, fills⟩ := passThrough_spec graph outputs isMade
  obtain sees | ⟨⟨kind, fits⟩, value, isValue, filled⟩ := live
  · obtain ⟨value, first⟩ := Node.exists_seesFirst_iff.2 sees
    have filled : value.isEmpty = false := by
      obtain ⟨-, -, -, -, ⟨-, filled⟩, -⟩ := first
      exact filled
    exact ⟨value, fills value first slot isSlot, filled⟩
  · obtain ⟨field, key⟩ := fits.output_ofKind isSlot
    refine ⟨value, ?_, filled⟩
    rw [SlotInfo.read?, field,
      keeps _ _ (get?_gather_constant (Or.inr ⟨kind, rfl⟩) fits isValue), key]
    rfl

section Preview

variable {link : Link} {producer consumer : Node} (tied : graph.Tied) (acyclic : graph.Acyclic)
include tied acyclic

/-- Where links lead nowhere back, every node produces what it passes on of what it sees. -/
theorem lookup_preview (isNode : node ∈ graph.nodes) :
    (graph.preview {}).lookup node.id =
      some (passThrough node (graph.gather (graph.preview {}) node)) :=
  (((tied.follows_evaluationOrder acyclic).solves tied tied.perm_evaluationOrder).1 node
    isNode).unregistered rfl

/-- A link that leaves a node carries what the node has for one of its outputs. -/
theorem exists_read (isNode : node ∈ graph.nodes) (isLink : link ∈ graph.links)
    (leaves : link.origin = node.id) : ∃ slot ∈ node.outputs,
      graph.carried (graph.preview {}) link.id =
        (slot.info.read? (passThrough node (graph.gather (graph.preview {}) node))).getD .null := by
  obtain ⟨origin, isOrigin, same, slot, isSlot, carried⟩ := exists_carried tied isLink
  obtain rfl : origin = node :=
    List.inj_on_of_nodup_map tied.nodup_nodeIds isOrigin isNode (same.trans leaves)
  refine ⟨slot, isSlot, ?_⟩
  rw [carried, leaves, lookup_preview tied acyclic isNode, Option.bind_some]

/-- The links that leave a live node carry something that is not empty. -/
theorem Live.isEmpty_carried (live : graph.Live (graph.preview {}) node)
    (isNode : node ∈ graph.nodes)
    (isMade : ∃ blueprint : Blueprint, blueprint.IsMade ∧ node.Fits blueprint)
    (isLink : link ∈ graph.links) (leaves : link.origin = node.id) :
    (graph.carried (graph.preview {}) link.id).isEmpty = false := by
  obtain ⟨slot, isSlot, carried⟩ := exists_read tied acyclic isNode isLink leaves
  obtain ⟨value, read, filled⟩ := live.read? isMade isSlot
  rw [carried, read]
  exact filled

variable (made : ∀ node ∈ graph.nodes,
  ∃ blueprint : Blueprint, blueprint.IsMade ∧ node.Fits blueprint)
include made

/-- A node that a live node feeds is live. -/
theorem Live.of_feeds (live : graph.Live (graph.preview {}) producer)
    (isProducer : producer ∈ graph.nodes) (isConsumer : consumer ∈ graph.nodes)
    (feeds : graph.Feeds producer.id consumer.id) : graph.Live (graph.preview {}) consumer := by
  obtain ⟨link, isLink, leaves, enters⟩ := feeds
  obtain ⟨blueprint, isMade, fits⟩ := made consumer isConsumer
  obtain ⟨slot, isSlot, linked⟩ := exists_target tied isLink isConsumer enters
  exact Or.inl ⟨slot, isSlot, _, seenValue_gather isMade.sound fits isSlot linked,
    live.isEmpty_carried tied acyclic isProducer (made producer isProducer) isLink leaves⟩

/-- All nodes to which links lead from a live node are live. -/
theorem Live.of_reaches (live : graph.Live (graph.preview {}) producer)
    (isProducer : producer ∈ graph.nodes) (isConsumer : consumer ∈ graph.nodes)
    (reaches : graph.Reaches producer.id consumer.id) : graph.Live (graph.preview {}) consumer := by
  generalize isEnd : consumer.id = id at reaches
  induction reaches generalizing consumer with
  | refl =>
    rw [List.inj_on_of_nodup_map tied.nodup_nodeIds isConsumer isProducer isEnd]
    exact live
  | tail _ feeds inductionHypothesis =>
    obtain ⟨middle, isMiddle, rfl⟩ := exists_node (feeds.mem_nodeIds tied).1
    exact (inductionHypothesis isMiddle rfl).of_feeds tied acyclic made isMiddle isConsumer
      (isEnd ▸ feeds)

end Preview

/-- In a preview of any graph without cycles that operations lead to, where nodes pass on what they
see: every node produces all that it sees, its constants among it; a node that sees something which
is not empty produces the first such value for each of its outputs, and the links that leave it
carry this value; the links that leave a live node carry something that is not empty, and all nodes
to which links lead from it are live. -/
theorem live_run (operations : List Operation) (acyclic : (run operations).Acyclic) :
    let graph := run operations
    let outputs := graph.preview {}
    ∀ node ∈ graph.nodes, ∃ produced, outputs.lookup node.id = some produced ∧
      (∀ key value, Object.get? (graph.gather outputs node) key = some value →
        Object.get? produced key = some value) ∧
      (∀ key value, node.constants.get? key = some value →
        Object.get? produced key = some value) ∧
      ((∃ slot ∈ node.inputs, ∃ value, seenValue slot (graph.gather outputs node) = some value ∧
          value.isEmpty = false) →
        ∃ value, node.SeesFirst (graph.gather outputs node) value ∧
          (∀ slot ∈ node.outputs, slot.info.read? produced = some value) ∧
          ∀ link ∈ graph.links, link.origin = node.id →
            graph.carried outputs link.id = value) ∧
      (graph.Live outputs node →
        (∀ link ∈ graph.links, link.origin = node.id →
          (graph.carried outputs link.id).isEmpty = false) ∧
        ∀ other ∈ graph.nodes, graph.Reaches node.id other.id → graph.Live outputs other) := by
  intro graph outputs
  have tied := tied_run operations
  have made (node : Node) (isNode : node ∈ graph.nodes) := isMade_run operations isNode
  intro node isNode
  obtain ⟨blueprint, isMade, fits⟩ := made node isNode
  obtain ⟨keeps, fills⟩ := passThrough_spec graph outputs ⟨blueprint, isMade, fits⟩
  refine ⟨_, lookup_preview tied acyclic isNode, keeps, fun key value isValue => ?_,
    fun sees => ?_, fun live => ⟨fun link isLink leaves => ?_, fun other isOther reaches => ?_⟩⟩
  · exact keeps key value (get?_gather_constant isMade fits isValue)
  · obtain ⟨value, first⟩ := Node.exists_seesFirst_iff.2 sees
    refine ⟨value, first, fills value first, fun link isLink leaves => ?_⟩
    obtain ⟨slot, isSlot, carried⟩ := exists_read tied acyclic isNode isLink leaves
    rw [carried, fills value first slot isSlot, Option.getD_some]
  · exact live.isEmpty_carried tied acyclic isNode (made node isNode) isLink leaves
  · exact live.of_reaches tied acyclic made isNode isOther reaches

theorem checked_chain :
    let graph := run [.importDocument steps (linkedSteps 2 [(0, 1)]) {}]
    graph.nodeIds = [⟨1⟩, ⟨2⟩] ∧ ∀ node ∈ graph.nodes, node.id = ⟨1⟩ →
      (firstInputValue node (graph.gather [] node)).isSome := by
  decide +kernel

/-- In a chain of two steps the first one sees its own number, and both are live. -/
theorem live_chain :
    let graph := run [.importDocument steps (linkedSteps 2 [(0, 1)]) {}]
    graph.Acyclic ∧ ∀ node ∈ graph.nodes, graph.Live (graph.preview {}) node := by
  intro graph
  have feeds (producer id : NodeId) : graph.Feeds producer id ↔
      (producer, id) ∈ [((⟨1⟩, ⟨2⟩) : NodeId × NodeId)] := feeds_iff_of_links links_linkedSteps.1
  have acyclic : graph.Acyclic := acyclic_of_links links_linkedSteps.1 (by decide)
  obtain ⟨ids, seen⟩ := checked_chain
  have tied := tied_run [.importDocument steps (linkedSteps 2 [(0, 1)]) {}]
  obtain ⟨first, isFirst, isOne⟩ := exists_node (show ⟨1⟩ ∈ graph.nodeIds from ids ▸ by decide)
  have live : graph.Live (graph.preview {}) first := by
    refine Or.inl (Node.exists_seesFirst_iff.1 ?_)
    obtain ⟨value, isValue⟩ := Option.isSome_iff_exists.1 (seen first isFirst isOne)
    refine ⟨value, Node.firstInputValue_eq_some_iff.1 (.trans ?_ isValue)⟩
    rw [tied.gather_congr isFirst fun producer isFed => ?_]
    rw [isOne, feeds] at isFed
    exact absurd (Prod.mk.inj (List.mem_singleton.1 isFed)).2 (by decide)
  refine ⟨acyclic, fun node isNode => ?_⟩
  obtain ⟨_, -, -, -, -, onward⟩ := live_run _ acyclic first isFirst
  refine (onward live).2 node isNode ?_
  have isListed : node.id ∈ graph.nodeIds := List.mem_map_of_mem isNode
  rw [show graph.nodeIds = _ from ids] at isListed
  rw [isOne]
  obtain same | same := List.mem_pair.1 isListed
  · rw [same]
    exact .refl
  · rw [same]
    exact .single ((feeds _ _).2 (List.mem_singleton.2 rfl))

end Graph

end Workflow
