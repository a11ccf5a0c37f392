/-
This file proves that a slot is found again under the name that led to it.

A slot that was found in the graph as it is stays where it is. A key that was added gives
its slot the name that asked for it, if the name spells the key as it is kept. Keys are
kept without the blanks around them, so a name that asks for a key with such blanks is
never that of a slot, nor is a slot shown under it: it adds the key once, and from then
on it leads nowhere.
-/

import Workflow.Proofs.Document.Accounts
import Workflow.Proofs.Graph.Growth
import Workflow.Proofs.Graph.Run

namespace Workflow

open Text

/-! ### Names of keys with blanks -/

/-- A slot is not shown under a name that spells its key with blanks around it. -/
theorem SlotInfo.displayName_withKey_ne {info : SlotInfo} {field key : String}
    (named : trimKey key ≠ "") (padded : trimKey key ≠ key) :
    (info.withKey (trimKey key)).displayName ≠ field ++ "." ++ key := by
  intro same
  obtain ⟨front, back, parts, frontBlank, backBlank, visible⟩ := exists_trim key.toList
  have letters : ((info.title.getD info.field).toList ++ [' ', '[']) ++
      (trim key.toList ++ [']']) = (field.toList ++ ['.']) ++ key.toList := by
    have letters := congrArg String.toList same
    simp only [displayName, withKey, trimKey, String.toList_append, String.toList_ofList] at letters
    simpa using letters
  cases kept : trim key.toList with
  | nil => exact named (by rw [trimKey, kept, String.ofList_nil])
  | cons first rest =>
    rw [kept] at parts letters visible
    have isVisible := visible first rfl
    -- What is shown ends with a bracket, so no blank stands behind the key.
    have noBack : back = [] := by
      cases isBack : back.getLast? with
      | none => exact List.getLast?_eq_none_iff.1 isBack
      | some last =>
        have ends := congrArg List.getLast? letters
        rw [parts, ← List.append_assoc, ← List.append_assoc, List.getLast?_concat,
          List.getLast?_append, isBack] at ends
        have blank := backBlank last (List.mem_of_getLast? isBack)
        rw [← Option.some.inj ends] at blank
        cases blank
    rw [noBack, List.append_nil] at parts
    -- The blank in front of the key stands where the key starts to be shown.
    obtain rfl | ⟨before, blank, rfl⟩ := List.eq_nil_or_concat' front
    · refine padded ?_
      rw [trimKey, kept, ← List.nil_append (first :: rest), ← parts, String.ofList_toList]
    · rw [parts, List.append_assoc before, ← List.append_assoc _ before] at letters
      obtain ⟨-, starts⟩ := List.append_inj' letters (by simp)
      have isBlank := frontBlank blank (by simp)
      rw [← (List.cons.inj starts).1, isVisible] at isBlank
      cases isBlank

namespace Node

variable {blueprint : Blueprint} {node : Node} {direction : Direction} {name field key : String}

/-- A field with keys on one side is found on this side. -/
theorem Fits.exists_multiField (sound : blueprint.Sound) (fits : node.Fits blueprint)
    (listed : (node.multiSlots direction).contains field = true) :
    ∃ places, node.multiField? field = some (direction, places) := by
  obtain ⟨places, found⟩ := OrderedMap.mem_keys_iff.1 (OrderedMap.contains_iff.1 listed)
  cases direction with
  | input => exact ⟨places, by rw [multiField?, show node.multiInputs.get? field = _ from found]⟩
  | output =>
    refine ⟨places, ?_⟩
    rw [multiField?]
    split
    · next others isInput =>
      obtain ⟨entry, isEntry, ofField, -⟩ := (fits.sides .output).entry_of_places found
      obtain ⟨other, isOther, same, -⟩ := (fits.sides .input).entry_of_places isInput
      obtain ⟨inFields, role⟩ := mem_fieldsOf.1 isEntry
      obtain ⟨inFields', role'⟩ := mem_fieldsOf.1 isOther
      rw [sound.eq_of_name inFields inFields' (ofField.trans same.symm), role'] at role
      cases role
    · rw [show node.multiOutputs.get? field = _ from found, Option.map_some]

theorem keyedName?_congr {after : Node}
    (same : (after.multiSlots direction).keys = (node.multiSlots direction).keys) :
    after.keyedName? direction name = node.keyedName? direction name := by
  have contains (field : String) : (after.multiSlots direction).contains field =
      (node.multiSlots direction).contains field := by
    rw [Bool.eq_iff_iff, OrderedMap.contains_iff, OrderedMap.contains_iff, same]
  rw [keyedName?, keyedName?]
  simp only [contains]

end Node

namespace Graph

variable {graph after : Graph} {id : NodeId} {node : Node} {blueprint : Blueprint}
  {direction : Direction} {name field key : String} {place : Nat}

/-! ### Names of slots -/

/-- The name of a slot leads to it and changes nothing. -/
theorem resolveSlot_internalName (sound : blueprint.Sound) (fits : node.Fits blueprint)
    (isNode : graph.node? id = some node) {info : SlotInfo}
    (isSlot : (node.slots direction)[place]? = some info) :
    graph.resolveSlot id direction info.internalName = some (place, graph) := by
  rw [resolveSlot, isNode]
  dsimp only
  rw [fits.slotNamed?_eq sound isSlot, Option.some_or]

/-- The slots of a node to which a key of a field was added, one of them at the place of the key. -/
structure GainsKey (before : Node) (direction : Direction) (field key : String) (place : Nat)
    (after : Node) : Prop where
  isKey : ∃ template : SlotInfo, template.isOf field = true ∧
    (after.slots direction)[place]? = some (template.withKey (trimKey key)) ∧
    ∀ info ∈ after.slots direction, info ∈ before.slots direction ∨
      info = template.withKey (trimKey key)
  fields : (after.multiSlots direction).keys = (before.multiSlots direction).keys

theorem gainsKey_of_addKey (fits : node.Fits blueprint) (isNode : graph.node? id = some node)
    {places : List Nat} (isField : node.multiField? field = some (direction, places))
    (success : graph.addKey id field key = .ok (place, after)) :
    ∃ grown, after.node? id = some grown ∧ GainsKey node direction field key place grown := by
  obtain ⟨template, isOf, -, ⟨-, isTemplate, rfl⟩ | ⟨rfl, rfl⟩⟩ :=
    addKey_of_field fits isNode isField success
  · refine ⟨_, node?_modifyNode_self isNode fun node => by cases direction <;> rfl,
      ⟨template, isOf, ?_, fun info member => ?_⟩, by rw [Node.multiSlots_rekey]⟩
    · rw [Node.slots_rekey, if_pos rfl, List.getElem?_modify_eq, isTemplate]
      rfl
    · rw [Node.slots_rekey, if_pos rfl] at member
      obtain ⟨spot, isSpot⟩ := List.mem_iff_getElem?.1 member
      rw [List.getElem?_modify] at isSpot
      obtain ⟨old, isOld, same⟩ := Option.map_eq_some_iff.1 isSpot
      split at same
      · next here =>
        rw [← here, isTemplate] at isOld
        cases isOld
        exact Or.inr same.symm
      · exact Or.inl (same ▸ List.mem_of_getElem? isOld)
  · refine ⟨_, node?_modifyNode_self isNode fun node => by cases direction <;> rfl,
      ⟨template, isOf, ?_, fun info member => ?_⟩, ?_⟩
    · rw [Node.slots_appendSlot, if_pos rfl, List.getElem?_concat_length]
      rfl
    · rw [Node.slots_appendSlot, if_pos rfl] at member
      exact (List.mem_append.1 member).imp_right List.mem_singleton.1
    · rw [Node.multiSlots_appendSlot, if_pos rfl, OrderedMap.keys_modify]

/-! ### Finding a slot again -/

/-- No slot has the name, but it is that of a key of some field with keys, with blanks around the
key. -/
def AsksForPadded (graph : Graph) (id : NodeId) (direction : Direction) (name : String) : Prop :=
  ∃ node ∈ graph.node? id, node.slotNamed? direction name = none ∧
    node.slotShown? direction name = none ∧
    ∃ part ∈ node.keyedName? direction name, trimKey part.2 ≠ part.2

instance (graph : Graph) (id : NodeId) (direction : Direction) (name : String) :
    Decidable (graph.AsksForPadded id direction name) :=
  inferInstanceAs (Decidable (∃ node ∈ graph.node? id, _ ∧ _ ∧
    ∃ part ∈ node.keyedName? direction name, _))

/-- A key that a slot has cannot be added. -/
theorem addKey_toOption_eq_none (fits : node.Fits blueprint) (isNode : graph.node? id = some node)
    {places : List Nat} (isField : node.multiField? field = some (direction, places))
    {info : SlotInfo} (member : info ∈ node.slots direction) (isOf : info.isOf field = true)
    (isKey : info.key = some (trimKey key)) : (graph.addKey id field key).toOption = none := by
  cases added : graph.addKey id field key with
  | error problem => rfl
  | ok answer =>
    obtain ⟨-, found, side, first, others, template, isFound, isSide, isNew, -⟩ :=
      addKey_cases added
    obtain rfl := Option.some.inj (isNode.symm.trans isFound)
    obtain ⟨rfl, rfl⟩ := Prod.mk.inj (Option.some.inj (isField.symm.trans isSide))
    exact absurd isKey (fits.key_ne_of_placeOfKey? isField isNew info member isOf)

section Again

variable (tied : graph.Tied) (sound : blueprint.Sound) (fits : node.Fits blueprint)
  (isNode : graph.node? id = some node) (notNamed : node.slotNamed? direction name = none)
  (notShown : node.slotShown? direction name = none)
  (keyed : node.keyedName? direction name = some (field, key))
  (success : graph.addKey id field key = .ok (place, after))

include tied sound fits isNode keyed success

/-- A name that spells its key as it is kept leads to the key that was added for it. -/
theorem resolveSlot_again_of_kept (kept : trimKey key = key) :
    after.resolveSlot id direction name = some (place, after) := by
  obtain ⟨spelled, -, listed⟩ := Node.eq_of_keyedName? keyed
  obtain ⟨places, isField⟩ := fits.exists_multiField sound listed
  obtain ⟨grown, isGrown, ⟨template, isOf, isSlot, -⟩, -⟩ :=
    gainsKey_of_addKey fits isNode isField success
  have fitsGrown := (edits_addKey tied success).fits tied isNode isGrown fits
  have named : (template.withKey (trimKey key)).internalName = name := by
    rw [spelled, kept, ← (SlotInfo.isOf_iff.1 isOf).2]
    rfl
  rw [← named]
  exact resolveSlot_internalName sound fitsGrown isGrown isSlot

include notNamed notShown

/-- A name that spells its key with blanks around it leads nowhere once the key is there. -/
theorem resolveSlot_again_of_padded (padded : trimKey key ≠ key) :
    after.resolveSlot id direction name = none := by
  obtain ⟨spelled, dotless, listed⟩ := Node.eq_of_keyedName? keyed
  obtain ⟨places, isField⟩ := fits.exists_multiField sound listed
  obtain ⟨grown, isGrown, ⟨template, isOf, isSlot, others⟩, fields⟩ :=
    gainsKey_of_addKey fits isNode isField success
  have fitsGrown := (edits_addKey tied success).fits tied isNode isGrown fits
  obtain ⟨named, -⟩ := addKey_cases success
  have ofField : template.field = field := (SlotInfo.isOf_iff.1 isOf).2
  have stillNotNamed : grown.slotNamed? direction name = none := by
    refine Node.slotNamed?_eq_none_iff.2 fun info member same => ?_
    obtain old | rfl := others info member
    · exact Node.slotNamed?_eq_none_iff.1 notNamed info old same
    · have sameName := @SlotInfo.name_eq_of_internalName (template.withKey (trimKey key))
        (template.withKey key) (ofField ▸ dotless) (ofField ▸ dotless)
        (same.trans (spelled.trans (by rw [← ofField]; rfl)))
      exact padded (Option.some.inj (congrArg SlotName.key sameName))
  have stillNotShown : grown.slotShown? direction name = none := by
    refine Node.slotShown?_eq_none_iff.2 fun info member same => ?_
    obtain old | rfl := others info member
    · exact Node.slotShown?_eq_none_iff.1 notShown info old same
    · exact SlotInfo.displayName_withKey_ne named padded (same.trans spelled)
  obtain ⟨placesGrown, isFieldGrown⟩ : ∃ places, grown.multiField? field =
      some (direction, places) := by
    refine fitsGrown.exists_multiField sound ?_
    rw [OrderedMap.contains_iff, fields]
    exact OrderedMap.contains_iff.1 listed
  rw [resolveSlot, isGrown]
  dsimp only
  rw [stillNotNamed, stillNotShown, Option.none_or, Node.keyedName?_congr fields, keyed]
  exact addKey_toOption_eq_none fitsGrown isGrown isFieldGrown (List.mem_of_getElem? isSlot) isOf
    rfl

end Again

/-- In every graph that operations lead to, the name of a slot leads to it and changes nothing. A
name that led to a slot leads there again and changes nothing more, unless it asked for a key with
blanks around it: then the key is there without them, and the name does not find it. -/
theorem foundAgain_run (operations : List Operation) (id : NodeId) (direction : Direction) :
    let graph := run operations
    (∀ name place after, graph.resolveSlot id direction name = some (place, after) →
      after.resolveSlot id direction name =
        if graph.AsksForPadded id direction name then none else some (place, after)) ∧
    ∀ node ∈ graph.node? id, ∀ place info, (node.slots direction)[place]? = some info →
      graph.resolveSlot id direction info.internalName = some (place, graph) := by
  intro graph
  have tied : graph.Tied := tied_run operations
  have made {node : Node} (isNode : graph.node? id = some node) :=
    fitted_run operations node (mem_of_node? isNode).1
  refine ⟨fun name place after found => ?_, fun node isNode place info isSlot => ?_⟩
  · obtain ⟨node, isNode⟩ : ∃ node, graph.node? id = some node := by
      cases isNode : graph.node? id with
      | none =>
        rw [resolveSlot, isNode] at found
        cases found
      | some node => exact ⟨node, rfl⟩
    obtain ⟨blueprint, sound, fits⟩ := made isNode
    have asks : graph.AsksForPadded id direction name ↔
        node.slotNamed? direction name = none ∧ node.slotShown? direction name = none ∧
          ∃ part ∈ node.keyedName? direction name, trimKey part.2 ≠ part.2 := by
      rw [AsksForPadded, isNode]
      simp only [Option.mem_def, Option.some.injEq, exists_eq_left']
    obtain ⟨isNamed, rfl⟩ | ⟨-, isShown, rfl⟩ | ⟨notNamed, notShown, ways⟩ :=
      resolveSlot_ways isNode found
    · rw [if_neg, found]
      rw [asks, isNamed]
      rintro ⟨⟨⟩, -⟩
    · rw [if_neg, found]
      rw [asks, isShown]
      rintro ⟨-, ⟨⟩, -⟩
    · obtain ⟨field, key, keyed, added⟩ | ⟨notKeyed, -, rfl⟩ := ways
      · by_cases kept : trimKey key = key
        · rw [if_neg, resolveSlot_again_of_kept tied sound fits isNode keyed added kept]
          rw [asks, keyed]
          rintro ⟨-, -, _, ⟨⟩, padded⟩
          exact padded kept
        · rw [if_pos (asks.2 ⟨notNamed, notShown, (field, key), keyed, kept⟩)]
          exact resolveSlot_again_of_padded tied sound fits isNode notNamed notShown keyed added
            kept
      · rw [if_neg, found]
        rw [asks, notKeyed]
        rintro ⟨-, -, _, ⟨⟩, -⟩
  · obtain ⟨blueprint, sound, fits⟩ := made isNode
    exact resolveSlot_internalName sound fits isNode isSlot

/-- A schema with a model whose results have keys. -/
def keyedSteps : { registry : Registry // registry.IsRead } :=
  ⟨Registry.register {} "flow" (Schema.parse
    ("class Step(BaseModel):\n" ++
      "    outs: Annotated[Dict[str, int], FieldRole.MULTI_OUTPUT] = None\n" ++
      "    given: Annotated[int, FieldRole.INPUT] = 0\n")),
    (Registry.isRead_empty {}).register "flow" _⟩

/-- The step of a document without edges. -/
def oneStep : List Operation := [.importDocument keyedSteps { nodes := [{ type := "Step" }] } {}]

/-- The places found under a name once and then again, and the names of the slots afterwards. -/
def foundTwice (name : String) : Option (Nat × Option Nat × List (List String)) :=
  ((run oneStep).resolveSlot ⟨1⟩ .output name).map fun found =>
    (found.1, (found.2.resolveSlot ⟨1⟩ .output name).map Prod.fst,
      found.2.nodes.map fun node => (node.slots .output).map SlotInfo.internalName)

theorem foundTwice_spelled : foundTwice "outs.a" = some (0, some 0, [["outs.a"]]) ∧
    foundTwice "outs. a" = some (0, none, [["outs.a"]]) ∧
    ¬(run oneStep).AsksForPadded ⟨1⟩ .output "outs.a" := by
  decide +kernel

theorem inputs_oneStep : ((run oneStep).node? ⟨1⟩).map
    (fun node => (node.slots .input).map SlotInfo.internalName) = some ["given"] := by
  decide +kernel

/-- A key is added under the name that asks for it and found again there, and an input is found by
its name. -/
theorem foundAgain_key :
    (∃ after, (run oneStep).resolveSlot ⟨1⟩ .output "outs.a" = some (0, after) ∧
      after.resolveSlot ⟨1⟩ .output "outs.a" = some (0, after)) ∧
    (run oneStep).resolveSlot ⟨1⟩ .input "given" = some (0, run oneStep) := by
  obtain ⟨⟨place, after⟩, isFound, same⟩ := Option.map_eq_some_iff.1 foundTwice_spelled.1
  obtain rfl : place = 0 := congrArg Prod.fst same
  have again := (foundAgain_run oneStep ⟨1⟩ .output).1 "outs.a" 0 after isFound
  rw [if_neg foundTwice_spelled.2.2] at again
  obtain ⟨node, isNode, names⟩ := Option.map_eq_some_iff.1 inputs_oneStep
  obtain ⟨info, slots, named⟩ := List.map_eq_singleton_iff.1 names
  have isSlot : (node.slots .input)[0]? = some info := by
    rw [slots]
    rfl
  have isFound' := (foundAgain_run oneStep ⟨1⟩ .input).2 node isNode 0 info isSlot
  rw [named] at isFound'
  exact ⟨⟨after, isFound, again⟩, isFound'⟩

/-- A key is added under a name with a blank in front of the key and not found again there. -/
theorem foundAgain_padded : ∃ after,
    (run oneStep).resolveSlot ⟨1⟩ .output "outs. a" = some (0, after) ∧
      after.resolveSlot ⟨1⟩ .output "outs. a" = none := by
  obtain ⟨⟨place, after⟩, isFound, same⟩ := Option.map_eq_some_iff.1 foundTwice_spelled.2.1
  obtain ⟨rfl, again, -⟩ : place = 0 ∧ (after.resolveSlot ⟨1⟩ .output "outs. a").map Prod.fst =
      none ∧ _ := ⟨congrArg Prod.fst same, congrArg (fun found => found.2.1) same, trivial⟩
  exact ⟨after, isFound, Option.map_eq_none_iff.1 again⟩

end Graph

end Workflow
