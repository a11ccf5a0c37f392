/-
This file says what an operation of a graph did when it succeeded: what it found,
and which graph it made. Whatever is proved about an operation starts from here.
-/

import Workflow.Document.Import
import Workflow.Proofs.Graph.Tied
import Workflow.Proofs.Text.Split

namespace Workflow

open Text

/-- A name that is read as a key is that of a field with keys and the key. -/
theorem Node.eq_of_keyedName? {node : Node} {direction : Direction} {name field key : String}
    (keyed : node.keyedName? direction name = some (field, key)) :
    name = field ++ "." ++ key ∧ '.' ∉ field.toList ∧
      (node.multiSlots direction).contains field = true := by
  rw [keyedName?] at keyed
  split at keyed
  · next before after isCut =>
    split at keyed
    · next listed =>
      cases keyed
      refine ⟨String.toList_inj.1 ?_, ?_, listed⟩
      · rw [eq_of_cut isCut]
        simp [String.toList_append]
      · rw [String.toList_ofList]
        exact notMem_of_cut isCut
    · cases keyed
  · cases keyed

namespace Graph

variable {graph after : Graph} {id : NodeId} {field key : String}

theorem multiField_cases {node : Node} {direction : Direction} {places : List Nat}
    (found : graph.multiField id field = .ok (node, direction, places)) :
    graph.node? id = some node ∧ node.multiField? field = some (direction, places) := by
  rw [multiField] at found
  split at found
  · cases found
  · next isNode =>
    split at found
    · cases found
    · next isField =>
      cases found
      exact ⟨isNode, isField⟩

/-- Adding a key named the placeholder of the field, or gave the field one more slot. -/
theorem addKey_cases {place : Nat} (success : graph.addKey id field key = .ok (place, after)) :
    trimKey key ≠ "" ∧ ∃ node direction first others template,
      graph.node? id = some node ∧ node.multiField? field = some (direction, first :: others) ∧
      node.placeOfKey? direction (first :: others) (trimKey key) = none ∧
      (node.slots direction)[first]? = some template ∧
      ((others = [] ∧ template.key = none ∧ place = first ∧
          after = (graph.modifyNode id fun node =>
            node.rekey direction first (trimKey key)).record (.slotsChanged id field)) ∨
        ((template.key.isSome = true ∨ others ≠ []) ∧ place = (node.slots direction).length ∧
          after = (graph.modifyNode id fun node => node.appendSlot direction field
            { template with key := some (trimKey key) }).record (.slotsChanged id field))) := by
  simp only [addKey] at success
  split at success
  · cases success
  · next named =>
    refine ⟨fun empty => named (String.isEmpty_iff.2 empty), ?_⟩
    split at success
    · cases success
    · next node direction places found =>
      obtain ⟨isNode, isField⟩ := multiField_cases found
      split at success
      · cases success
      · next isNew =>
        split at success
        · next first others template isTemplate =>
          refine ⟨node, direction, first, others, template, isNode, isField,
            Option.not_isSome_iff_eq_none.1 isNew, isTemplate, ?_⟩
          split at success
          · next alone =>
            cases success
            exact Or.inl ⟨List.isEmpty_iff.1 alone.1, Option.isNone_iff_eq_none.1 alone.2, rfl, rfl⟩
          · next several =>
            cases success
            refine Or.inr ⟨?_, rfl, rfl⟩
            cases others with
            | nil => exact Or.inl (Option.isSome_iff_ne_none.2 (by simpa using several))
            | cons other rest => exact Or.inr (List.cons_ne_nil other rest)
        · cases success

/-- Removing a key took away the links of its slot, the slot, and what came with the key. -/
theorem removeKey_cases (success : graph.removeKey id field key = .ok after) :
    ∃ node direction places place,
      graph.node? id = some node ∧ node.multiField? field = some (direction, places) ∧
      1 < places.length ∧ node.placeOfKey? direction places key = some place ∧
      after = ((((graph.links.filter (endsAt id direction place)).foldl dropLink graph).removeSlot
        id direction place).modifyNode id fun node =>
          node.dropKeyedValue field key).record (.slotsChanged id field) := by
  simp only [removeKey] at success
  split at success
  · cases success
  · next node direction places found =>
    obtain ⟨isNode, isField⟩ := multiField_cases found
    split at success
    · cases success
    · next several =>
      split at success
      · cases success
      · next place isPlace =>
        cases success
        exact ⟨node, direction, places, place, isNode, isField, Nat.lt_of_not_le several, isPlace,
          rfl⟩

/-- Renaming a key did nothing because the key stays, or gave its slot a key that is new. -/
theorem renameKey_cases {newKey : String}
    (success : graph.renameKey id field key newKey = .ok after) :
    trimKey newKey ≠ "" ∧ ∃ node direction places place,
      graph.node? id = some node ∧ node.multiField? field = some (direction, places) ∧
      node.placeOfKey? direction places key = some place ∧
      ((trimKey newKey = key ∧ after = graph) ∨
        (trimKey newKey ≠ key ∧ node.placeOfKey? direction places (trimKey newKey) = none ∧
          after = (graph.modifyNode id fun node =>
            (node.moveKeyedValue field key (trimKey newKey)).rekey direction place
              (trimKey newKey)).record (.slotsChanged id field))) := by
  simp only [renameKey] at success
  split at success
  · cases success
  · next named =>
    refine ⟨fun empty => named (String.isEmpty_iff.2 empty), ?_⟩
    split at success
    · cases success
    · next node direction places found =>
      obtain ⟨isNode, isField⟩ := multiField_cases found
      split at success
      · cases success
      · next place isPlace =>
        refine ⟨node, direction, places, place, isNode, isField, isPlace, ?_⟩
        split at success
        · next same =>
          cases success
          exact Or.inl ⟨same, rfl⟩
        · next different =>
          split at success
          · cases success
          · next isNew =>
            cases success
            exact Or.inr ⟨different, Option.not_isSome_iff_eq_none.1 isNew, rfl⟩

/-- A link was added between two slots that are there, of types that fit, the input being free. -/
theorem connect_cases {origin target : NodeId} {originSlot targetSlot : Nat} {link : LinkId}
    (success : graph.connect origin originSlot target targetSlot = .ok (link, after)) :
    (link, after) = graph.addLink origin originSlot target targetSlot ∧ ∃ output input,
      graph.port? origin .output originSlot = some output ∧
      graph.port? target .input targetSlot = some input ∧ input.links = [] ∧
      compatible output.info.rawType input.info.rawType = true := by
  rw [connect] at success
  split at success
  · cases success
  · next originNode isOrigin =>
    split at success
    · cases success
    · next targetNode isTarget =>
      split at success
      · cases success
      · next output isOutput =>
        split at success
        · cases success
        · next input isInput =>
          split at success
          · cases success
          · next fits =>
            split at success
            · cases success
            · next free =>
              cases success
              refine ⟨rfl, output.port, input.port, ?_, ?_, ?_, ?_⟩
              · rw [port?, isOrigin]
                exact Node.getElem?_ports_output isOutput
              · rw [port?, isTarget]
                exact Node.getElem?_ports_input isInput
              · rw [InputSlot.port, free]
                rfl
              · show compatible output.info.rawType input.info.rawType = true
                rw [← output.rawType_eq, ← input.rawType_eq]
                simpa using fits

/-- The links that touched the node were taken away, and then the node. -/
theorem removeNode_cases {node : Node} (success : graph.removeNode id = some (node, after)) :
    (((graph.links.filter fun link => link.origin = id ∨ link.target = id).foldl dropLink
      graph).node? id) = some node ∧
    after = ((((graph.links.filter fun link => link.origin = id ∨ link.target = id).foldl dropLink
      graph).dropNode id).record (.nodeRemoved id)) := by
  rw [removeNode] at success
  obtain ⟨found, isFound, same⟩ := Option.map_eq_some_iff.1 success
  cases same
  exact ⟨isFound, rfl⟩

theorem disconnect_cases {link : LinkId} {stored : Link}
    (success : graph.disconnect link = some (stored, after)) :
    graph.link? link = some stored ∧ after = graph.dropLink stored := by
  obtain ⟨found, isFound, same⟩ := Option.map_eq_some_iff.1 success
  cases same
  exact ⟨isFound, rfl⟩

/-- A value was set on an input that takes one. -/
theorem setInput_cases {slot : Nat} {value : Json}
    (success : graph.setInput id slot value = some after) :
    (∃ node input, graph.node? id = some node ∧ node.inputs[slot]? = some input ∧
      input.native.isSome = true) ∧
    after = (graph.modifyNode id fun node =>
      { node with
        inputs := node.inputs.modify slot fun input =>
          { input with
            native := input.native.map fun native =>
              { native with value := value, explicit := true } } }).record
      (.fieldChanged id slot) := by
  rw [setInput] at success
  split at success
  · cases success
  · next native isNative =>
    cases success
    obtain ⟨node, isNode, bound⟩ := Option.bind_eq_some_iff.1 isNative
    obtain ⟨input, isInput, takesValue⟩ := Option.bind_eq_some_iff.1 bound
    exact ⟨⟨node, input, isNode, isInput, Option.isSome_of_mem takesValue⟩, rfl⟩

/-- A constant was replaced on a node that has it. -/
theorem setConstant_cases {value : Json} (success : graph.setConstant id field value = some after) :
    (∃ node, graph.node? id = some node ∧ node.constants.contains field = true) ∧
    after = (graph.modifyNode id fun node =>
      { node with constants := node.constants.insert field value }).record
      (.constantChanged id field) := by
  rw [setConstant] at success
  split at success
  · next present =>
    cases success
    exact ⟨(Option.any_eq_true ..).1 present, rfl⟩
  · cases success

/-- The value of a primitive node is a constant of it. -/
theorem setPrimitive_cases {value : Json} (success : graph.setPrimitive id value = some after) :
    (∃ node, graph.node? id = some node ∧ node.isPrimitive = true) ∧
    graph.setConstant id primitiveValueField value = some after := by
  rw [setPrimitive] at success
  split at success
  · next present => exact ⟨(Option.any_eq_true ..).1 present, success⟩
  · cases success

theorem setPosition_cases {position : Point}
    (success : graph.setPosition id position = some after) :
    (graph.node? id).isSome = true ∧
    after = (graph.modifyNode id fun node => { node with position := position }).record
      (.layoutChanged id) := by
  rw [setPosition] at success
  split at success
  · next isNode =>
    cases success
    exact ⟨isNode, rfl⟩
  · cases success

theorem setPreviewOnly_cases {previewOnly : Bool}
    (success : graph.setPreviewOnly id previewOnly = some after) :
    (graph.node? id).isSome = true ∧
    after = graph.modifyNode id fun node => { node with previewOnly := previewOnly } := by
  rw [setPreviewOnly] at success
  split at success
  · next isNode =>
    cases success
    exact ⟨isNode, rfl⟩
  · cases success

/-- No slot has the name, but it is that of a key of some field with keys. -/
def AsksForKey (graph : Graph) (id : NodeId) (direction : Direction) (name : String) : Prop :=
  ∃ node ∈ graph.node? id, node.slotNamed? direction name = none ∧
    node.slotShown? direction name = none ∧ (node.keyedName? direction name).isSome

instance (graph : Graph) (id : NodeId) (direction : Direction) (name : String) :
    Decidable (graph.AsksForKey id direction name) :=
  inferInstanceAs (Decidable (∃ node ∈ graph.node? id, _))

/-- A slot was found in the graph as it is, or the key was added that the name asks for, which is
the part of it behind the first dot. -/
theorem resolveSlot_cases {direction : Direction} {name : String} {place : Nat}
    (success : graph.resolveSlot id direction name = some (place, after)) :
    after = graph ∨ graph.AsksForKey id direction name ∧
      ∃ field key, name = field ++ "." ++ key ∧ '.' ∉ field.toList ∧
        graph.addKey id field key = .ok (place, after) := by
  simp only [resolveSlot] at success
  split at success
  · cases success
  · next node isNode =>
    split at success
    · cases success
      exact Or.inl rfl
    · next absent =>
      obtain ⟨notNamed, notShown⟩ := Option.or_eq_none_iff.1 absent
      split at success
      · next field key keyed =>
        have asks : graph.AsksForKey id direction name :=
          ⟨node, isNode, notNamed, notShown, Option.isSome_iff_exists.2 ⟨_, keyed⟩⟩
        cases added : graph.addKey id field key with
        | error problem =>
          rw [added] at success
          cases success
        | ok answer =>
          rw [added] at success
          cases success
          obtain ⟨spelled, dotless, -⟩ := Node.eq_of_keyedName? keyed
          exact Or.inr ⟨asks, field, key, spelled, dotless, added⟩
      · split at success
        · split at success <;> cases success
          exact Or.inl rfl
        · split at success <;> cases success
          exact Or.inl rfl

/-- Both nodes of an edge were made, both of its slots were found, and then they were linked. -/
theorem linkEdge_cases {created : List (Option NodeId)} {edge : EdgeEntry} {link : LinkId}
    (success : graph.linkEdge created edge = (after, .ok link)) :
    ∃ source target originSlot withOutput targetSlot withInput,
      (created[edge.source]?).join = some source ∧ (created[edge.target]?).join = some target ∧
      graph.resolveSlot source .output edge.sourceSlot = some (originSlot, withOutput) ∧
      withOutput.resolveSlot target .input edge.targetSlot = some (targetSlot, withInput) ∧
      withInput.connect source originSlot target targetSlot = .ok (link, after) := by
  rw [linkEdge] at success
  split at success
  · cases success
  · next source isSource =>
    split at success
    · cases success
    · next target isTarget =>
      split at success
      · cases success
      · next originSlot withOutput isOutput =>
        split at success
        · cases success
        · next targetSlot withInput isInput =>
          split at success
          · cases success
          · next isLinked =>
            cases success
            exact ⟨source, target, originSlot, withOutput, targetSlot, withInput, isSource,
              isTarget, isOutput, isInput, isLinked⟩

/-- What finding slots and linking them keep is kept when an edge is linked, also if the edge is
skipped once a slot of it was found. -/
theorem linkEdge_induction {motive : Graph → Prop}
    (finds : ∀ {before after id direction name place}, motive before →
      before.resolveSlot id direction name = some (place, after) → motive after)
    (connects : ∀ {before after origin originSlot target targetSlot link}, motive before →
      before.connect origin originSlot target targetSlot = .ok (link, after) → motive after)
    (holds : motive graph) (created : List (Option NodeId)) (edge : EdgeEntry) :
    motive (graph.linkEdge created edge).1 := by
  rw [linkEdge]
  split
  · exact holds
  · split
    · exact holds
    · split
      · exact holds
      · next isOutput =>
        have withOutput := finds holds isOutput
        split
        · exact withOutput
        · next isInput =>
          have withInput := finds withOutput isInput
          split
          · exact withInput
          · next isLinked => exact connects withInput isLinked

end Graph

end Workflow
