/-
This file edits the keys of fields that have a slot for every key.

A field without keys shows one slot that has none, its placeholder; the first key
is given to that slot. Removing a key removes its slot, and every place after it on
that side of the node moves down by one: in the list of slots, in the places of all
fields with keys, and in the links of the node. The last slot of a field stays.
-/

import Workflow.Graph.Basic

namespace Workflow

open Text

/-- Why the keys of a field cannot be edited. -/
inductive SlotEditError where
  | nodeNotFound (node : NodeId)
  | notMultiField (field : String)
  | emptyKey
  | duplicateKey (key : String)
  | keyNotFound (key : String)
  | lastSlot (field : String)

def SlotEditError.message : SlotEditError → String
  | nodeNotFound node => "Node not found: " ++ node.name
  | notMultiField field => "Not a multi-slot field: " ++ field
  | emptyKey => "Slot key must not be empty"
  | duplicateKey key => "Duplicate slot key: " ++ key
  | keyNotFound key => "No slot with key: " ++ key
  | lastSlot field => "Cannot remove the last slot of " ++ field

/-- A place after one before it was removed. -/
def shiftDown (removed place : Nat) : Nat := if removed < place then place - 1 else place

/-- The key without blanks around it. -/
def trimKey (key : String) : String := String.ofList (trim key.toList)

namespace Node

/-- The side and the places of a field with keys. -/
def multiField? (node : Node) (field : String) : Option (Direction × List Nat) :=
  match node.multiInputs.get? field with
  | some places => some (.input, places)
  | none => (node.multiOutputs.get? field).map fun places => (.output, places)

/-- The key of the slot at a place; the outer option tells whether there is such a slot. -/
def keyAt? (node : Node) (direction : Direction) (place : Nat) : Option (Option String) :=
  ((node.slots direction)[place]?).map SlotInfo.key

/-- The place of a key among given places. -/
def placeOfKey? (node : Node) (direction : Direction) (places : List Nat) (key : String) :
    Option Nat :=
  places.find? fun place => node.keyAt? direction place == some (some key)

/-- The node with the slot at a place renamed to a key. -/
def rekey (node : Node) (direction : Direction) (place : Nat) (key : String) : Node :=
  match direction with
  | .input => { node with inputs := node.inputs.modify place (·.rekey key) }
  | .output => { node with outputs := node.outputs.modify place (·.rekey key) }

/-- The node with a new slot at the end of one side that belongs to a field with keys. -/
def appendSlot (node : Node) (direction : Direction) (field : String) (info : SlotInfo) : Node :=
  match direction with
  | .input =>
    { node with
      inputs := node.inputs ++ [.ofInfo info]
      multiInputs := node.multiInputs.modify field (· ++ [node.inputs.length]) }
  | .output =>
    { node with
      outputs := node.outputs ++ [.ofInfo info]
      multiOutputs := node.multiOutputs.modify field (· ++ [node.outputs.length]) }

/-- Places after one of them was removed. -/
def shiftPlaces (removed : Nat) (places : List Nat) : List Nat :=
  (places.filter (· ≠ removed)).map (shiftDown removed)

/-- The node without the slot at a place. -/
def eraseSlot (node : Node) (direction : Direction) (place : Nat) : Node :=
  match direction with
  | .input =>
    { node with
      inputs := node.inputs.eraseIdx place
      multiInputs := node.multiInputs.mapValues (shiftPlaces place) }
  | .output =>
    { node with
      outputs := node.outputs.eraseIdx place
      multiOutputs := node.multiOutputs.mapValues (shiftPlaces place) }

/-- The node without the value that came with a key. -/
def dropKeyedValue (node : Node) (field key : String) : Node :=
  { node with keyedValues := node.keyedValues.modify field fun values => values.erase key }

/-- The node with the value that came with a key moved to another key. -/
def moveKeyedValue (node : Node) (field key newKey : String) : Node :=
  { node with
    keyedValues := node.keyedValues.modify field fun values =>
      match values.get? key with
      | some value => (values.erase key).insert newKey value
      | none => values }

end Node

namespace Graph

/-- The link after a slot of a node was removed. -/
def shiftLink (id : NodeId) (direction : Direction) (place : Nat) (link : Link) : Link :=
  match direction with
  | .input =>
    if link.target = id then { link with targetSlot := shiftDown place link.targetSlot } else link
  | .output =>
    if link.origin = id then { link with originSlot := shiftDown place link.originSlot } else link

/-- Whether a link ends at a slot. -/
def endsAt (id : NodeId) (direction : Direction) (place : Nat) (link : Link) : Bool :=
  match direction with
  | .input => link.target = id ∧ link.targetSlot = place
  | .output => link.origin = id ∧ link.originSlot = place

/-- The graph without a slot that has no links any more. -/
def removeSlot (graph : Graph) (id : NodeId) (direction : Direction) (place : Nat) : Graph :=
  let shifted := { graph with links := graph.links.map (shiftLink id direction place) }
  shifted.modifyNode id fun node => node.eraseSlot direction place

/-- A node and its field with keys: the node, the side and the places of the field. -/
def multiField (graph : Graph) (id : NodeId) (field : String) :
    Except SlotEditError (Node × Direction × List Nat) :=
  match graph.node? id with
  | none => .error (.nodeNotFound id)
  | some node =>
    match node.multiField? field with
    | none => .error (.notMultiField field)
    | some (direction, places) => .ok (node, direction, places)

/-- Adds a key to a field, and tells the place of its slot. -/
def addKey (graph : Graph) (id : NodeId) (field key : String) :
    Except SlotEditError (Nat × Graph) :=
  let key := trimKey key
  if key.isEmpty then .error .emptyKey
  else
    match graph.multiField id field with
    | .error problem => .error problem
    | .ok (node, direction, places) =>
      if (node.placeOfKey? direction places key).isSome then .error (.duplicateKey key)
      else
        match places, (places.head?.bind fun place => (node.slots direction)[place]?) with
        | place :: others, some template =>
          if others.isEmpty ∧ template.key.isNone then
            let named := graph.modifyNode id fun node => node.rekey direction place key
            .ok (place, named.record (.slotsChanged id field))
          else
            let info := { template with key := some key }
            let added := graph.modifyNode id fun node => node.appendSlot direction field info
            .ok ((node.slots direction).length, added.record (.slotsChanged id field))
        | _, _ => .error (.notMultiField field)

/-- Removes a key of a field with its slot and the links of the slot. -/
def removeKey (graph : Graph) (id : NodeId) (field key : String) : Except SlotEditError Graph :=
  match graph.multiField id field with
  | .error problem => .error problem
  | .ok (node, direction, places) =>
    if places.length ≤ 1 then .error (.lastSlot field)
    else
      match node.placeOfKey? direction places key with
      | none => .error (.keyNotFound key)
      | some place =>
        let severed := (graph.links.filter (endsAt id direction place)).foldl dropLink graph
        let removed := severed.removeSlot id direction place
        let forgotten := removed.modifyNode id fun node => node.dropKeyedValue field key
        .ok (forgotten.record (.slotsChanged id field))

/-- Changes a key of a field; the links of its slot stay. -/
def renameKey (graph : Graph) (id : NodeId) (field key newKey : String) :
    Except SlotEditError Graph :=
  let newKey := trimKey newKey
  if newKey.isEmpty then .error .emptyKey
  else
    match graph.multiField id field with
    | .error problem => .error problem
    | .ok (node, direction, places) =>
      match node.placeOfKey? direction places key with
      | none => .error (.keyNotFound key)
      | some place =>
        if newKey = key then .ok graph
        else if (node.placeOfKey? direction places newKey).isSome then .error (.duplicateKey newKey)
        else
          let renamed := graph.modifyNode id fun node =>
            (node.moveKeyedValue field key newKey).rekey direction place newKey
          .ok (renamed.record (.slotsChanged id field))

end Graph

end Workflow
