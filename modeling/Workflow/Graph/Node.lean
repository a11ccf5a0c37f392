/-
This file holds nodes and makes them from models.

Each field of the model becomes slots or values according to its role: a note takes
the value of the document or runs its factory, a constant takes the value of the
document or else its default, an input or output gets one slot, and a field with
keys gets a slot for every key of the document. The type tag is never taken from
the document.
-/

import Workflow.Graph.Slot
import Workflow.Number.Single
import Workflow.Schema.Model
import Workflow.Text.Hex

namespace Workflow

open Number Text

/-- A place or an extent in the drawing plane. -/
structure Point where
  x : Single
  y : Single

/-- How far a node is from being ready to run. -/
structure Readiness where
  /-- Every required field is filled. -/
  complete : Bool := false
  /-- The node and every node it depends on is complete. -/
  chainComplete : Bool := false
  /-- The required fields that are not filled, in slot order. -/
  missing : List String := []

/-- A node of a graph. -/
structure Node where
  id : NodeId
  /-- The qualified name of the model, or the reserved type of a primitive node. -/
  modelRef : String
  position : Point
  size : Point
  inputs : List InputSlot := []
  outputs : List OutputSlot := []
  /-- The places of the inputs that belong to each field with keys. -/
  multiInputs : OrderedMap String (List Nat) := {}
  /-- The places of the outputs that belong to each field with keys. -/
  multiOutputs : OrderedMap String (List Nat) := {}
  /-- The values that came with the keys of a field when a document gave them as an object. -/
  keyedValues : OrderedMap String Object := {}
  constants : OrderedMap String Json := {}
  annotations : OrderedMap String Json := {}
  title : Option String := none
  displayName : Option String := none
  color : Option String := none
  /-- Presentation that is kept without being understood. -/
  extra : Object := []
  /-- The place in the document the node came from. -/
  order : Option Nat := none
  /-- The node is left out of documents. -/
  previewOnly : Bool := false
  readiness : Readiness := {}

/-- The origin of the drawing plane. -/
def Point.origin : Point := ⟨.ofNat 0, .ofNat 0⟩

/-- The size of a node that no document gives another one. -/
def defaultNodeSize : Point := ⟨.ofNat 180, .ofNat 60⟩

/-- The constant that holds the value of a primitive node. -/
def primitiveValueField : String := "value"

/-- The item type of a list and the value type of a dictionary, as text. -/
def dictValueType (type : TypeExpr) : Option String :=
  match type.withoutOptional with
  | .dict value => some value
  | _ => none

def listItemType (type : TypeExpr) : Option String :=
  match type.withoutOptional with
  | .list item => some item.display
  | _ => none

/-- The element type of a collection. In a union of collections a dictionary wins over a list,
because slots have keys. -/
def elementType (type : TypeExpr) : Option String :=
  match type with
  | .union variants => (variants.findSome? dictValueType).or (variants.findSome? listItemType)
  | other => (dictValueType other).or (listItemType other)

/-- The type of a field's slots: a slot with a key carries one element of the field. -/
def slotType (field : Field) (role : Role) : String :=
  if role.isMulti then (elementType field.type.withoutOptional).getD field.rawType
  else field.rawType

/-- The slot of a field for a key. -/
def SlotInfo.ofField (field : Field) (role : Role) (key : Option String) : SlotInfo where
  field := field.name
  title := field.title
  description := field.description
  rawType := slotType field role
  isMulti := role.isMulti
  key := key
  optional := field.type.isOptional

/-- The digits of a number in base sixteen, filled up with zeros to a width. -/
def hexOfWidth (width n : Nat) : List Char :=
  let digits := hexDigits (n % Nat.pow 16 width)
  List.replicate (width - digits.length) '0' ++ digits

/-- A seed of identifiers: the one that is minted for the field at a place of a node. A node is made
once and its id is never used again, so every source of identifiers is a seed, a random one too. -/
structure Seed where
  mint : NodeId → Nat → String

/-- The seed of a number. Its identifiers have the form of random ones; node and place of the field
tell those of a graph apart, and the number tells graphs apart. -/
def Seed.ofNat (number : Nat) : Seed where
  mint node place :=
    let digits := hexOfWidth 10 number
    String.ofList (hexOfWidth 8 place ++ '-' :: digits.take 4 ++ "-4".toList ++
      (digits.drop 4).take 3 ++ "-8".toList ++ digits.drop 7 ++ '-' :: hexOfWidth 12 node.number)

instance : Coe Nat Seed := ⟨Seed.ofNat⟩

instance {number : Nat} : OfNat Seed number := ⟨Seed.ofNat number⟩

/-- The value that a default factory makes, if it is known. -/
def runFactory (seed : Seed) (node : NodeId) (place : Nat) (name : String) : Option Json :=
  if lastPart '.' name.toList = "generate_id".toList then
    some (.string (seed.mint node place))
  else none

/-- The key that an item of a list of keys stands for. -/
def keyOfItem : Json → Option String
  | .string text => some text
  | .int value => some (String.ofList (Number.int value).numeral.chars)
  | .real value => some (String.ofList (Number.real value).numeral.chars)
  | .bool value => some (if value then "true" else "false")
  | _ => none

/-- The keys without empty and repeated ones, given the keys before them. -/
def distinctKeys (before : List String) : List String → List String
  | [] => []
  | key :: rest =>
    if key.isEmpty || before.contains key then distinctKeys before rest
    else key :: distinctKeys (key :: before) rest

/-- The keys that a document gives a field, in order. -/
def documentKeys : Option Json → List String
  | some (.array items) => distinctKeys [] (items.filterMap keyOfItem)
  | some (.object members) => distinctKeys [] (Object.keys members)
  | _ => []

/-- The object in which a document gives the keys of a field. -/
def documentObject : Option Json → Option Object
  | some (.object members) => some members
  | _ => none

/-- The keys of a field's slots; without keys there is one slot that has none. -/
def slotKeys (keys : List String) : List (Option String) :=
  if keys.isEmpty then [none] else keys.map some

namespace Node

/-- The node with slots for the keys of a field. -/
def expandMulti (node : Node) (field : Field) (role : Role) (keys : List String) : Node :=
  let infos := (slotKeys keys).map (SlotInfo.ofField field role)
  if role = .multiInput then
    { node with
      inputs := node.inputs ++ infos.map fun info => .ofInfo info
      multiInputs := node.multiInputs.insert field.name
        (List.range' node.inputs.length infos.length) }
  else
    { node with
      outputs := node.outputs ++ infos.map OutputSlot.ofInfo
      multiOutputs := node.multiOutputs.insert field.name
        (List.range' node.outputs.length infos.length) }

/-- The value that the annotation of a field starts with. -/
def annotationStart (seed : Seed) (node : Node) (place : Nat) (start : Option Default) :
    Option Json :=
  match start with
  | some (.factory name) => runFactory seed node.id place name
  | _ => none

/-- The node with the field at a place of its model expanded. -/
def expandField (seed : Seed) (model : Model) (fragment : Object) (node : Node)
    (entry : (Field × Role) × Nat) : Node :=
  let ((field, role), place) := entry
  let provided := Object.get? fragment field.name
  let start := model.default? field.name
  match role with
  | .note =>
    match provided.or (annotationStart seed node place start) with
    | some value => { node with annotations := node.annotations.insert field.name value }
    | none => node
  | .constant =>
    let given := if field.name = typeTagField then none else provided
    let value := (given.or (start.map Default.start)).getD .null
    { node with constants := node.constants.insert field.name value }
  | .input =>
    let native := (NativeKind.ofType field.type).map fun kind =>
      { kind := kind
        value := (start.map Default.start).getD .null
        optional := field.type.isOptional
        explicit := false : NativeValue }
    { node with inputs := node.inputs ++ [.ofInfo (.ofField field .input none) native] }
  | .output => { node with outputs := node.outputs ++ [.ofInfo (.ofField field .output none)] }
  | .multiInput | .multiOutput =>
    let keyed :=
      match documentObject provided with
      | some members =>
        { node with keyedValues := node.keyedValues.insert field.name members }
      | none => node
    keyed.expandMulti field role (documentKeys provided)

/-- A node of a model, filled from the members of a document's node. -/
def ofModel (seed : Seed) (id : NodeId) (modelRef : String) (model : Model) (fragment : Object) :
    Node :=
  model.fieldsWithRoles.zipIdx.foldl (expandField seed model fragment)
    { id := id, modelRef := modelRef, position := .origin, size := defaultNodeSize }

/-- A node that carries a value of a native kind. -/
def primitive (id : NodeId) (kind : NativeKind) (value : Json) : Node where
  id := id
  modelRef := kind.primitiveTag
  position := .origin
  size := defaultNodeSize
  outputs :=
    [.ofInfo
      { field := primitiveValueField
        title := none
        description := none
        rawType := kind.rawType
        isMulti := false
        key := none
        optional := false }]
  constants := ⟨[(primitiveValueField, value)]⟩

/-- Whether the node is a primitive one. -/
def isPrimitive (node : Node) : Bool := (NativeKind.ofPrimitiveTag node.modelRef).isSome

/-- The bare name of the model. -/
def modelName (node : Node) : String := String.ofList (lastPart '.' node.modelRef.toList)

/-- The slots of one side. -/
def slots (node : Node) : Direction → List SlotInfo
  | .input => node.inputs.map InputSlot.info
  | .output => node.outputs.map OutputSlot.info

/-- The places of the slots of fields with keys on one side. -/
def multiSlots (node : Node) : Direction → OrderedMap String (List Nat)
  | .input => node.multiInputs
  | .output => node.multiOutputs

/-- The native values under the places of their inputs. -/
def nativeInputs (node : Node) : List (Nat × NativeValue) :=
  node.inputs.zipIdx.filterMap fun entry => entry.1.native.map fun native => (entry.2, native)

/-- The place of the slot with an internal name. -/
def slotNamed? (node : Node) (direction : Direction) (name : String) : Option Nat :=
  (node.slots direction).findIdx? fun info => info.internalName == name

/-- The names shown for the slots of one side. -/
def shownNames (node : Node) : Direction → List String
  | .input => node.inputs.map InputSlot.name
  | .output => node.outputs.map OutputSlot.name

/-- The place of the slot shown under a name. -/
def slotShown? (node : Node) (direction : Direction) (name : String) : Option Nat :=
  (node.shownNames direction).findIdx? fun shown => shown == name

/-- The place of the input that belongs to a field without keys. -/
def inputFor? (node : Node) (field : String) : Option Nat :=
  (node.slots .input).findIdx? fun info => !info.isMulti && info.field == field

end Node

end Workflow
