/-
This file holds the slots of nodes.

A slot belongs to a field of the node's model. A field with keys has a slot for
every key, or a single slot without a key while it has none; every other field has
one slot. Links refer to slots by their place among the inputs or outputs of the
node, and slots refer back to links by their ids. A slot is shown under the name that
its field and key give it, and it cannot be built with another one.
-/

import Workflow.Graph.Native
import Workflow.Json.Basic

namespace Workflow

/-- The identity of a node within its graph. -/
structure NodeId where
  number : Nat
  deriving DecidableEq

/-- The identity of a link within its graph. -/
structure LinkId where
  number : Nat
  deriving DecidableEq

def NodeId.name (id : NodeId) : String := "node#" ++ toString id.number

def LinkId.name (id : LinkId) : String := "link#" ++ toString id.number

/-- The side of a node that a slot is on. -/
inductive Direction where
  | input
  | output
  deriving DecidableEq

/-- The name of a side as messages capitalise it. -/
def Direction.title : Direction → String
  | input => "Input"
  | output => "Output"

/-- What a slot takes over from the field it belongs to, and its key. -/
structure SlotInfo where
  field : String
  title : Option String
  description : Option String
  rawType : String
  isMulti : Bool
  key : Option String
  optional : Bool

namespace SlotInfo

/-- The name of the slot in documents: the field, followed by the key if there is one. -/
def internalName (info : SlotInfo) : String :=
  match info.key with
  | some key => info.field ++ "." ++ key
  | none => info.field

/-- The name shown for the slot. -/
def displayName (info : SlotInfo) : String :=
  let base := info.title.getD info.field
  match info.key with
  | some key => base ++ " [" ++ key ++ "]"
  | none => base

end SlotInfo

/-- The value of an input that is edited in place. -/
structure NativeValue where
  kind : NativeKind
  value : Json
  /-- The input may stay empty. -/
  optional : Bool
  /-- The value was given by a document or an edit, not by the model's default. -/
  explicit : Bool

/-- An input: at most one link feeds it. -/
structure InputSlot where
  info : SlotInfo
  /-- The name shown for the slot. -/
  name : String
  /-- The type that links are checked against. -/
  rawType : String
  link : Option LinkId
  native : Option NativeValue
  name_eq : name = info.displayName
  rawType_eq : rawType = info.rawType

/-- An output: any number of links leave it. -/
structure OutputSlot where
  info : SlotInfo
  /-- The name shown for the slot. -/
  name : String
  /-- The type that links are checked against. -/
  rawType : String
  links : List LinkId
  name_eq : name = info.displayName
  rawType_eq : rawType = info.rawType

/-- An input without a link. -/
def InputSlot.ofInfo (info : SlotInfo) (native : Option NativeValue := none) : InputSlot where
  info := info
  name := info.displayName
  rawType := info.rawType
  link := none
  native := native
  name_eq := rfl
  rawType_eq := rfl

/-- An output without links. -/
def OutputSlot.ofInfo (info : SlotInfo) : OutputSlot where
  info := info
  name := info.displayName
  rawType := info.rawType
  links := []
  name_eq := rfl
  rawType_eq := rfl

@[simp] theorem InputSlot.info_ofInfo (info : SlotInfo) (native : Option NativeValue) :
    (InputSlot.ofInfo info native).info = info := rfl

@[simp] theorem InputSlot.link_ofInfo (info : SlotInfo) (native : Option NativeValue) :
    (InputSlot.ofInfo info native).link = none := rfl

@[simp] theorem InputSlot.native_ofInfo (info : SlotInfo) (native : Option NativeValue) :
    (InputSlot.ofInfo info native).native = native := rfl

@[simp] theorem OutputSlot.info_ofInfo (info : SlotInfo) :
    (OutputSlot.ofInfo info).info = info := rfl

@[simp] theorem OutputSlot.links_ofInfo (info : SlotInfo) :
    (OutputSlot.ofInfo info).links = [] := rfl

/-- The input under another key. -/
def InputSlot.rekey (slot : InputSlot) (key : String) : InputSlot :=
  let info := { slot.info with key := some key }
  { slot with info := info, name := info.displayName, name_eq := rfl }

/-- The output under another key. -/
def OutputSlot.rekey (slot : OutputSlot) (key : String) : OutputSlot :=
  let info := { slot.info with key := some key }
  { slot with info := info, name := info.displayName, name_eq := rfl }

end Workflow
