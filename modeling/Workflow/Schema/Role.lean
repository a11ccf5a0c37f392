/-
This file holds the roles of fields: what a field of a model becomes on a node.
-/

import Workflow.Text.Blank
import Workflow.Text.Cut

namespace Workflow

open Text

/-- What a field is for. -/
inductive Role where
  /-- A note on the node, never a slot. -/
  | note
  /-- A value baked into the node. -/
  | constant
  /-- One input slot. -/
  | input
  /-- One output slot. -/
  | output
  /-- An input slot for every key. -/
  | multiInput
  /-- An output slot for every key. -/
  | multiOutput
  deriving DecidableEq

namespace Role

/-- The name of a role. -/
def name : Role → String
  | note => "annotation"
  | constant => "constant"
  | input => "input"
  | output => "output"
  | multiInput => "multi_input"
  | multiOutput => "multi_output"

/-- All roles. -/
def all : List Role := [note, constant, input, output, multiInput, multiOutput]

/-- The role that a marker such as `FieldRole.MULTI_INPUT` names: its last dotted part is a role's
name in any mix of ASCII cases. -/
def ofMarker (marker : List Char) : Option Role :=
  let spelled := String.ofList ((trim (lastPart '.' (trim marker))).map Char.toLower)
  all.find? fun role => role.name == spelled

/-- Whether the role has a slot for every key. -/
def isMulti : Role → Bool
  | multiInput | multiOutput => true
  | _ => false

/-- Whether the role has input slots. -/
def isInput : Role → Bool
  | input | multiInput => true
  | _ => false

/-- Whether the role has output slots. -/
def isOutput : Role → Bool
  | output | multiOutput => true
  | _ => false

end Role

end Workflow
