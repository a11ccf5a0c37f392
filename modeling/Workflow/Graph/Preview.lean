/-
This file runs previews: every node once, in evaluation order, producing an object
from the objects of the nodes that feed it.

A node sees its constants, the native values of its unlinked inputs, and what its
links carry: the producer's value under the field of the output, narrowed to the
key if the output has one. Inputs of a field with keys are gathered into one object
by key. Unless a node has an executor of its own, it passes on what it sees, and
outputs without a value of their name take the first value that is not empty.
-/

import Workflow.Graph.Order

namespace Workflow

/-- Makes the object of a node from what the node sees. -/
abbrev Executor := Node → Object → Object

/-- The objects that nodes have produced. -/
abbrev Outputs := List (NodeId × Object)

/-- The value that an input sees in the gathered object. -/
def seenValue (slot : InputSlot) (inputs : Object) : Option Json :=
  let field := Object.get? inputs slot.info.field
  if slot.info.isMulti then
    field.bind fun value => value.member? (slot.info.key.getD slot.info.field)
  else field

/-- The first value that is not empty among those the inputs of a node see, in slot order. -/
def firstInputValue (node : Node) (inputs : Object) : Option Json :=
  node.inputs.findSome? fun slot => (seenValue slot inputs).filter fun value => !value.isEmpty

/-- The object with a value for an output that has none. -/
def fillOutput (value : Json) (outputs : Object) (slot : OutputSlot) : Object :=
  match slot.info.key with
  | none => outputs.insertNew slot.info.field value
  | some key =>
    match Object.get? outputs slot.info.field with
    | none => outputs.insert slot.info.field (.object [(key, value)])
    | some (.object keyed) =>
      outputs.insert slot.info.field (.object (Object.insertNew keyed key value))
    | some _ => outputs

/-- Passes on what a node sees. -/
def passThrough : Executor := fun node inputs =>
  match firstInputValue node inputs with
  | none => inputs
  | some value => node.outputs.foldl (fillOutput value) inputs

/-- What runs the nodes of a preview: executors of their own for some models, by bare name, and one
for all others. -/
structure Executors where
  own : List (String × Executor) := []
  fallback : Executor := passThrough

/-- The executor of a node: the one for the bare name of its model, or else the fallback. -/
def Executors.of (executors : Executors) (node : Node) : Executor :=
  (executors.own.lookup node.modelName).getD executors.fallback

namespace Graph

/-- The value that a link carries. -/
def carried (graph : Graph) (outputs : Outputs) (id : LinkId) : Json :=
  let output := (graph.link? id).bind fun link =>
    ((graph.node? link.origin).bind fun node => node.outputs[link.originSlot]?).map
      fun slot => (link.origin, slot.info)
  match output with
  | none => .null
  | some (origin, info) =>
    match (outputs.lookup origin).bind fun produced => Object.get? produced info.field with
    | none => .null
    | some value =>
      match info.key with
      | none => value
      | some key => (value.member? key).getD .null

/-- The gathered object with the value of an input that has no keys. -/
def gatherInput (graph : Graph) (outputs : Outputs) (gathered : Object) (slot : InputSlot) :
    Object :=
  if slot.info.isMulti then gathered
  else
    match slot.link with
    | some link => gathered.insert slot.info.field (graph.carried outputs link)
    | none =>
      match slot.native with
      | some native =>
        if native.kind = .boolean ∨ !native.value.isEmpty then
          gathered.insert slot.info.field native.value
        else gathered
      | none => gathered

/-- The values that the links of a field with keys carry, by key. -/
def gatherKeys (graph : Graph) (outputs : Outputs) (node : Node) (field : String)
    (places : List Nat) : Object :=
  Object.ofList (places.filterMap fun place =>
    (node.inputs[place]?).bind fun slot =>
      slot.link.map fun link => (slot.info.key.getD field, graph.carried outputs link))

/-- The gathered object with the values of a field with keys, if any link feeds it. -/
def gatherMulti (graph : Graph) (outputs : Outputs) (node : Node) (gathered : Object)
    (entry : String × List Nat) : Object :=
  let keyed := graph.gatherKeys outputs node entry.1 entry.2
  if keyed.isEmpty then gathered else gathered.insert entry.1 (.object keyed)

/-- What a node sees: constants, filled native values, and what its links carry. -/
def gather (graph : Graph) (outputs : Outputs) (node : Node) : Object :=
  let constants := Object.ofList node.constants.entries
  let withInputs := node.inputs.foldl (graph.gatherInput outputs) constants
  node.multiInputs.entries.foldl (graph.gatherMulti outputs node) withInputs

/-- The outputs with those of one node added. -/
def runNode (graph : Graph) (executors : Executors) (outputs : Outputs) (id : NodeId) : Outputs :=
  match graph.node? id with
  | none => outputs
  | some node => (id, executors.of node node (graph.gather outputs node)) :: outputs

/-- Runs every node once, in evaluation order. -/
def preview (graph : Graph) (executors : Executors) : Outputs :=
  graph.evaluationOrder.foldl (graph.runNode executors) []

end Graph

end Workflow
