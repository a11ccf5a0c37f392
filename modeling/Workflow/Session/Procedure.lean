/-
This file holds the operations of sessions as procedures that change a session in
place.

An operation runs a procedure on the graph and then deals with the events, also if the
procedure gave up.
-/

import Workflow.Graph.Procedure
import Workflow.Session

namespace Workflow.Session.Procedure

variable {Problem Answer : Type}

/-- Runs a procedure on the graph of a session. -/
def onGraph (procedure : EStateM Problem Graph Answer) : EStateM Problem Session Answer :=
  fun session =>
    match procedure.run session.graph with
    | .ok answer graph => .ok answer { session with graph := graph }
    | .error problem graph => .error problem { session with graph := graph }

/-- Runs a procedure on the graph of a session and deals with the pending events. -/
def commits (procedure : EStateM Problem Graph Answer) : EStateM Problem Session Answer :=
  fun session =>
    match (onGraph procedure).run session with
    | .ok answer after => .ok answer after.commit
    | .error problem after => .error problem after.commit

/-- Adds a node of a model given by qualified name, bare name or document type. -/
def createNode (reference : String) (fragment : Object) : EStateM Unit Session NodeId := do
  let registry := (← get).registry
  let modelRef ← require () ((registry.qualified? reference).or (registry.resolve? reference))
  let model ← require () (registry.model? modelRef)
  commits (Graph.Procedure.createNode modelRef model fragment)

/-- Removes a node with its links. -/
def removeNode (id : NodeId) : EStateM Unit Session Node := commits (Graph.Procedure.removeNode id)

/-- Links an output to an input. -/
def connect (origin : NodeId) (originSlot : Nat) (target : NodeId) (targetSlot : Nat) :
    EStateM ConnectError Session LinkId :=
  commits (Graph.Procedure.connect origin originSlot target targetSlot)

/-- Removes a link. -/
def disconnect (id : LinkId) : EStateM Unit Session Link := commits (Graph.Procedure.disconnect id)

/-- Edits the native value of an input. -/
def setInput (id : NodeId) (slot : Nat) (value : Json) : EStateM Unit Session Unit :=
  commits (Graph.Procedure.setInput id slot value)

/-- Replaces the value of a primitive node. -/
def setPrimitive (id : NodeId) (value : Json) : EStateM Unit Session Unit :=
  commits (Graph.Procedure.setPrimitive id value)

/-- Moves a node. -/
def setPosition (id : NodeId) (position : Point) : EStateM Unit Session Unit :=
  commits (Graph.Procedure.setPosition id position)

/-- Marks a node as left out of documents, or takes the mark away; nothing is recorded of this. -/
def setPreviewOnly (id : NodeId) (previewOnly : Bool) : EStateM Unit Session Unit :=
  onGraph (Graph.Procedure.setPreviewOnly id previewOnly)

/-- Adds a key to a field; the answer is the place of its slot. -/
def addKey (id : NodeId) (field key : String) : EStateM SlotEditError Session Nat :=
  commits (Graph.Procedure.addKey id field key)

/-- Removes a key of a field. -/
def removeKey (id : NodeId) (field key : String) : EStateM SlotEditError Session Unit :=
  commits (Graph.Procedure.removeKey id field key)

/-- Changes a key of a field. -/
def renameKey (id : NodeId) (field key newKey : String) : EStateM SlotEditError Session Unit :=
  commits (Graph.Procedure.renameKey id field key newKey)

end Workflow.Session.Procedure
