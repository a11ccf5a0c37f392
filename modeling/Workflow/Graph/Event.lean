/-
This file holds the events that report changes, and which readiness each of them
calls into question.
-/

import Workflow.Graph.Slot

namespace Workflow

/-- A change of a graph or of the registry. -/
inductive Event where
  | schemaRegistered (name : String) (models : Nat)
  | schemaRemoved (name : String)
  | nodeCreated (node : NodeId)
  | nodeRemoved (node : NodeId)
  | linkCreated (link : LinkId) (origin target : NodeId)
  | linkRemoved (link : LinkId) (origin target : NodeId)
  | fieldChanged (node : NodeId) (slot : Nat)
  | constantChanged (node : NodeId) (field : String)
  | slotsChanged (node : NodeId) (field : String)
  | layoutChanged (node : NodeId)
  | graphCleared
  | documentImported (nodes links : Nat)
  | readinessChanged (node : NodeId) (complete chainComplete : Bool)
  deriving DecidableEq

/-- The nodes whose readiness an event calls into question. -/
inductive RefreshScope where
  | nothing
  /-- A node and every node that depends on it. -/
  | downstreamOf (node : NodeId)
  | everything
  deriving DecidableEq

/-- The nodes to refresh after an event. A link changes its target, and what a removed node fed can
only be found among all nodes. -/
def Event.refreshScope : Event → RefreshScope
  | nodeCreated node | fieldChanged node _ | slotsChanged node _ | constantChanged node _ =>
    .downstreamOf node
  | linkCreated _ _ target | linkRemoved _ _ target => .downstreamOf target
  | nodeRemoved _ | graphCleared | documentImported .. => .everything
  | schemaRegistered .. | schemaRemoved _ | layoutChanged _ | readinessChanged .. => .nothing

end Workflow
