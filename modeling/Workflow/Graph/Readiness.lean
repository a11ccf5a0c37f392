/-
This file keeps track of readiness.

A required field is filled by a link or by a native value that is not empty; a field
with keys counts once and is filled by any link. A node is complete if no required
field is missing, and its chain is complete if it and every node that feeds it,
directly or not, are complete. Answers about chains are remembered while many nodes
are asked about in turn.
-/

import Workflow.Graph.Order

namespace Workflow

namespace Node

/-- Whether some slot of a field with keys is linked. -/
def isMultiLinked (node : Node) (field : String) : Bool :=
  ((node.multiInputs.get? field).getD []).any fun place =>
    (node.inputs[place]?).any fun slot => slot.link.isSome

/-- Whether an input without keys needs a value and has none. -/
def isUnfilled (slot : InputSlot) : Bool :=
  !(slot.info.optional || slot.native.any NativeValue.optional) &&
    !(slot.link.isSome || slot.native.any fun native => !native.value.isEmpty)

/-- The missing fields among inputs, given the fields with keys that came before. -/
def missingAmong (node : Node) (before : List String) : List InputSlot → List String
  | [] => []
  | slot :: rest =>
    let field := slot.info.field
    if slot.info.isMulti then
      if before.contains field then node.missingAmong before rest
      else if slot.info.optional || node.isMultiLinked field then
        node.missingAmong (field :: before) rest
      else field :: node.missingAmong (field :: before) rest
    else if isUnfilled slot then field :: node.missingAmong before rest
    else node.missingAmong before rest

/-- The required fields that are not filled, in slot order. -/
def missingFields (node : Node) : List String := node.missingAmong [] node.inputs

/-- Whether no required field is missing. -/
def isComplete (node : Node) : Bool := node.missingFields.isEmpty

end Node

/-- Answers about chains that are known already. -/
abbrev ChainMemo := List (NodeId × Bool)

namespace Graph

/-- Whether a node is marked as complete. -/
def isMarkedComplete (graph : Graph) (id : NodeId) : Bool :=
  (graph.node? id).any fun node => node.readiness.complete

/-- Whether every node on a stack, and every node that feeds it, is marked as complete. Nodes that
were visited are no longer among the unvisited; a node other than the start that the memo knows is
not walked through again. -/
def walkChain (graph : Graph) (start : NodeId) (memo : ChainMemo) (unvisited : List NodeId) :
    List NodeId → Bool
  | [] => true
  | id :: stack =>
    if member : id ∈ unvisited then
      have := length_dropId_lt member
      match if id = start then none else memo.lookup id with
      | some true => walkChain graph start memo (dropId id unvisited) stack
      | some false => false
      | none =>
        if graph.isMarkedComplete id then
          walkChain graph start memo (dropId id unvisited) (graph.producers id ++ stack)
        else false
    else if (graph.node? id).isSome then walkChain graph start memo unvisited stack
    else false
termination_by stack => (unvisited.length, stack.length)

/-- Whether the chain of a node is complete, and the memo with this answer. -/
def chainComplete (graph : Graph) (start : NodeId) (memo : ChainMemo) : Bool × ChainMemo :=
  match memo.lookup start with
  | some known => (known, memo)
  | none =>
    let answer := graph.walkChain start memo graph.nodeIds [start]
    (answer, (start, answer) :: memo)

/-- The answers for several nodes in turn. -/
def chainAnswers (graph : Graph) (memo : ChainMemo) : List NodeId → List (NodeId × Bool)
  | [] => []
  | id :: rest =>
    let asked := graph.chainComplete id memo
    (id, asked.1) :: graph.chainAnswers asked.2 rest

/-- The graph with the marks of nodes' own completeness brought up to date. -/
def refreshComplete (graph : Graph) (ids : List NodeId) : Graph :=
  { graph with
    nodes := graph.nodes.map fun node =>
      if ids.contains node.id then
        { node with
          readiness :=
            { node.readiness with
              complete := node.isComplete
              missing := node.missingFields } }
      else node }

/-- The graph with the marks of chains brought up to date. -/
def refreshChains (graph : Graph) (ids : List NodeId) : Graph :=
  let answers := graph.chainAnswers [] ids
  { graph with
    nodes := graph.nodes.map fun node =>
      match answers.lookup node.id with
      | some answer => { node with readiness := { node.readiness with chainComplete := answer } }
      | none => node }

/-- Brings every node's readiness up to date; the nodes touched come along. -/
def refreshAll (graph : Graph) : List NodeId × Graph :=
  let ids := graph.nodeIds
  (ids, (graph.refreshComplete ids).refreshChains ids)

/-- Brings a node's own completeness up to date, and the chains of it and all that depends on it. -/
def refreshFrom (graph : Graph) (start : NodeId) : List NodeId × Graph :=
  if (graph.node? start).isSome then
    let ids := graph.downstreamClosure start
    (ids, (graph.refreshComplete [start]).refreshChains ids)
  else ([], graph)

end Graph

end Workflow
