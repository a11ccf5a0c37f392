/-
This file puts the nodes of a graph in order.

In the evaluation order a node comes once every link into it has been passed; nodes
that are free from the start keep their order, and others join the queue when their
last link is passed. Nodes on cycles and nodes that depend on them never become
free; they follow at the end in their own order. The closure of a node lists what
depends on it, nearest first.
-/

import Workflow.Graph.Basic

namespace Workflow

/-- The nodes that still wait, each with the number of links into it that are not passed yet. -/
abbrev Waiting := List (NodeId × Nat)

/-- Passes one link to a target; the answer tells whether the target became free. -/
def passLink (target : NodeId) : Waiting → Waiting × Bool
  | [] => ([], false)
  | (id, count) :: rest =>
    if id = target then
      if count ≤ 1 then (rest, true) else ((id, count - 1) :: rest, false)
    else ((id, count) :: (passLink target rest).1, (passLink target rest).2)

/-- Passes links to targets one after the other; the answer lists the targets that became free. -/
def passLinks : List NodeId → Waiting → Waiting × List NodeId
  | [], waiting => (waiting, [])
  | target :: rest, waiting =>
    let passed := passLink target waiting
    let others := passLinks rest passed.1
    (others.1, if passed.2 then target :: others.2 else others.2)

theorem length_passLink (target : NodeId) (waiting : Waiting) :
    (passLink target waiting).1.length + (if (passLink target waiting).2 then 1 else 0) =
      waiting.length := by
  induction waiting with
  | nil => rfl
  | cons entry rest inductionHypothesis =>
    obtain ⟨id, count⟩ := entry
    rw [passLink]
    split
    · split <;> simp
    · simp only [List.length_cons]
      omega

theorem length_passLinks (targets : List NodeId) (waiting : Waiting) :
    (passLinks targets waiting).1.length + (passLinks targets waiting).2.length =
      waiting.length := by
  induction targets generalizing waiting with
  | nil => rfl
  | cons target rest inductionHypothesis =>
    have one := length_passLink target waiting
    have others := inductionHypothesis (passLink target waiting).1
    simp only [passLinks]
    split
    · next freed =>
      rw [if_pos freed] at one
      rw [List.length_cons]
      omega
    · next kept =>
      rw [if_neg kept] at one
      omega

namespace Graph

/-- Takes free nodes from a queue until it is empty; the answer lists the nodes taken and those that
still wait. -/
def drain (graph : Graph) (waiting : Waiting) : List NodeId → List NodeId × List NodeId
  | [] => ([], waiting.map (·.1))
  | id :: queue =>
    let passed := passLinks (graph.consumers id) waiting
    have := length_passLinks (graph.consumers id) waiting
    let rest := drain graph passed.1 (queue ++ passed.2)
    (id :: rest.1, rest.2)
termination_by queue => waiting.length + queue.length
decreasing_by simp only [List.length_append, List.length_cons]; omega

/-- How many links lead into a node. -/
def inDegree (graph : Graph) (id : NodeId) : Nat := (graph.linksInto id).length

/-- The nodes that become free, in order, and the nodes that do not. -/
def sorted (graph : Graph) : List NodeId × List NodeId :=
  let waiting := (graph.nodeIds.map fun id => (id, graph.inDegree id)).filter fun entry =>
    0 < entry.2
  graph.drain waiting (graph.nodeIds.filter fun id => graph.inDegree id = 0)

/-- The nodes in an order that links follow, or the nodes that cycles keep out of it. -/
def topologicalOrder (graph : Graph) : Except (List NodeId) (List NodeId) :=
  if graph.sorted.2.isEmpty then .ok graph.sorted.1 else .error graph.sorted.2

/-- All nodes, those that cycles keep back at the end. -/
def evaluationOrder (graph : Graph) : List NodeId := graph.sorted.1 ++ graph.sorted.2

/-- What is said of nodes that cycles keep out of an order. -/
def cycleMessage (nodes : List NodeId) : String :=
  "Graph contains a cycle through " ++ toString nodes.length ++ " node(s)"

end Graph

/-- The ids other than a given one. -/
def dropId (id : NodeId) (ids : List NodeId) : List NodeId := ids.filter (· ≠ id)

theorem length_dropId_lt {id : NodeId} {ids : List NodeId} (member : id ∈ ids) :
    (dropId id ids).length < ids.length :=
  List.length_filter_lt_length_iff_exists.2 ⟨id, member, by simp⟩

/-- Takes ids out of a list; the answer lists those that were in it, each once. -/
def takeNew : List NodeId → List NodeId → List NodeId × List NodeId
  | [], unseen => (unseen, [])
  | id :: rest, unseen =>
    if id ∈ unseen then
      let others := takeNew rest (dropId id unseen)
      (others.1, id :: others.2)
    else takeNew rest unseen

theorem length_takeNew (ids unseen : List NodeId) :
    (takeNew ids unseen).1.length + (takeNew ids unseen).2.length ≤ unseen.length := by
  induction ids generalizing unseen with
  | nil => simp [takeNew]
  | cons id rest inductionHypothesis =>
    rw [takeNew]
    split
    · next member =>
      have others := inductionHypothesis (dropId id unseen)
      have shorter := length_dropId_lt member
      simp only [List.length_cons]
      omega
    · exact inductionHypothesis unseen

namespace Graph

/-- Visits nodes breadth first, given the nodes not seen yet and the queue. -/
def visit (graph : Graph) (unseen : List NodeId) : List NodeId → List NodeId
  | [] => []
  | id :: queue =>
    let taken := takeNew (graph.consumers id) unseen
    have := length_takeNew (graph.consumers id) unseen
    id :: visit graph taken.1 (queue ++ taken.2)
termination_by queue => unseen.length + queue.length
decreasing_by simp only [List.length_append, List.length_cons]; omega

/-- A node and every node that links lead to from it, nearest first. -/
def downstreamClosure (graph : Graph) (start : NodeId) : List NodeId :=
  graph.visit (dropId start graph.nodeIds) [start]

end Graph

end Workflow
