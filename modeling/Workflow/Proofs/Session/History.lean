/-
This file remembers, along the operations on a session, which model every node was
created from.

A registry may lose a model, or come to hold another one under the same name, while
the nodes made from it stay; so the model of a node cannot be read off the session.
The memory only ever grows, because ids are never used again, and every node fits
the model that is remembered for it or is a primitive one.
-/

import Workflow.Proofs.Session.Run

namespace Workflow

open Workflow.Graph Session

/-- A session, with the models that its nodes were created from. -/
structure History where
  session : Session
  models : NodeId → Option Model

namespace History

/-- The history after an operation; the models of new nodes are those that the registry holds. -/
def perform (history : History) (operation : Session.Operation) : History :=
  let next := history.session.perform operation
  { session := next
    models := fun id =>
      if (history.session.graph.node? id).isSome then history.models id
      else (next.graph.node? id).bind fun node => history.session.registry.model? node.modelRef }

/-- The history of operations on an empty session. -/
def run (resolution : Resolution) (operations : List Session.Operation) : History :=
  operations.foldl perform
    { session := { registry := { resolution := resolution } }, models := fun _ => none }

theorem session_run (resolution : Resolution) (operations : List Session.Operation) :
    (run resolution operations).session = Session.run resolution operations := by
  induction operations using List.reverseRecOn with
  | nil => rfl
  | append_singleton operations operation inductionHypothesis =>
    rw [run, Session.run, List.foldl_concat, List.foldl_concat]
    exact congrArg (Session.perform · operation) inductionHypothesis

/-- A node is a primitive one, or it fits the model that is remembered for it. -/
def Knows (history : History) (node : Node) : Prop :=
  (∃ kind, node.Fits (.ofKind kind)) ∨
    ∃ model, history.models node.id = some model ∧ '.' ∈ node.modelRef.toList ∧
      (Blueprint.ofModel node.modelRef model).Sound ∧
      node.Fits (.ofModel node.modelRef model) ∧ node.Tagged (.ofModel node.modelRef model)

variable {history : History}

/-- What is known of a node stays known while the node goes on. -/
theorem Knows.perform {before after : Node} (knows : history.Knows before)
    (member : before ∈ history.session.graph.nodes) (continues : before.Continues False after)
    (kept : history.session.Kept) (operation : Session.Operation) :
    (history.perform operation).Knows after := by
  obtain ⟨kind, fits⟩ | ⟨model, isModel, dotted, sound, fits, tagged⟩ := knows
  · exact Or.inl ⟨kind, continues.fits _ fits⟩
  · have same := continues.fits _ fits
    have modelRef : after.modelRef = before.modelRef := same.modelRef
    have present : (history.session.graph.node? before.id).isSome := by
      rw [node?_of_mem kept.tied.nodesAscend member]
      rfl
    refine Or.inr ⟨model, ?_, ?_⟩
    · rw [History.perform, continues.id]
      exact (if_pos present).trans isModel
    · rw [modelRef]
      refine ⟨dotted, sound, same, fun entry isEntry isTag => ?_⟩
      exact (continues.tag.resolve_left not_false).trans (tagged entry isEntry isTag)

/-- A new node fits a model that the registry holds, which is remembered. -/
theorem knows_of_makes {node : Node} {operation : Session.Operation} (kept : history.session.Kept)
    (member : node ∈ (history.session.perform operation).graph.nodes)
    (isNew : history.session.graph.nextNode ≤ node.id.number) {blueprint : Blueprint}
    (makes : history.session.registry.Makes blueprint) (fits : node.Fits blueprint)
    (tagged : node.Tagged blueprint) : (history.perform operation).Knows node := by
  have sound := makes.sound kept.registry
  obtain ⟨modelRef, model, dotted, isModel, rfl⟩ | ⟨kind, rfl⟩ := makes
  · obtain rfl : node.modelRef = modelRef := fits.modelRef
    have absent : ¬ (history.session.graph.node? node.id).isSome := by
      intro present
      obtain ⟨old, isOld⟩ := Option.isSome_iff_exists.1 present
      obtain ⟨inNodes, same⟩ := mem_of_node? isOld
      have counted := kept.tied.nodesCounted node.id (same ▸ List.mem_map_of_mem inNodes)
      omega
    have tied := ((step_perform kept operation).kept kept).tied
    refine Or.inr ⟨model, ?_, dotted, sound, fits, tagged⟩
    refine (if_neg absent).trans ?_
    show ((history.session.perform operation).graph.node? node.id).bind _ = _
    rw [node?_of_mem tied.nodesAscend member]
    exact isModel
  · exact Or.inl ⟨kind, fits⟩

theorem knows_perform (kept : history.session.Kept)
    (knows : ∀ node ∈ history.session.graph.nodes, history.Knows node)
    (operation : Session.Operation) :
    ∀ node ∈ (history.perform operation).session.graph.nodes,
      (history.perform operation).Knows node := by
  intro node member
  have succeeds := (step_perform kept operation).edits.succeeds
  obtain ⟨old, isOld, continues⟩ | ⟨isNew, blueprint, makes, fits, tagged⟩ :=
    succeeds.nodes node member
  · exact (knows old isOld).perform isOld continues kept operation
  · exact knows_of_makes kept member isNew makes fits (tagged.resolve_left not_false)

/-- Whatever was done to a session, every node is known. -/
theorem knows_run (resolution : Resolution) (operations : List Session.Operation) :
    ∀ node ∈ (run resolution operations).session.graph.nodes,
      (run resolution operations).Knows node := by
  induction operations using List.reverseRecOn with
  | nil => exact fun node member => absurd member List.not_mem_nil
  | append_singleton operations operation inductionHypothesis =>
    have kept : (run resolution operations).session.Kept := by
      rw [session_run]
      exact kept_run resolution operations
    rw [run, List.foldl_concat]
    exact knows_perform kept inductionHypothesis operation

end History

end Workflow
