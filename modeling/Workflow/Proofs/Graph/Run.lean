/-
This file runs sequences of operations on an empty graph.

The operations are those that callers have, with any arguments; one that cannot be
carried out leaves the graph as it is. Taking the events, refreshing readiness and
choosing the seed of minted identifiers are counted among them, so that the graphs
of sessions are met as well.
-/

import Workflow.Proofs.Graph.Operations
import Workflow.Proofs.Registry

namespace Workflow

/-- The blueprints that there are: those of declared models, and those of primitive nodes. -/
def Blueprint.IsMade (blueprint : Blueprint) : Prop :=
  (∃ modelRef model, model.IsDeclared ∧ blueprint = .ofModel modelRef model) ∨
    ∃ kind, blueprint = .ofKind kind

theorem Blueprint.IsMade.sound {blueprint : Blueprint} (isMade : blueprint.IsMade) :
    blueprint.Sound := by
  obtain ⟨modelRef, model, declared, rfl⟩ | ⟨kind, rfl⟩ := isMade
  · exact declared.sound modelRef
  · exact sound_ofKind kind

namespace Graph

/-- What may be done to a graph. Models are declared by sources, and registries are read from
them. -/
inductive Operation where
  | createNode (modelRef : String) (model : { model : Model // model.IsDeclared })
      (fragment : Object)
  | createPrimitive (kind : NativeKind) (value : Json)
  | removeNode (id : NodeId)
  | clear
  | connect (origin : NodeId) (originSlot : Nat) (target : NodeId) (targetSlot : Nat)
  | disconnect (id : LinkId)
  | setInput (id : NodeId) (slot : Nat) (value : Json)
  | setConstant (id : NodeId) (field : String) (value : Json)
  | setPrimitive (id : NodeId) (value : Json)
  | setPosition (id : NodeId) (position : Point)
  | setPreviewOnly (id : NodeId) (previewOnly : Bool)
  | addKey (id : NodeId) (field key : String)
  | removeKey (id : NodeId) (field key : String)
  | renameKey (id : NodeId) (field key newKey : String)
  | importDocument (registry : { registry : Registry // registry.IsRead }) (document : Document)
      (options : ImportOptions)
  | reseed (seed : Seed)
  | takeEvents
  | refreshAll
  | refreshFrom (start : NodeId)

/-- The graph after an operation; one that fails changes nothing. -/
def perform (graph : Graph) : Operation → Graph
  | .createNode modelRef model fragment => (graph.createNode modelRef model.1 fragment).2
  | .createPrimitive kind value => (graph.createPrimitive kind value).2
  | .removeNode id => ((graph.removeNode id).map Prod.snd).getD graph
  | .clear => graph.clear
  | .connect origin originSlot target targetSlot =>
    ((graph.connect origin originSlot target targetSlot).toOption.map Prod.snd).getD graph
  | .disconnect id => ((graph.disconnect id).map Prod.snd).getD graph
  | .setInput id slot value => (graph.setInput id slot value).getD graph
  | .setConstant id field value => (graph.setConstant id field value).getD graph
  | .setPrimitive id value => (graph.setPrimitive id value).getD graph
  | .setPosition id position => (graph.setPosition id position).getD graph
  | .setPreviewOnly id previewOnly => (graph.setPreviewOnly id previewOnly).getD graph
  | .addKey id field key => ((graph.addKey id field key).toOption.map Prod.snd).getD graph
  | .removeKey id field key => (graph.removeKey id field key).toOption.getD graph
  | .renameKey id field key newKey => (graph.renameKey id field key newKey).toOption.getD graph
  | .importDocument registry document options =>
    (graph.importDocument registry.1 document options).2
  | .reseed seed => { graph with seed := seed }
  | .takeEvents => graph.takeEvents.2
  | .refreshAll => graph.refreshAll.2
  | .refreshFrom start => (graph.refreshFrom start).2

/-- The graph after operations on an empty graph. -/
def run (operations : List Operation) : Graph := operations.foldl perform {}

section Edits

variable {retags : Prop} {made : Blueprint → Prop} {graph : Graph}

theorem edits_getD {result : Option Graph}
    (each : ∀ after, result = some after → Edits made retags graph after) :
    Edits made retags graph (result.getD graph) := by
  cases result with
  | none => exact .refl
  | some after => exact each after rfl

theorem edits_map_getD {Answer : Type} {result : Option (Answer × Graph)}
    (each : ∀ answer after, result = some (answer, after) → Edits made retags graph after) :
    Edits made retags graph ((result.map Prod.snd).getD graph) := by
  cases result with
  | none => exact .refl
  | some pair => exact each pair.1 pair.2 rfl

theorem eq_ok_of_toOption {Problem Answer : Type} {result : Except Problem Answer} {answer : Answer}
    (found : result.toOption = some answer) : result = .ok answer := by
  cases result with
  | error problem => cases found
  | ok other =>
    cases found
    rfl

end Edits

/-- Every operation makes edits of a tied graph, in which new nodes are of declared models. -/
theorem edits_perform {graph : Graph} (tied : graph.Tied) (operation : Operation) :
    Edits Blueprint.IsMade True graph (graph.perform operation) := by
  cases operation with
  | createNode modelRef model fragment =>
    have isMade : (Blueprint.ofModel modelRef model.1).IsMade :=
      Or.inl ⟨modelRef, model.1, model.2, rfl⟩
    exact edits_createNode isMade isMade.sound fragment
  | createPrimitive kind value => exact edits_createPrimitive (Or.inr ⟨kind, rfl⟩) value
  | removeNode id => exact edits_map_getD fun _ _ success => edits_removeNode tied success
  | clear => exact .single (.clear graph)
  | connect origin originSlot target targetSlot =>
    exact edits_map_getD fun _ _ success => edits_connect (eq_ok_of_toOption success)
  | disconnect id => exact edits_map_getD fun _ _ success => edits_disconnect tied success
  | setInput id slot value => exact edits_getD fun _ success => edits_setInput success
  | setConstant id field value =>
    exact edits_getD fun _ success => edits_setConstant tied (Or.inl trivial) success
  | setPrimitive id value => exact edits_getD fun _ success => edits_setPrimitive tied success
  | setPosition id position => exact edits_getD fun _ success => edits_setPosition success
  | setPreviewOnly id previewOnly => exact edits_getD fun _ success => edits_setPreviewOnly success
  | addKey id field key =>
    exact edits_map_getD fun _ _ success => edits_addKey tied (eq_ok_of_toOption success)
  | removeKey id field key =>
    exact edits_getD fun _ success => edits_removeKey tied (eq_ok_of_toOption success)
  | renameKey id field key newKey =>
    exact edits_getD fun _ success => edits_renameKey tied (eq_ok_of_toOption success)
  | importDocument registry document options =>
    exact edits_importDocument
      (fun _ modelRef model _ found => Or.inl ⟨modelRef, model, registry.2.isDeclared found, rfl⟩)
      (fun kind => Or.inr ⟨kind, rfl⟩) (fun _ isMade => isMade.sound) graph document options
  | reseed seed => exact .single (.relabel graph seed _ _ _)
  | takeEvents => exact edits_takeEvents graph
  | refreshAll => exact edits_refreshAll graph
  | refreshFrom start => exact edits_refreshFrom graph start

theorem run_append (operations more : List Operation) :
    run (operations ++ more) = more.foldl perform (run operations) := List.foldl_append

/-- Graphs that operations lead to are tied. -/
theorem tied_run (operations : List Operation) : (run operations).Tied := by
  refine List.foldlRecOn operations perform Tied.empty fun graph tied operation _ => ?_
  exact (edits_perform tied operation).tied tied

theorem edits_run (operations more : List Operation) :
    Edits Blueprint.IsMade True (run operations) (run (operations ++ more)) := by
  rw [run_append]
  exact edits_foldl id (fun _ operation tied => edits_perform tied operation) more _
    (tied_run operations)

/-- Every node still fits what it was made from. -/
def Fitted (graph : Graph) : Prop :=
  ∀ node ∈ graph.nodes, ∃ blueprint : Blueprint, blueprint.Sound ∧ node.Fits blueprint

/-- Every node was made from a declared model or is a primitive one. -/
theorem isMade_run (operations : List Operation) {node : Node}
    (member : node ∈ (run operations).nodes) :
    ∃ blueprint : Blueprint, blueprint.IsMade ∧ node.Fits blueprint := by
  have succeeds := (edits_run [] operations).succeeds
  obtain ⟨old, isOld, -⟩ | ⟨-, blueprint, isMade, fits, -⟩ := succeeds.nodes node member
  · cases isOld
  · exact ⟨blueprint, isMade, fits⟩

theorem fitted_run (operations : List Operation) : (run operations).Fitted := by
  intro node member
  obtain ⟨blueprint, isMade, fits⟩ := isMade_run operations member
  exact ⟨blueprint, isMade.sound, fits⟩

end Graph

end Workflow
