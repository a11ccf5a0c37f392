/-
This file proves that operations of graphs give up before they change anything.

Every operation on a graph in place settles as the function does that makes another
graph. For most of them this is one case after the other. Removing a node or a key is
different: nothing is found missing after links are gone, because links are found by
the ids that were listed before, and the node is still there without its links.
-/

import Workflow.Graph.Procedure
import Workflow.Proofs.Graph.Forget
import Workflow.Proofs.Procedure

namespace Workflow.Graph

variable {graph : Graph}

/-- Changing a node twice changes it by both changes. -/
theorem modifyNode_modifyNode (graph : Graph) (id : NodeId) (first second : Node → Node)
    (keeps : ∀ node, (first node).id = node.id) :
    (graph.modifyNode id first).modifyNode id second =
      graph.modifyNode id fun node => second (first node) := by
  refine congrArg (fun nodes => { graph with nodes := nodes }) ?_
  show (graph.nodes.map _).map _ = _
  rw [List.map_map]
  refine List.map_congr_left fun node _ => ?_
  rw [Function.comp_apply]
  by_cases same : node.id = id
  · rw [if_pos same, keeps, if_pos same, if_pos same]
  · rw [if_neg same, if_neg same, if_neg same]

namespace Procedure

/-! ### Links and nodes -/

theorem run_createNode {Problem : Type} (graph : Graph) (modelRef : String) (model : Model)
    (fragment : Object) :
    (createNode modelRef model fragment : EStateM Problem Graph NodeId).run graph =
      settle graph (.ok (graph.createNode modelRef model fragment)) := rfl

theorem run_connect (graph : Graph) (origin : NodeId) (originSlot : Nat) (target : NodeId)
    (targetSlot : Nat) :
    (connect origin originSlot target targetSlot).run graph =
      settle graph (graph.connect origin originSlot target targetSlot) := by
  simp only [connect, Graph.connect, run_get_bind, run_require_bind, run_refuse_bind,
    run_forbid_bind]
  cases graph.node? origin with
  | none => rfl
  | some originNode =>
    cases graph.node? target with
    | none => rfl
    | some targetNode =>
      simp only
      cases originNode.outputs[originSlot]? with
      | none => rfl
      | some output =>
        simp only
        cases targetNode.inputs[targetSlot]? with
        | none => rfl
        | some input =>
          simp only
          split
          · rfl
          · cases input.link <;> rfl

theorem run_disconnect (graph : Graph) (id : LinkId) :
    (disconnect id).run graph = settle graph (orNothing (graph.disconnect id)) := by
  simp only [disconnect, Graph.disconnect, run_get_bind, run_require_bind]
  cases isLink : graph.link? id with
  | none => rfl
  | some link =>
    obtain rfl : link.id = id := (mem_of_link? isLink).2
    rfl

/-- Links of a graph are all found by their ids, whichever of them are gone by then. -/
theorem run_disconnectAll {Problem : Type} (tied : graph.Tied) {links : List Link}
    (areLinks : ∀ link ∈ links, link ∈ graph.links)
    (distinct : links.Pairwise fun first second => first.id ≠ second.id) :
    (disconnectAll (links.map Link.id) : EStateM Problem Graph Unit).run graph =
      .ok () (links.foldl dropLink graph) := by
  refine dropLinks_induction (motive := fun graph links =>
    (disconnectAll (links.map Link.id) : EStateM Problem Graph Unit).run graph =
      .ok () (links.foldl dropLink graph)) (fun _ => rfl)
    (fun graph link rest tied isLink runs => ?_) tied areLinks distinct
  have isFirst : (attempt (disconnect link.id) : EStateM Problem Graph Unit).run graph =
      .ok () (graph.dropLink link) := by
    rw [run_attempt, run_disconnect, Graph.disconnect, link?_of_mem tied.linksAscend isLink]
    rfl
  rw [List.map_cons, disconnectAll, run_bind_of_ok isFirst, runs, List.foldl_cons]

theorem run_disconnectAccepted (Problem : Type) (tied : graph.Tied) (accepts : Link → Bool) :
    (disconnectAll ((graph.links.filter accepts).map Link.id) : EStateM Problem Graph Unit).run
        graph = .ok () ((graph.links.filter accepts).foldl dropLink graph) := by
  refine run_disconnectAll tied (fun link member => List.mem_of_mem_filter member) ?_
  refine (tied.linksAscend.filter accepts).imp fun less same => ?_
  rw [same] at less
  exact Nat.lt_irrefl _ less

theorem run_removeNode (tied : graph.Tied) (id : NodeId) :
    (removeNode id).run graph = settle graph (orNothing (graph.removeNode id)) := by
  have isolates := run_disconnectAccepted Unit tied
    fun link => link.origin = id ∨ link.target = id
  have isNode := node?_dropAccepted tied (fun link => link.origin = id ∨ link.target = id) id
  simp only [removeNode, run_get_bind, run_refuse_bind, run_bind_of_ok isolates, run_require_bind,
    Graph.removeNode, isNode]
  cases graph.node? id <;> rfl

/-! ### Values -/

theorem run_setInput (graph : Graph) (id : NodeId) (slot : Nat) (value : Json) :
    (setInput id slot value).run graph =
      settle graph (orNothing ((graph.setInput id slot value).map justState)) := by
  simp only [setInput, Graph.setInput, run_get_bind, run_require_bind]
  cases (graph.node? id).bind fun node => (node.inputs[slot]?).bind InputSlot.native <;> rfl

theorem run_setConstant (graph : Graph) (id : NodeId) (field : String) (value : Json) :
    (setConstant id field value).run graph =
      settle graph (orNothing ((graph.setConstant id field value).map justState)) := by
  simp only [setConstant, Graph.setConstant, run_get_bind, run_refuse_bind]
  cases (graph.node? id).any fun node => node.constants.contains field <;> rfl

theorem run_setPrimitive (graph : Graph) (id : NodeId) (value : Json) :
    (setPrimitive id value).run graph =
      settle graph (orNothing ((graph.setPrimitive id value).map justState)) := by
  simp only [setPrimitive, Graph.setPrimitive, run_get_bind, run_refuse_bind, run_setConstant]
  cases (graph.node? id).any Node.isPrimitive <;> rfl

theorem run_setPosition (graph : Graph) (id : NodeId) (position : Point) :
    (setPosition id position).run graph =
      settle graph (orNothing ((graph.setPosition id position).map justState)) := by
  simp only [setPosition, Graph.setPosition, run_get_bind, run_refuse_bind]
  cases graph.node? id <;> rfl

theorem run_setPreviewOnly (graph : Graph) (id : NodeId) (previewOnly : Bool) :
    (setPreviewOnly id previewOnly).run graph =
      settle graph (orNothing ((graph.setPreviewOnly id previewOnly).map justState)) := by
  simp only [setPreviewOnly, Graph.setPreviewOnly, run_get_bind, run_refuse_bind]
  cases graph.node? id <;> rfl

/-! ### Keys -/

theorem run_addKey (graph : Graph) (id : NodeId) (field key : String) :
    (addKey id field key).run graph = settle graph (graph.addKey id field key) := by
  simp only [addKey, Graph.addKey, run_get_bind, run_refuse_bind, run_demand_bind, run_forbid_bind,
    run_require_bind]
  split
  · rfl
  · cases graph.multiField id field with
    | error problem => rfl
    | ok found =>
      obtain ⟨node, direction, places⟩ := found
      simp only
      cases node.placeOfKey? direction places (trimKey key) with
      | some taken => rfl
      | none =>
        cases places with
        | nil => rfl
        | cons first others =>
          simp only [List.head?_cons, Option.bind_some, Option.isSome_none]
          cases (node.slots direction)[first]? with
          | none => rfl
          | some template =>
            simp only
            show (if others.isEmpty ∧ template.key.isNone then _ else _ :
              EStateM SlotEditError Graph Nat).run graph = _
            by_cases isPlaceholder : others.isEmpty ∧ template.key.isNone
            · rw [if_pos isPlaceholder, if_pos isPlaceholder]
              rfl
            · rw [if_neg isPlaceholder, if_neg isPlaceholder]
              rfl

theorem run_removeKey (tied : graph.Tied) (id : NodeId) (field key : String) :
    (removeKey id field key).run graph =
      settle graph ((graph.removeKey id field key).map justState) := by
  simp only [removeKey, Graph.removeKey, run_get_bind, run_refuse_bind, run_demand_bind,
    run_require_bind]
  cases graph.multiField id field with
  | error problem => rfl
  | ok found =>
    obtain ⟨node, direction, places⟩ := found
    simp only
    split
    · rfl
    · cases node.placeOfKey? direction places key with
      | none => rfl
      | some place =>
        simp only [run_bind_of_ok (run_disconnectAccepted _ tied (endsAt id direction place))]
        rfl

theorem run_renameKey (graph : Graph) (id : NodeId) (field key newKey : String) :
    (renameKey id field key newKey).run graph =
      settle graph ((graph.renameKey id field key newKey).map justState) := by
  simp only [renameKey, Graph.renameKey, run_get_bind, run_refuse_bind, run_demand_bind,
    run_require_bind]
  split
  · rfl
  · cases graph.multiField id field with
    | error problem => rfl
    | ok found =>
      obtain ⟨node, direction, places⟩ := found
      simp only
      cases node.placeOfKey? direction places key with
      | none => rfl
      | some place =>
        simp only
        split
        · rfl
        · simp only [run_forbid_bind]
          cases node.placeOfKey? direction places (trimKey newKey) with
          | some taken => rfl
          | none =>
            refine congrArg (fun renamed : Graph => EStateM.Result.ok ()
              (renamed.record (.slotsChanged id field))) ?_
            exact graph.modifyNode_modifyNode id _ _ fun node => rfl

/-! ### Calls -/

/-- The procedures that callers start on a graph. -/
inductive IsCall : {Problem Answer : Type} → EStateM Problem Graph Answer → Prop
  | removeNode (id : NodeId) : IsCall (removeNode id)
  | connect (origin : NodeId) (originSlot : Nat) (target : NodeId) (targetSlot : Nat) :
    IsCall (connect origin originSlot target targetSlot)
  | disconnect (id : LinkId) : IsCall (disconnect id)
  | setInput (id : NodeId) (slot : Nat) (value : Json) : IsCall (setInput id slot value)
  | setConstant (id : NodeId) (field : String) (value : Json) :
    IsCall (setConstant id field value)
  | setPrimitive (id : NodeId) (value : Json) : IsCall (setPrimitive id value)
  | setPosition (id : NodeId) (position : Point) : IsCall (setPosition id position)
  | setPreviewOnly (id : NodeId) (previewOnly : Bool) : IsCall (setPreviewOnly id previewOnly)
  | addKey (id : NodeId) (field key : String) : IsCall (addKey id field key)
  | removeKey (id : NodeId) (field key : String) : IsCall (removeKey id field key)
  | renameKey (id : NodeId) (field key newKey : String) : IsCall (renameKey id field key newKey)

theorem IsCall.leavesIntact (tied : graph.Tied) {Problem Answer : Type}
    {procedure : EStateM Problem Graph Answer} (isCall : IsCall procedure) :
    LeavesIntact procedure graph := by
  cases isCall with
  | removeNode id => exact leavesIntact_of_settle (run_removeNode tied id)
  | connect => exact leavesIntact_of_settle (run_connect ..)
  | disconnect => exact leavesIntact_of_settle (run_disconnect ..)
  | setInput => exact leavesIntact_of_settle (run_setInput ..)
  | setConstant => exact leavesIntact_of_settle (run_setConstant ..)
  | setPrimitive => exact leavesIntact_of_settle (run_setPrimitive ..)
  | setPosition => exact leavesIntact_of_settle (run_setPosition ..)
  | setPreviewOnly => exact leavesIntact_of_settle (run_setPreviewOnly ..)
  | addKey => exact leavesIntact_of_settle (run_addKey ..)
  | removeKey id field key => exact leavesIntact_of_settle (run_removeKey tied id field key)
  | renameKey => exact leavesIntact_of_settle (run_renameKey ..)

/-- A key that is renamed to itself changes nothing. -/
theorem leftBy_renameKey_self (graph : Graph) (id : NodeId) (field : String) {key newKey : String}
    (same : trimKey newKey = key) :
    leftBy ((renameKey id field key newKey).run graph) = graph := by
  rw [run_renameKey]
  cases renamed : graph.renameKey id field key newKey with
  | error problem => rfl
  | ok after =>
    obtain ⟨-, node, direction, places, place, -, -, -, ⟨-, rfl⟩ | ⟨apart, -⟩⟩ :=
      renameKey_cases renamed
    · rfl
    · exact absurd same apart

/-! ### Runs -/

/-- An operation in place; callers go on whether it gave up or not. -/
def carryOut : Operation → EStateM Empty Graph Unit
  | .removeNode id => attempt (removeNode id)
  | .connect origin originSlot target targetSlot =>
    attempt (connect origin originSlot target targetSlot)
  | .disconnect id => attempt (disconnect id)
  | .setInput id slot value => attempt (setInput id slot value)
  | .setConstant id field value => attempt (setConstant id field value)
  | .setPrimitive id value => attempt (setPrimitive id value)
  | .setPosition id position => attempt (setPosition id position)
  | .setPreviewOnly id previewOnly => attempt (setPreviewOnly id previewOnly)
  | .addKey id field key => attempt (addKey id field key)
  | .removeKey id field key => attempt (removeKey id field key)
  | .renameKey id field key newKey => attempt (renameKey id field key newKey)
  | operation => modify fun graph => graph.perform operation

theorem run_carryOut (tied : graph.Tied) (operation : Operation) :
    (carryOut operation).run graph = .ok () (graph.perform operation) := by
  cases operation with
  | removeNode id => exact run_attempt_of_found (run_removeNode tied id)
  | connect => rw [carryOut, run_attempt_of_settle (run_connect ..), perform]
  | disconnect => exact run_attempt_of_found (run_disconnect ..)
  | setInput => exact run_attempt_of_changed (run_setInput ..)
  | setConstant => exact run_attempt_of_changed (run_setConstant ..)
  | setPrimitive => exact run_attempt_of_changed (run_setPrimitive ..)
  | setPosition => exact run_attempt_of_changed (run_setPosition ..)
  | setPreviewOnly => exact run_attempt_of_changed (run_setPreviewOnly ..)
  | addKey => rw [carryOut, run_attempt_of_settle (run_addKey ..), perform]
  | removeKey id field key => exact run_attempt_of_edited (run_removeKey tied id field key)
  | renameKey => exact run_attempt_of_edited (run_renameKey ..)
  | _ => rfl

/-- Carrying out operations in place leads from the empty graph to the graph that the functions
make. -/
theorem run_carryOutAll (operations : List Operation) :
    (forM operations carryOut).run {} = .ok () (run operations) :=
  run_forM (fun _ operation tied => run_carryOut tied operation)
    (fun _ operation tied => (edits_perform tied operation).tied tied) operations Tied.empty

end Procedure

end Workflow.Graph
