/-
This file proves that operations that fail change nothing, on graphs and in sessions.

A session deals with the events of its graph also after an operation that failed. As
nothing was pending before, and a failed operation records nothing, nothing is
refreshed and nothing published.
-/

import Workflow.Proofs.Graph.Procedure
import Workflow.Proofs.Session.Run
import Workflow.Session.Procedure

namespace Workflow.Session

variable {session : Session}

namespace Procedure

/-! ### Procedures on the graph -/

section OnGraph

variable {Problem Answer : Type}

/-- With nothing pending, a procedure that gives up leaves nothing to deal with. -/
theorem run_commits_of_settle (drained : session.graph.events = [])
    {procedure : EStateM Problem Graph Answer} {result : Except Problem (Answer × Graph)}
    (settles : procedure.run session.graph = settle session.graph result) :
    (commits procedure).run session =
      settle session (result.map fun (answer, graph) => (answer, session.commitGraph graph)) := by
  rw [EStateM.run, commits, EStateM.run, onGraph, settles]
  cases result with
  | error problem =>
    show EStateM.Result.error problem session.commit = .error problem session
    rw [commit, Graph.takeEvents, drained]
    rfl
  | ok pair => rfl

theorem run_commits_of_found (drained : session.graph.events = [])
    {procedure : EStateM Unit Graph Answer} {found : Option (Answer × Graph)}
    (settles : procedure.run session.graph = settle session.graph (orNothing found)) :
    (commits procedure).run session =
      settle session (orNothing (found.map fun (answer, graph) =>
        (answer, session.commitGraph graph))) := by
  rw [run_commits_of_settle drained settles]
  cases found <;> rfl

theorem run_commits_of_changed (drained : session.graph.events = [])
    {procedure : EStateM Unit Graph Unit} {changed : Option Graph}
    (settles : procedure.run session.graph =
      settle session.graph (orNothing (changed.map justState))) :
    (commits procedure).run session =
      settle session (orNothing ((changed.map session.commitGraph).map justState)) := by
  rw [run_commits_of_settle drained settles]
  cases changed <;> rfl

theorem run_commits_of_edited (drained : session.graph.events = [])
    {procedure : EStateM Problem Graph Unit} {edited : Except Problem Graph}
    (settles : procedure.run session.graph = settle session.graph (edited.map justState)) :
    (commits procedure).run session =
      settle session ((edited.map session.commitGraph).map justState) := by
  rw [run_commits_of_settle drained settles]
  cases edited <;> rfl

end OnGraph

/-! ### Operations -/

section Operations

variable (kept : session.Kept)
include kept

theorem run_createNode (reference : String) (fragment : Object) :
    (createNode reference fragment).run session =
      settle session (orNothing (session.createNode reference fragment)) := by
  simp only [createNode, Session.createNode, run_get_bind, run_require_bind]
  cases (session.registry.qualified? reference).or (session.registry.resolve? reference) with
  | none => rfl
  | some modelRef =>
    simp only [Option.bind_some]
    cases session.registry.model? modelRef with
    | none => rfl
    | some model =>
      exact run_commits_of_settle kept.drained (Graph.Procedure.run_createNode ..)

theorem run_removeNode (id : NodeId) :
    (removeNode id).run session = settle session (orNothing (session.removeNode id)) :=
  run_commits_of_found kept.drained (Graph.Procedure.run_removeNode kept.tied id)

theorem run_connect (origin : NodeId) (originSlot : Nat) (target : NodeId) (targetSlot : Nat) :
    (connect origin originSlot target targetSlot).run session =
      settle session (session.connect origin originSlot target targetSlot) :=
  run_commits_of_settle kept.drained (Graph.Procedure.run_connect ..)

theorem run_disconnect (id : LinkId) :
    (disconnect id).run session = settle session (orNothing (session.disconnect id)) :=
  run_commits_of_found kept.drained (Graph.Procedure.run_disconnect ..)

theorem run_setInput (id : NodeId) (slot : Nat) (value : Json) :
    (setInput id slot value).run session =
      settle session (orNothing ((session.setInput id slot value).map justState)) :=
  run_commits_of_changed kept.drained (Graph.Procedure.run_setInput ..)

theorem run_setPrimitive (id : NodeId) (value : Json) :
    (setPrimitive id value).run session =
      settle session (orNothing ((session.setPrimitive id value).map justState)) :=
  run_commits_of_changed kept.drained (Graph.Procedure.run_setPrimitive ..)

theorem run_setPosition (id : NodeId) (position : Point) :
    (setPosition id position).run session =
      settle session (orNothing ((session.setPosition id position).map justState)) :=
  run_commits_of_changed kept.drained (Graph.Procedure.run_setPosition ..)

omit kept in
theorem run_setPreviewOnly (session : Session) (id : NodeId) (previewOnly : Bool) :
    (setPreviewOnly id previewOnly).run session =
      settle session (orNothing ((session.setPreviewOnly id previewOnly).map justState)) := by
  rw [EStateM.run, setPreviewOnly, onGraph, Graph.Procedure.run_setPreviewOnly,
    Session.setPreviewOnly]
  cases session.graph.setPreviewOnly id previewOnly <;> rfl

theorem run_addKey (id : NodeId) (field key : String) :
    (addKey id field key).run session = settle session (session.addKey id field key) :=
  run_commits_of_settle kept.drained (Graph.Procedure.run_addKey ..)

theorem run_removeKey (id : NodeId) (field key : String) :
    (removeKey id field key).run session =
      settle session ((session.removeKey id field key).map justState) :=
  run_commits_of_edited kept.drained (Graph.Procedure.run_removeKey kept.tied id field key)

theorem run_renameKey (id : NodeId) (field key newKey : String) :
    (renameKey id field key newKey).run session =
      settle session ((session.renameKey id field key newKey).map justState) :=
  run_commits_of_edited kept.drained (Graph.Procedure.run_renameKey ..)

end Operations

/-! ### Calls -/

/-- The procedures that callers start in a session. -/
inductive IsCall : {Problem Answer : Type} → EStateM Problem Session Answer → Prop
  | createNode (reference : String) (fragment : Object) : IsCall (createNode reference fragment)
  | removeNode (id : NodeId) : IsCall (removeNode id)
  | connect (origin : NodeId) (originSlot : Nat) (target : NodeId) (targetSlot : Nat) :
    IsCall (connect origin originSlot target targetSlot)
  | disconnect (id : LinkId) : IsCall (disconnect id)
  | setInput (id : NodeId) (slot : Nat) (value : Json) : IsCall (setInput id slot value)
  | setPrimitive (id : NodeId) (value : Json) : IsCall (setPrimitive id value)
  | setPosition (id : NodeId) (position : Point) : IsCall (setPosition id position)
  | setPreviewOnly (id : NodeId) (previewOnly : Bool) : IsCall (setPreviewOnly id previewOnly)
  | addKey (id : NodeId) (field key : String) : IsCall (addKey id field key)
  | removeKey (id : NodeId) (field key : String) : IsCall (removeKey id field key)
  | renameKey (id : NodeId) (field key newKey : String) : IsCall (renameKey id field key newKey)

theorem IsCall.leavesIntact (kept : session.Kept) {Problem Answer : Type}
    {procedure : EStateM Problem Session Answer} (isCall : IsCall procedure) :
    LeavesIntact procedure session := by
  cases isCall with
  | createNode => exact leavesIntact_of_settle (run_createNode kept ..)
  | removeNode => exact leavesIntact_of_settle (run_removeNode kept ..)
  | connect => exact leavesIntact_of_settle (run_connect kept ..)
  | disconnect => exact leavesIntact_of_settle (run_disconnect kept ..)
  | setInput => exact leavesIntact_of_settle (run_setInput kept ..)
  | setPrimitive => exact leavesIntact_of_settle (run_setPrimitive kept ..)
  | setPosition => exact leavesIntact_of_settle (run_setPosition kept ..)
  | setPreviewOnly => exact leavesIntact_of_settle (run_setPreviewOnly ..)
  | addKey => exact leavesIntact_of_settle (run_addKey kept ..)
  | removeKey => exact leavesIntact_of_settle (run_removeKey kept ..)
  | renameKey => exact leavesIntact_of_settle (run_renameKey kept ..)

/-- A key that is renamed to itself changes nothing, and nothing is published. -/
theorem leftBy_renameKey_self (kept : session.Kept) (id : NodeId) (field : String)
    {key newKey : String} (same : trimKey newKey = key) :
    leftBy ((renameKey id field key newKey).run session) = session := by
  have unchanged := Graph.Procedure.leftBy_renameKey_self session.graph id field same
  have drained : session.commit = session := by
    rw [commit, Graph.takeEvents, kept.drained]
    rfl
  rw [EStateM.run, renameKey, commits, EStateM.run, onGraph]
  cases ran : (Graph.Procedure.renameKey id field key newKey).run session.graph with
  | ok answer graph =>
    obtain rfl : graph = session.graph := by rwa [ran] at unchanged
    exact drained
  | error problem graph =>
    obtain rfl : graph = session.graph := by rwa [ran] at unchanged
    exact drained

/-! ### Runs -/

/-- An operation in place; callers go on whether it gave up or not. -/
def carryOut : Operation → EStateM Empty Session Unit
  | .createNode reference fragment => attempt (createNode reference fragment)
  | .removeNode id => attempt (removeNode id)
  | .connect origin originSlot target targetSlot =>
    attempt (connect origin originSlot target targetSlot)
  | .disconnect id => attempt (disconnect id)
  | .setInput id slot value => attempt (setInput id slot value)
  | .setPrimitive id value => attempt (setPrimitive id value)
  | .setPosition id position => attempt (setPosition id position)
  | .setPreviewOnly id previewOnly => attempt (setPreviewOnly id previewOnly)
  | .addKey id field key => attempt (addKey id field key)
  | .removeKey id field key => attempt (removeKey id field key)
  | .renameKey id field key newKey => attempt (renameKey id field key newKey)
  | operation => modify fun session => session.perform operation

theorem run_carryOut (kept : session.Kept) (operation : Operation) :
    (carryOut operation).run session = .ok () (session.perform operation) := by
  cases operation with
  | createNode => exact run_attempt_of_found (run_createNode kept ..)
  | removeNode => exact run_attempt_of_found (run_removeNode kept ..)
  | connect => rw [carryOut, run_attempt_of_settle (run_connect kept ..), perform]
  | disconnect => exact run_attempt_of_found (run_disconnect kept ..)
  | setInput => exact run_attempt_of_changed (run_setInput kept ..)
  | setPrimitive => exact run_attempt_of_changed (run_setPrimitive kept ..)
  | setPosition => exact run_attempt_of_changed (run_setPosition kept ..)
  | setPreviewOnly => exact run_attempt_of_changed (run_setPreviewOnly ..)
  | addKey => rw [carryOut, run_attempt_of_settle (run_addKey kept ..), perform]
  | removeKey => exact run_attempt_of_edited (run_removeKey kept ..)
  | renameKey => exact run_attempt_of_edited (run_renameKey kept ..)
  | _ => rfl

/-- Carrying out operations in place leads from an empty session to the session that the functions
make. -/
theorem run_carryOutAll (resolution : Resolution) (operations : List Operation) :
    (forM operations carryOut).run { registry := { resolution := resolution } } =
      .ok () (run resolution operations) :=
  run_forM (fun _ operation kept => run_carryOut kept operation)
    (fun _ operation kept => (step_perform kept operation).kept kept) operations
    (kept_start resolution)

end Procedure

/-- Whatever was done to a graph in place, calls that gave up included, the next call that gives up
leaves it exactly as it was, and so does one that renames a key to itself. In a session such a call
changes nothing either and publishes nothing; a call for a node of a model that the registry does
not have gives up. -/
theorem failures_run :
    (∀ operations : List Graph.Operation,
      let graph := Graph.run operations
      (forM operations Graph.Procedure.carryOut).run {} = .ok () graph ∧
      (∀ {Problem Answer : Type} (procedure : EStateM Problem Graph Answer),
        Graph.Procedure.IsCall procedure → LeavesIntact procedure graph) ∧
      ∀ id field key newKey, trimKey newKey = key →
        leftBy ((Graph.Procedure.renameKey id field key newKey).run graph) = graph) ∧
    ∀ (resolution : Resolution) (operations : List Operation),
      let session := run resolution operations
      (forM operations Procedure.carryOut).run { registry := { resolution := resolution } } =
        .ok () session ∧
      (∀ {Problem Answer : Type} (procedure : EStateM Problem Session Answer),
        Procedure.IsCall procedure → LeavesIntact procedure session) ∧
      (∀ id field key newKey, trimKey newKey = key →
        leftBy ((Procedure.renameKey id field key newKey).run session) = session) ∧
      ∀ reference fragment,
        (∀ modelRef, (session.registry.qualified? reference).or
          (session.registry.resolve? reference) = some modelRef →
            session.registry.model? modelRef = none) →
        (Procedure.createNode reference fragment).run session = .error () session := by
  refine ⟨fun operations => ⟨Graph.Procedure.run_carryOutAll operations,
      fun procedure isCall => ?_, fun id field key newKey same => ?_⟩,
    fun resolution operations => ⟨Procedure.run_carryOutAll resolution operations,
      fun procedure isCall => ?_, fun id field key newKey same => ?_,
      fun reference fragment unknown => ?_⟩⟩
  · exact isCall.leavesIntact (Graph.tied_run operations)
  · exact Graph.Procedure.leftBy_renameKey_self _ id field same
  · exact isCall.leavesIntact (kept_run resolution operations)
  · exact Procedure.leftBy_renameKey_self (kept_run resolution operations) id field same
  · rw [Procedure.run_createNode (kept_run resolution operations), createNode]
    dsimp only
    cases isFound : ((run resolution operations).registry.qualified? reference).or
        ((run resolution operations).registry.resolve? reference) with
    | none => rfl
    | some modelRef =>
      rw [Option.bind_some, unknown modelRef isFound]
      rfl

end Workflow.Session
