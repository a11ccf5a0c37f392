/-
This file proves that refreshing brings readiness up to date.

While several nodes wait to be refreshed one after the other, the graph is settled
but for them: every other node knows which of its own fields are missing, and the
chain of a node is known unless one of the waiting nodes reaches it. Refreshing the
first of them leaves the graph settled but for the rest, because what it marks is
only wrong about chains that a later one reaches as well.
-/

import Workflow.Proofs.Graph.Chain
import Workflow.Proofs.Graph.Operations
import Workflow.Session

namespace Workflow

/-- The node knows which of its own fields are missing. -/
def Node.OwnCurrent (node : Node) : Prop :=
  node.readiness.complete = node.isComplete ∧ node.readiness.missing = node.missingFields

namespace Graph

/-- Every node that links lead from to a node has all its required fields. -/
def ChainComplete (graph : Graph) (id : NodeId) : Prop :=
  ∀ other ∈ graph.nodes, graph.Reaches other.id id → other.isComplete = true

/-- The node knows whether its chain is complete. -/
def ChainCurrent (graph : Graph) (node : Node) : Prop :=
  node.readiness.chainComplete = true ↔ graph.ChainComplete node.id

/-- Readiness is up to date where no waiting node calls it into question. -/
structure Settled (graph : Graph) (waiting : List NodeId) : Prop where
  own : ∀ node ∈ graph.nodes, node.id ∉ waiting → node.OwnCurrent
  chains : ∀ node ∈ graph.nodes, (∀ start ∈ waiting, ¬graph.Reaches start node.id) →
    graph.ChainCurrent node

/-- Readiness is up to date everywhere. -/
abbrev Current (graph : Graph) : Prop := graph.Settled []

variable {graph : Graph}

/-- Nodes that reach a node are nodes. -/
theorem Reaches.isNode (tied : graph.Tied) {id other : NodeId} (reaches : graph.Reaches other id)
    (isNode : id ∈ graph.nodeIds) : other ∈ graph.nodeIds := by
  induction reaches using Relation.ReflTransGen.head_induction_on with
  | refl => exact isNode
  | head feeds _ _ => exact (feeds.mem_nodeIds tied).1

/-- Where marks of completeness are right on all that reaches a node, the marked chain is the
complete one. -/
theorem markedChain_iff (tied : graph.Tied) {id : NodeId} (isNode : id ∈ graph.nodeIds)
    (marks : ∀ other ∈ graph.nodes, graph.Reaches other.id id →
      other.readiness.complete = other.isComplete) :
    graph.MarkedChain id ↔ graph.ChainComplete id := by
  constructor
  · intro chain other member reaches
    have marked := chain other.id reaches
    rw [isMarkedComplete, node?_of_mem tied.nodesAscend member, Option.any_some,
      marks other member reaches] at marked
    exact marked
  · intro chain other reaches
    obtain ⟨node, member, rfl⟩ := List.mem_map.1 (reaches.isNode tied isNode)
    rw [isMarkedComplete, node?_of_mem tied.nodesAscend member, Option.any_some,
      marks node member reaches]
    exact chain node member reaches

theorem chainComplete_mapNodes {change : Node → Node} (keepsId : ∀ node, (change node).id = node.id)
    (keepsFields : ∀ node, (change node).isComplete = node.isComplete) (id : NodeId) :
    (graph.mapNodes change).ChainComplete id ↔ graph.ChainComplete id := by
  constructor
  · intro chain other member reaches
    rw [← keepsFields other]
    refine chain (change other) (List.mem_map_of_mem member) ?_
    rw [keepsId other]
    exact reaches
  · intro chain other member reaches
    obtain ⟨node, isNode, rfl⟩ := List.mem_map.1 member
    rw [keepsFields node]
    rw [keepsId node] at reaches
    exact chain node isNode reaches

end Graph

namespace Node

/-- What is missing on a node depends on its inputs alone. -/
theorem missingFields_congr {before after : Node} (inputs : after.inputs = before.inputs)
    (multiInputs : after.multiInputs = before.multiInputs) :
    after.missingFields = before.missingFields := by
  have linked (field : String) : after.isMultiLinked field = before.isMultiLinked field := by
    rw [isMultiLinked, isMultiLinked, inputs, multiInputs]
  have among (slots : List InputSlot) (passed : List String) :
      after.missingAmong passed slots = before.missingAmong passed slots := by
    induction slots generalizing passed with
    | nil => rfl
    | cons slot rest inductionHypothesis =>
      simp only [missingAmong, linked, inductionHypothesis]
  rw [missingFields, missingFields, inputs, among]

theorem isComplete_congr {before after : Node} (inputs : after.inputs = before.inputs)
    (multiInputs : after.multiInputs = before.multiInputs) :
    after.isComplete = before.isComplete := by
  rw [isComplete, isComplete, missingFields_congr inputs multiInputs]

/-- The node with its own completeness marked afresh. -/
def remarked (node : Node) : Node :=
  { node with
    readiness :=
      { node.readiness with
        complete := node.isComplete
        missing := node.missingFields } }

/-- The node with its chain marked afresh, if there is an answer for it. -/
def rechained (answers : ChainMemo) (node : Node) : Node :=
  match answers.lookup node.id with
  | some answer => { node with readiness := { node.readiness with chainComplete := answer } }
  | none => node

theorem ownCurrent_remarked (node : Node) : node.remarked.OwnCurrent := by
  have complete : node.remarked.isComplete = node.isComplete := isComplete_congr rfl rfl
  have missing : node.remarked.missingFields = node.missingFields := missingFields_congr rfl rfl
  exact ⟨complete.symm, missing.symm⟩

theorem OwnCurrent.congr {before after : Node} (current : before.OwnCurrent)
    (complete : after.readiness.complete = before.readiness.complete)
    (missing : after.readiness.missing = before.readiness.missing)
    (fields : after.missingFields = before.missingFields) : after.OwnCurrent := by
  rw [OwnCurrent, isComplete, complete, missing, fields]
  exact current

theorem ownCurrent_rechained {answers : ChainMemo} {node : Node} (current : node.OwnCurrent) :
    (node.rechained answers).OwnCurrent := by
  rw [rechained]
  split
  · exact current.congr rfl rfl (missingFields_congr rfl rfl)
  · exact current

theorem id_rechained (answers : ChainMemo) (node : Node) :
    (node.rechained answers).id = node.id := by
  rw [rechained]
  split <;> rfl

theorem isComplete_rechained (answers : ChainMemo) (node : Node) :
    (node.rechained answers).isComplete = node.isComplete := by
  rw [rechained]
  split
  · exact isComplete_congr rfl rfl
  · rfl

end Node

namespace Graph

variable {graph : Graph}

theorem refreshComplete_eq (graph : Graph) (ids : List NodeId) :
    graph.refreshComplete ids =
      graph.mapNodes fun node => if ids.contains node.id then node.remarked else node := rfl

theorem refreshChains_eq (graph : Graph) (ids : List NodeId) :
    graph.refreshChains ids = graph.mapNodes (Node.rechained (graph.chainAnswers [] ids)) := rfl

theorem exists_of_mem_refreshComplete {ids : List NodeId} {node : Node}
    (member : node ∈ (graph.refreshComplete ids).nodes) : ∃ old ∈ graph.nodes, node.id = old.id ∧
      ((old.id ∈ ids ∧ node = old.remarked) ∨ (old.id ∉ ids ∧ node = old)) := by
  rw [refreshComplete_eq] at member
  obtain ⟨old, isOld, rfl⟩ := List.mem_map.1 member
  refine ⟨old, isOld, ?_⟩
  by_cases listed : old.id ∈ ids
  · rw [if_pos (List.contains_iff_mem.2 listed)]
    exact ⟨rfl, Or.inl ⟨listed, rfl⟩⟩
  · rw [if_neg fun contains => listed (List.contains_iff_mem.1 contains)]
    exact ⟨rfl, Or.inr ⟨listed, rfl⟩⟩

theorem exists_of_mem_refreshChains {ids : List NodeId} {node : Node}
    (member : node ∈ (graph.refreshChains ids).nodes) :
    ∃ old ∈ graph.nodes, node = old.rechained (graph.chainAnswers [] ids) := by
  rw [refreshChains_eq] at member
  obtain ⟨old, isOld, rfl⟩ := List.mem_map.1 member
  exact ⟨old, isOld, rfl⟩

theorem chainComplete_refreshComplete (graph : Graph) (ids : List NodeId) (id : NodeId) :
    (graph.refreshComplete ids).ChainComplete id ↔ graph.ChainComplete id := by
  refine chainComplete_mapNodes (fun node => ?_) (fun node => ?_) id
  · split <;> rfl
  · split
    · exact Node.isComplete_congr rfl rfl
    · rfl

theorem chainComplete_refreshChains (graph : Graph) (ids : List NodeId) (id : NodeId) :
    (graph.refreshChains ids).ChainComplete id ↔ graph.ChainComplete id :=
  chainComplete_mapNodes (Node.id_rechained _) (Node.isComplete_rechained _) id

/-- Nothing is remembered before the first walk. -/
theorem memoHolds_nil : graph.MemoHolds [] := fun _ _ known => nomatch known

/-- A node that is asked about knows its chain afterwards, if all that reaches it is marked
right. -/
theorem chainCurrent_rechained (tied : graph.Tied) {ids : List NodeId} {node : Node}
    (member : node ∈ graph.nodes) (asked : node.id ∈ ids)
    (marks : ∀ other ∈ graph.nodes, graph.Reaches other.id node.id → other.OwnCurrent) :
    (node.rechained (graph.chainAnswers [] ids)).readiness.chainComplete = true ↔
      graph.ChainComplete node.id := by
  obtain ⟨answer, isAnswer, right⟩ := (chainAnswers_spec memoHolds_nil ids node.id).2 asked
  rw [Node.rechained, isAnswer]
  exact right.trans (markedChain_iff tied (List.mem_map_of_mem member) fun other isNode reaches =>
    (marks other isNode reaches).1)

theorem rechained_of_notMem {ids : List NodeId} {node : Node} (absent : node.id ∉ ids) :
    node.rechained (graph.chainAnswers [] ids) = node := by
  rw [Node.rechained, (chainAnswers_spec memoHolds_nil ids node.id).1 absent]

theorem tied_refreshComplete (tied : graph.Tied) (ids : List NodeId) :
    (graph.refreshComplete ids).Tied := by
  have edits : Edits Blueprint.Sound True graph _ := edits_refreshComplete graph ids
  exact edits.tied tied

theorem chainCurrent_refreshChains {ids : List NodeId} {node : Node}
    (right : (node.rechained (graph.chainAnswers [] ids)).readiness.chainComplete = true ↔
      graph.ChainComplete node.id) :
    (graph.refreshChains ids).ChainCurrent (node.rechained (graph.chainAnswers [] ids)) := by
  rw [ChainCurrent, chainComplete_refreshChains, Node.id_rechained]
  exact right

/-- Refreshing all nodes brings readiness up to date, whatever it was before. -/
theorem current_refreshAll (tied : graph.Tied) : graph.refreshAll.2.Current := by
  have own : ∀ node ∈ (graph.refreshComplete graph.nodeIds).nodes,
      node.id ∈ graph.nodeIds ∧ node.OwnCurrent := by
    intro node member
    obtain ⟨old, isOld, same, ⟨listed, rfl⟩ | ⟨missed, -⟩⟩ := exists_of_mem_refreshComplete member
    · exact ⟨listed, old.ownCurrent_remarked⟩
    · exact absurd (List.mem_map_of_mem isOld) missed
  refine ⟨fun node member _ => ?_, fun node member _ => ?_⟩
  · obtain ⟨old, isOld, rfl⟩ := exists_of_mem_refreshChains member
    exact Node.ownCurrent_rechained (own old isOld).2
  · obtain ⟨old, isOld, rfl⟩ := exists_of_mem_refreshChains member
    refine chainCurrent_refreshChains ?_
    exact chainCurrent_rechained (tied_refreshComplete tied _) isOld (own old isOld).1
      fun other isOther _ => (own other isOther).2

/-- Refreshing downstream of the first node that waits leaves the graph settled but for the rest. -/
theorem Settled.refreshFrom (tied : graph.Tied) {start : NodeId} {waiting : List NodeId}
    (settled : graph.Settled (start :: waiting)) :
    (graph.refreshFrom start).2.Settled waiting := by
  rw [Graph.refreshFrom]
  split
  · have own : ∀ node ∈ (graph.refreshComplete [start]).nodes, node.id ∉ waiting →
        node.OwnCurrent := by
      intro node member apart
      obtain ⟨old, isOld, same, ⟨-, rfl⟩ | ⟨missed, rfl⟩⟩ := exists_of_mem_refreshComplete member
      · exact old.ownCurrent_remarked
      · refine settled.own node isOld fun listed => ?_
        exact (List.mem_cons.1 listed).elim (fun first => missed (List.mem_singleton.2 first)) apart
    refine ⟨fun node member apart => ?_, fun node member apart => ?_⟩
    · obtain ⟨old, isOld, rfl⟩ := exists_of_mem_refreshChains member
      rw [Node.id_rechained] at apart
      exact Node.ownCurrent_rechained (own old isOld apart)
    · obtain ⟨marked, isMarked, rfl⟩ := exists_of_mem_refreshChains member
      rw [Node.id_rechained] at apart
      refine chainCurrent_refreshChains ?_
      by_cases reached : graph.Reaches start marked.id
      · refine chainCurrent_rechained (tied_refreshComplete tied _) isMarked
          ((mem_downstreamClosure tied).2 reached) fun other isOther reaches => own other isOther ?_
        exact fun waits => apart other.id waits reaches
      · rw [rechained_of_notMem fun listed => reached ((mem_downstreamClosure tied).1 listed),
          chainComplete_refreshComplete]
        obtain ⟨old, isOld, same, refreshed⟩ := exists_of_mem_refreshComplete isMarked
        rw [same] at apart reached ⊢
        have known := settled.chains old isOld fun other waits => by
          obtain rfl | later := List.mem_cons.1 waits
          · exact reached
          · exact apart other later
        obtain ⟨-, rfl⟩ | ⟨-, rfl⟩ := refreshed
        · exact known
        · exact known
  · next absent =>
    refine ⟨fun node member apart => ?_, fun node member apart => ?_⟩
    · refine settled.own node member fun listed => ?_
      obtain rfl | waits := List.mem_cons.1 listed
      · exact absent (isSome_node?_iff.2 (List.mem_map_of_mem member))
      · exact apart waits
    · refine settled.chains node member fun other isWaiting reaches => ?_
      obtain rfl | waits := List.mem_cons.1 isWaiting
      · exact absent (isSome_node?_iff.2 (reaches.isNode tied (List.mem_map_of_mem member)))
      · exact apart other waits reaches

theorem tied_refreshFrom (tied : graph.Tied) (start : NodeId) :
    (graph.refreshFrom start).2.Tied := by
  have edits : Edits Blueprint.Sound True graph _ := edits_refreshFrom graph start
  exact edits.tied tied

/-- Refreshing downstream of all nodes that wait, one after the other, brings readiness up to
date. -/
theorem Settled.refreshEach (tied : graph.Tied) {waiting : List NodeId}
    (settled : graph.Settled waiting) : (graph.refreshEach waiting).2.Current := by
  rw [Graph.refreshEach]
  generalize ([] : List NodeId) = touched
  induction waiting generalizing graph touched with
  | nil => exact settled
  | cons start rest inductionHypothesis =>
    exact inductionHypothesis (tied_refreshFrom tied start) (settled.refreshFrom tied) _

theorem mapNodes_eq_self {change : Node → Node} (same : ∀ node ∈ graph.nodes, change node = node) :
    graph.mapNodes change = graph := by
  rw [mapNodes, List.map_congr_left same, List.map_id']

/-- Refreshing a graph whose readiness is up to date changes nothing. -/
theorem Settled.refreshAll_eq (tied : graph.Tied) (current : graph.Current) :
    graph.refreshAll.2 = graph := by
  have own : graph.refreshComplete graph.nodeIds = graph := by
    refine mapNodes_eq_self fun node member => ?_
    obtain ⟨complete, missing⟩ := current.own node member List.not_mem_nil
    split
    · rw [← complete, ← missing]
    · rfl
  show (graph.refreshComplete graph.nodeIds).refreshChains graph.nodeIds = graph
  rw [own, refreshChains_eq]
  refine mapNodes_eq_self fun node member => ?_
  have asked : node.id ∈ graph.nodeIds := List.mem_map_of_mem member
  have right := chainCurrent_rechained tied member asked fun other isOther _ =>
    current.own other isOther List.not_mem_nil
  have known := current.chains node member fun _ waits => absurd waits List.not_mem_nil
  obtain ⟨answer, isAnswer, -⟩ := (chainAnswers_spec memoHolds_nil graph.nodeIds node.id).2 asked
  rw [Node.rechained, isAnswer] at right ⊢
  have same : answer = node.readiness.chainComplete := Bool.eq_iff_iff.2 (right.trans known.symm)
  show { node with readiness := { node.readiness with chainComplete := answer } } = node
  rw [same]

/-! ### What refreshing leaves alone -/

end Graph

/-- The node without the marks of its readiness. -/
def Node.unmarked (node : Node) : Node := { node with readiness := {} }

namespace Graph

variable {graph : Graph}

/-- The graph without marks of readiness and without events. -/
def unmarked (graph : Graph) : Graph := { graph.mapNodes Node.unmarked with events := [] }

theorem unmarked_mapNodes {change : Node → Node}
    (keeps : ∀ node, (change node).unmarked = node.unmarked) :
    (graph.mapNodes change).unmarked = graph.unmarked := by
  have nodes : (graph.nodes.map change).map Node.unmarked = graph.nodes.map Node.unmarked :=
    map_mapNodes Node.unmarked graph keeps
  rw [unmarked, unmarked, mapNodes, mapNodes, mapNodes, nodes]

theorem unmarked_refreshComplete (graph : Graph) (ids : List NodeId) :
    (graph.refreshComplete ids).unmarked = graph.unmarked :=
  unmarked_mapNodes fun node => by split <;> rfl

theorem unmarked_refreshChains (graph : Graph) (ids : List NodeId) :
    (graph.refreshChains ids).unmarked = graph.unmarked := by
  rw [refreshChains_eq]
  refine unmarked_mapNodes fun node => ?_
  rw [Node.rechained]
  split <;> rfl

theorem unmarked_refreshAll (graph : Graph) : graph.refreshAll.2.unmarked = graph.unmarked :=
  (unmarked_refreshChains _ _).trans (unmarked_refreshComplete _ _)

theorem unmarked_refreshFrom (graph : Graph) (start : NodeId) :
    (graph.refreshFrom start).2.unmarked = graph.unmarked := by
  rw [refreshFrom]
  split
  · exact (unmarked_refreshChains _ _).trans (unmarked_refreshComplete _ _)
  · rfl

/-- What holds of a graph still does once it is refreshed from several nodes, if refreshing from one
keeps it. -/
theorem refreshEach_induction {motive : Graph → Prop}
    (step : ∀ graph start, motive graph → motive (graph.refreshFrom start).2) (holds : motive graph)
    (starts : List NodeId) : motive (graph.refreshEach starts).2 := by
  rw [refreshEach]
  generalize ([] : List NodeId) = touched
  induction starts generalizing graph touched with
  | nil => exact holds
  | cons start rest inductionHypothesis => exact inductionHypothesis (step graph start holds) _

theorem unmarked_refreshEach (graph : Graph) (starts : List NodeId) :
    (graph.refreshEach starts).2.unmarked = graph.unmarked :=
  refreshEach_induction (motive := fun other => other.unmarked = graph.unmarked)
    (fun other start same => (unmarked_refreshFrom other start).trans same) rfl starts

end Graph

end Workflow
