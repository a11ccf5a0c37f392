/-
This file proves that the verdicts of a check can be explained.

A check lists a status for every node of the document that was not skipped, and each
verdict has one reason. An incomplete node misses fields of its own. A node that waits
misses none, but it is delayed by another one, which does and which links lead from. A
node that is ready misses none and is not delayed. The nodes that delay others are
listed as well, so that all nodes are ready if and only if nothing is missing on any.
-/

import Workflow.Command.Check
import Workflow.Proofs.Document.Accounts
import Workflow.Proofs.Session.Run

namespace Workflow

/-! ### What verdicts mean -/

namespace Graph

/-- A node delays another one if links lead from it to the other and it misses fields. -/
def Delays (graph : Graph) (culprit node : Node) : Prop :=
  culprit.id ≠ node.id ∧ graph.Reaches culprit.id node.id ∧ culprit.readiness.missing ≠ []

section Current

variable {graph : Graph} {node : Node} (current : graph.Current) (member : node ∈ graph.nodes)

include current member

theorem Settled.isComplete_iff : node.isComplete = true ↔ node.readiness.missing = [] := by
  rw [(current.own node member List.not_mem_nil).2, Node.isComplete, List.isEmpty_iff]

theorem Settled.complete_iff :
    node.readiness.complete = true ↔ node.readiness.missing = [] := by
  rw [(current.own node member List.not_mem_nil).1, current.isComplete_iff member]

/-- The chain of a node is complete if it misses no fields and no other node delays it. -/
theorem Settled.chainComplete_iff (tied : graph.Tied) :
    node.readiness.chainComplete = true ↔
      node.readiness.missing = [] ∧ ¬∃ culprit ∈ graph.nodes, graph.Delays culprit node := by
  refine (current.chains node member fun _ waits => absurd waits List.not_mem_nil).trans ?_
  constructor
  · intro chain
    refine ⟨(current.isComplete_iff member).1 (chain node member .refl), ?_⟩
    rintro ⟨culprit, isCulprit, -, reaches, misses⟩
    exact misses ((current.isComplete_iff isCulprit).1 (chain culprit isCulprit reaches))
  · rintro ⟨nothing, undelayed⟩ other isOther reaches
    refine (current.isComplete_iff isOther).2 ?_
    by_cases same : other.id = node.id
    · rw [tied.eq_of_node? (node?_of_mem tied.nodesAscend member) isOther same]
      exact nothing
    · exact not_not.1 fun misses => undelayed ⟨other, isOther, same, reaches, misses⟩

theorem Settled.complete_of_chainComplete (tied : graph.Tied)
    (chain : node.readiness.chainComplete = true) : node.readiness.complete = true :=
  (current.complete_iff member).2 ((current.chainComplete_iff member tied).1 chain).1

/-- A complete node whose chain is not complete is delayed. -/
theorem Settled.exists_delays (tied : graph.Tied) (complete : node.readiness.complete = true)
    (unchained : node.readiness.chainComplete = false) :
    ∃ culprit ∈ graph.nodes, graph.Delays culprit node := by
  have nothing := (current.complete_iff member).1 complete
  refine not_not.1 fun undelayed => Bool.false_ne_true (unchained.symm.trans ?_)
  exact (current.chainComplete_iff member tied).2 ⟨nothing, undelayed⟩

end Current

/-- All nodes are ready if and only if nothing is missing on any of them. -/
theorem Settled.all_chainComplete_iff {graph : Graph} (current : graph.Current)
    (tied : graph.Tied) :
    (∀ node ∈ graph.nodes, node.readiness.chainComplete = true) ↔
      ∀ node ∈ graph.nodes, node.readiness.missing = [] := by
  constructor
  · intro ready node member
    exact ((current.chainComplete_iff member tied).1 (ready node member)).1
  · intro nothing node member
    refine (current.chainComplete_iff member tied).2 ⟨nothing node member, ?_⟩
    rintro ⟨culprit, isCulprit, -, -, misses⟩
    exact misses (nothing culprit isCulprit)

end Graph

theorem NodeStatus.verdict_eq_waiting_iff (status : NodeStatus) :
    status.verdict = "waiting on upstream" ↔
      status.readiness.complete = true ∧ status.readiness.chainComplete = false := by
  rw [verdict]
  cases status.readiness.chainComplete <;> cases status.readiness.complete <;> simp

theorem CheckReport.isReady_iff (report : CheckReport) :
    report.isReady = true ↔
      (report.imported.skippedNodes = [] ∧ report.imported.skippedEdges = []) ∧
        ∀ status ∈ report.nodes, status.readiness.chainComplete = true := by
  rw [isReady, ImportReport.isClean, Bool.and_eq_true, Bool.and_eq_true, List.isEmpty_iff,
    List.isEmpty_iff, List.all_eq_true]

/-! ### What statuses are about -/

namespace Graph

variable {graph after : Graph}

theorem heads_unmarked (graph : Graph) : graph.unmarked.heads = graph.heads := List.map_map ..

/-- Marks of readiness are no part of what is reported about a document. -/
theorem covers_of_unmarked {report : ImportReport} {registry : Registry} {document : Document}
    (covers : report.Covers registry document graph) (same : after.unmarked = graph.unmarked) :
    report.Covers registry document after := by
  have heads : after.heads = graph.heads := by
    rw [← heads_unmarked, same, heads_unmarked]
  have links : after.links = graph.links := by
    show after.unmarked.links = graph.unmarked.links
    rw [same]
  have orders := congrArg (List.map NodeHead.order) heads
  rw [Graph.heads, Graph.heads, List.map_map, List.map_map] at orders
  have length := congrArg List.length heads
  rw [Graph.heads, Graph.heads, List.length_map, List.length_map] at length
  exact
    { covers with
      nodes := covers.nodes.trans length.symm
      links := covers.links.trans (congrArg List.length links).symm
      orders := orders.trans covers.orders
      joined := by
        rw [links, place?_congr heads]
        exact covers.joined }

end Graph

namespace Session

variable {session next : Session}

/-- Operations change the registry by registering and removing schemas only. -/
theorem Performs.orderly {operation : Operation} (performs : session.Performs operation next)
    (orderly : session.registry.Orderly) : next.registry.Orderly := by
  cases performs with
  | nothing => exact orderly
  | draft drafts =>
    rw [registry_commitGraph]
    exact orderly
  | registerSchema name source => exact orderly.change (.register name source)
  | removeSchema name => exact orderly.change (.remove name)
  | setPreviewOnly success => exact orderly
  | importDocument document options => exact orderly
  | reseed seed => exact orderly

theorem orderly_run (resolution : Resolution) (operations : List Operation) :
    (run resolution operations).registry.Orderly :=
  List.foldlRecOn operations perform (Registry.orderly_run resolution [])
    fun session orderly operation _ => (session.performs operation).orderly orderly

/-- The report of a check covers the document. -/
theorem covers_check (orderly : session.registry.Orderly) (document : Document)
    (options : ImportOptions) :
    (session.check document options).1.imported.Covers session.registry document
      (session.check document options).2.graph := by
  have edges : (session.graph.importing session.registry document options
      document.edges.length).EdgesRead _ _ := Graph.edgesRead_importing orderly (Nat.le_refl _)
  rw [List.take_length] at edges
  have covers := edges.covers (Graph.nodesRead_importing orderly)
  have imports := Graph.importDocument_eq session.graph session.registry document options
  have report : (session.check document options).1.imported = _ := congrArg Prod.fst imports
  have graph : (session.check document options).2.graph = _ :=
    congrArg (fun imported => imported.2.takeEvents.2.refreshAll.2) imports
  rw [report, graph]
  exact Graph.covers_of_unmarked covers (Graph.unmarked_refreshAll _)

/-- Whatever was done to a session, a check lists one status for each node of the document that was
not skipped, in order and with its place. All is ready if and only if nothing was skipped and
nothing is missing on any node. A node whose chain is complete is complete itself. A node that is
complete without its chain waits, and then links lead to it from another listed node that misses
fields. -/
theorem verdicts_check (resolution : Resolution) (operations : List Operation)
    (document : Document) (options : ImportOptions) :
    let checked := (run resolution operations).check document options
    let report := checked.1
    let graph := checked.2.graph
    (report.nodes = graph.nodes.map Node.status ∧
      report.nodes.length + report.imported.skippedNodes.length = document.nodes.length ∧
      report.nodes.map NodeStatus.index =
        (unskipped (report.imported.skippedNodes.map Prod.fst) document.nodes).map
          fun entry => some entry.2) ∧
    (report.isReady = true ↔
      (report.imported.skippedNodes = [] ∧ report.imported.skippedEdges = []) ∧
        ∀ status ∈ report.nodes, status.readiness.missing = []) ∧
    (∀ status ∈ report.nodes,
      status.readiness.chainComplete = true → status.readiness.complete = true) ∧
    ∀ node ∈ graph.nodes,
      (node.status.verdict = "waiting on upstream" ↔
        node.status.readiness.complete = true ∧ node.status.readiness.chainComplete = false) ∧
      (node.status.verdict = "waiting on upstream" →
        ∃ culprit ∈ graph.nodes, culprit.id ≠ node.id ∧ graph.Reaches culprit.id node.id ∧
          culprit.status.readiness.missing ≠ []) := by
  intro checked report graph
  have kept : checked.2.Kept :=
    have before := kept_run resolution operations
    (step_perform before (.importDocument document options)).kept before
  have covers : report.imported.Covers _ document graph :=
    covers_check (orderly_run resolution operations) document options
  have listed : report.nodes = graph.nodes.map Node.status := rfl
  have each (holds : NodeStatus → Prop) :
      (∀ status ∈ report.nodes, holds status) ↔ ∀ node ∈ graph.nodes, holds node.status := by
    rw [listed, List.forall_mem_map]
  refine ⟨⟨listed, ?_, ?_⟩, ?_, ?_, fun node member => ⟨?_, fun waits => ?_⟩⟩
  · rw [listed, List.length_map, ← covers.nodes]
    exact covers.allNodes
  · rw [listed, List.map_map]
    exact covers.orders
  · rw [report.isReady_iff, each, each]
    exact and_congr_right' (kept.current.all_chainComplete_iff kept.tied)
  · exact (each _).2 fun node member => kept.current.complete_of_chainComplete member kept.tied
  · exact node.status.verdict_eq_waiting_iff
  · obtain ⟨complete, unchained⟩ := node.status.verdict_eq_waiting_iff.1 waits
    exact kept.current.exists_delays member kept.tied complete unchained

end Session

end Workflow
