/-
This file proves that previews solve the equations of their graph.

What a node sees depends on no other outputs than those of the nodes that feed it. In
an order that links follow, these have been produced when the node is run, and they
stay as they are, because every node is run once. For the same reason equations that
hold along such an order leave no choice, so any other order gives the same.
-/

import Workflow.Graph.Preview
import Workflow.Proofs.Graph.Order
import Workflow.Proofs.Graph.Run

namespace Workflow.Graph

variable {graph : Graph} {executors : Executors} {outputs first second : Outputs}
  {passed order : List NodeId} {node : Node} {id : NodeId}

/-! ### What a node sees -/

/-- What a link into a node carries depends on what the nodes that feed the node have produced. -/
theorem Tied.carried_congr (tied : graph.Tied) (isNode : node ∈ graph.nodes)
    (same : ∀ producer, graph.Feeds producer node.id →
      first.lookup producer = second.lookup producer)
    {slot : InputSlot} (isInput : slot ∈ node.inputs) {link : LinkId}
    (linked : slot.link = some link) : graph.carried first link = graph.carried second link := by
  obtain ⟨place, atPlace⟩ := List.mem_iff_getElem?.1 isInput
  obtain ⟨stored, isLink, rfl, atEnd⟩ :=
    tied.exists_link isNode (Node.getElem?_ports_input atPlace) (Option.mem_toList.2 linked)
  have feeds : graph.Feeds stored.origin node.id :=
    ⟨stored, isLink, rfl, congrArg Prod.fst atEnd⟩
  simp only [carried, link?_of_mem tied.linksAscend isLink, Option.bind_some]
  cases (graph.node? stored.origin).bind fun node => node.outputs[stored.originSlot]? with
  | none => rfl
  | some slot => simp only [Option.map_some, same stored.origin feeds]

/-- What a node sees depends on what the nodes that feed it have produced. -/
theorem Tied.gather_congr (tied : graph.Tied) (isNode : node ∈ graph.nodes)
    (same : ∀ producer, graph.Feeds producer node.id →
      first.lookup producer = second.lookup producer) :
    graph.gather first node = graph.gather second node := by
  have carries {slot : InputSlot} (isInput : slot ∈ node.inputs) {link : LinkId}
      (linked : slot.link = some link) : graph.carried first link = graph.carried second link :=
    tied.carried_congr isNode same isInput linked
  have plain : node.inputs.foldl (graph.gatherInput first) (Object.ofList node.constants.entries) =
      node.inputs.foldl (graph.gatherInput second) (Object.ofList node.constants.entries) := by
    refine List.foldl_ext _ _ _ fun gathered slot isInput => ?_
    rw [gatherInput, gatherInput]
    cases linked : slot.link with
    | none => rfl
    | some link => simp only [carries isInput linked]
  have keyed (field : String) (places : List Nat) :
      graph.gatherKeys first node field places = graph.gatherKeys second node field places := by
    rw [gatherKeys, gatherKeys]
    refine congrArg Object.ofList (List.filterMap_congr fun place _ => ?_)
    cases atPlace : node.inputs[place]? with
    | none => rfl
    | some slot =>
      cases linked : slot.link with
      | none => simp only [Option.bind_some, linked, Option.map_none]
      | some link =>
        simp only [Option.bind_some, linked, Option.map_some,
          carries (List.mem_of_getElem? atPlace) linked]
  simp only [gather, plain]
  refine List.foldl_ext _ _ _ fun gathered entry _ => ?_
  rw [gatherMulti, gatherMulti, keyed]

/-! ### Equations -/

/-- A node has produced what the executor registered for the bare name of its model makes of what
the node sees, or what the fallback makes of it if no executor is registered for that name. -/
structure Settles (graph : Graph) (executors : Executors) (outputs : Outputs) (node : Node) :
    Prop where
  registered : ∀ executor, executors.own.lookup node.modelName = some executor →
    outputs.lookup node.id = some (executor node (graph.gather outputs node))
  unregistered : executors.own.lookup node.modelName = none →
    outputs.lookup node.id = some (executors.fallback node (graph.gather outputs node))

/-- The equation of a node is about the executor that runs it. -/
theorem settles_iff : graph.Settles executors outputs node ↔
    outputs.lookup node.id = some (executors.of node node (graph.gather outputs node)) := by
  rw [Executors.of]
  cases isOwn : executors.own.lookup node.modelName with
  | none =>
    refine ⟨fun settles => settles.unregistered isOwn, fun produced => ⟨?_, fun _ => produced⟩⟩
    intro executor isRegistered
    cases isOwn.symm.trans isRegistered
  | some executor =>
    refine ⟨fun settles => settles.registered executor isOwn, fun produced => ⟨?_, ?_⟩⟩
    · intro other isRegistered
      cases isOwn.symm.trans isRegistered
      exact produced
    · intro notRegistered
      cases isOwn.symm.trans notRegistered

/-- The equations of all nodes hold, and nothing but nodes has produced anything. -/
def Solves (graph : Graph) (executors : Executors) (outputs : Outputs) : Prop :=
  (∀ node ∈ graph.nodes, graph.Settles executors outputs node) ∧
    ∀ id ∉ graph.nodeIds, outputs.lookup id = none

theorem exists_node (isNode : id ∈ graph.nodeIds) : ∃ node ∈ graph.nodes, node.id = id :=
  List.mem_map.1 isNode

/-- The equation of a node is about the outputs of the node and of the nodes that feed it. -/
theorem Settles.congr (settles : graph.Settles executors first node) (tied : graph.Tied)
    (isNode : node ∈ graph.nodes) (own : second.lookup node.id = first.lookup node.id)
    (same : ∀ producer, graph.Feeds producer node.id →
      second.lookup producer = first.lookup producer) :
    graph.Settles executors second node := by
  rw [settles_iff] at settles ⊢
  rw [own, settles, tied.gather_congr isNode same]

/-- The equations of the nodes in an order leave no choice for what these nodes produce. -/
theorem Follows.lookup_eq (follows : graph.Follows passed order) (tied : graph.Tied)
    (areNodes : ∀ id ∈ order, id ∈ graph.nodeIds)
    (agree : ∀ id ∈ passed, first.lookup id = second.lookup id)
    (firstSettles : ∀ node ∈ graph.nodes, node.id ∈ order → graph.Settles executors first node)
    (secondSettles : ∀ node ∈ graph.nodes, node.id ∈ order → graph.Settles executors second node)
    (member : id ∈ order) : first.lookup id = second.lookup id := by
  induction order generalizing passed with
  | nil => cases member
  | cons next rest inductionHypothesis =>
    obtain ⟨before, later⟩ := follows
    obtain ⟨node, isNode, rfl⟩ := exists_node (areNodes next List.mem_cons_self)
    have agreeNext : first.lookup node.id = second.lookup node.id := by
      rw [settles_iff.1 (firstSettles node isNode List.mem_cons_self),
        settles_iff.1 (secondSettles node isNode List.mem_cons_self),
        tied.gather_congr isNode fun producer feeds => agree producer (before producer feeds)]
    rcases List.mem_cons.1 member with rfl | inRest
    · exact agreeNext
    · exact inductionHypothesis later (fun id inRest => areNodes id (List.mem_cons_of_mem _ inRest))
        (List.forall_mem_cons.2 ⟨agreeNext, agree⟩)
        (fun node isNode inRest => firstSettles node isNode (List.mem_cons_of_mem _ inRest))
        (fun node isNode inRest => secondSettles node isNode (List.mem_cons_of_mem _ inRest)) inRest

/-! ### Running nodes in an order -/

/-- Running nodes leaves what others have produced. -/
theorem lookup_foldl_runNode (absent : id ∉ order) :
    (order.foldl (graph.runNode executors) outputs).lookup id = outputs.lookup id := by
  induction order generalizing outputs with
  | nil => rfl
  | cons next rest inductionHypothesis =>
    obtain ⟨different, later⟩ := not_or.1 (mt List.mem_cons.2 absent)
    rw [List.foldl_cons, inductionHypothesis later, runNode]
    split
    · rfl
    · rw [List.lookup_cons, beq_false_of_ne different]

/-- Every node that is run has one entry more, the last one first. -/
theorem map_fst_foldl_runNode (areNodes : ∀ id ∈ order, id ∈ graph.nodeIds) :
    (order.foldl (graph.runNode executors) outputs).map Prod.fst =
      order.reverse ++ outputs.map Prod.fst := by
  induction order generalizing outputs with
  | nil => rfl
  | cons next rest inductionHypothesis =>
    obtain ⟨isNode, others⟩ := List.forall_mem_cons.1 areNodes
    obtain ⟨node, found⟩ := Option.isSome_iff_exists.1 (isSome_node?_iff.2 isNode)
    rw [List.foldl_cons, inductionHypothesis others, runNode, found, List.reverse_cons,
      List.append_assoc]
    rfl

/-- When nodes are run in an order that links follow, their equations hold in the end. -/
theorem Follows.settles (follows : graph.Follows passed order) (tied : graph.Tied)
    (distinct : (passed ++ order).Nodup) (isNode : node ∈ graph.nodes) (member : node.id ∈ order) :
    graph.Settles executors (order.foldl (graph.runNode executors) outputs) node := by
  induction order generalizing passed outputs with
  | nil => cases member
  | cons next rest inductionHypothesis =>
    obtain ⟨before, later⟩ := follows
    have distinctNext := List.perm_middle.nodup_iff.1 distinct
    rcases List.mem_cons.1 member with rfl | inRest
    · have fresh : node.id ∉ rest := fun inRest =>
        (List.nodup_cons.1 distinctNext).1 (List.mem_append_right passed inRest)
      have sees : graph.gather ((node.id :: rest).foldl (graph.runNode executors) outputs) node =
          graph.gather outputs node := by
        refine tied.gather_congr isNode fun producer feeds => lookup_foldl_runNode fun inOrder => ?_
        exact (List.nodup_append.1 distinct).2.2 producer (before producer feeds) producer inOrder
          rfl
      rw [settles_iff, sees, List.foldl_cons, lookup_foldl_runNode fresh, runNode,
        node?_of_mem tied.nodesAscend isNode, List.lookup_cons_self]
    · exact inductionHypothesis later distinctNext inRest

/-- A preview makes one object for every node, and the equations of the nodes that come in the part
of the order that links follow hold. -/
theorem Tied.settles_preview (tied : graph.Tied) (isNode : node ∈ graph.nodes)
    (inOrder : node.id ∈ graph.sorted.1) :
    graph.Settles executors (graph.preview executors) node := by
  obtain ⟨perm, follows, -⟩ := tied.sorted_spec
  obtain ⟨distinct, -, apart⟩ := List.nodup_append.1 (perm.nodup_iff.2 tied.nodup_nodeIds)
  -- The nodes that are kept out of the order are run last, and change nothing before them.
  have unchanged (id : NodeId) (inOrder : id ∈ graph.sorted.1) :
      (graph.preview executors).lookup id =
        (graph.sorted.1.foldl (graph.runNode executors) []).lookup id := by
    rw [preview, evaluationOrder, List.foldl_append]
    exact lookup_foldl_runNode fun isKept => apart id inOrder id isKept rfl
  refine (follows.settles tied distinct isNode inOrder).congr tied isNode (unchanged _ inOrder)
    fun producer feeds => unchanged producer ?_
  exact (follows.mem_of_feeds inOrder feeds).resolve_left List.not_mem_nil

/-- Running all nodes in any order that links follow solves the equations. -/
theorem Follows.solves (follows : graph.Follows [] order) (tied : graph.Tied)
    (perm : order.Perm graph.nodeIds) :
    graph.Solves executors (order.foldl (graph.runNode executors) []) := by
  refine ⟨fun node isNode => ?_, fun id absent => ?_⟩
  · exact follows.settles tied (perm.nodup_iff.2 tied.nodup_nodeIds) isNode
      (perm.mem_iff.2 (List.mem_map_of_mem isNode))
  · exact lookup_foldl_runNode fun inOrder => absent (perm.mem_iff.1 inOrder)

/-- The equations of a graph that has an order which links follow have at most one solution. -/
theorem Follows.unique (follows : graph.Follows [] order) (tied : graph.Tied)
    (perm : order.Perm graph.nodeIds) (firstSolves : graph.Solves executors first)
    (secondSolves : graph.Solves executors second) (id : NodeId) :
    first.lookup id = second.lookup id := by
  by_cases isNode : id ∈ graph.nodeIds
  · exact follows.lookup_eq tied (fun id inOrder => perm.mem_iff.1 inOrder)
      (fun id none => absurd none List.not_mem_nil) (fun node isNode _ => firstSolves.1 node isNode)
      (fun node isNode _ => secondSolves.1 node isNode) (perm.mem_iff.2 isNode)
  · rw [firstSolves.2 id isNode, secondSolves.2 id isNode]

/-- In a preview of any graph that operations lead to, every node has one object, and the objects
of all nodes that neither lie on a cycle nor depend on one are what their executors make of what the
nodes see in the end: the executor registered for the bare name of the model, or else the fallback.
If there are no cycles, the objects are the only solution of these equations, and running the nodes
in any other order that links follow gives the same objects. -/
theorem preview_run (operations : List Operation) (executors : Executors) :
    let graph := run operations
    let outputs := graph.preview executors
    graph.nodeIds.Nodup ∧ (outputs.map Prod.fst).Perm graph.nodeIds ∧
    (∀ node ∈ graph.nodes, ¬ graph.DependsOnCycle node.id →
      (∀ executor, executors.own.lookup node.modelName = some executor →
        outputs.lookup node.id = some (executor node (graph.gather outputs node))) ∧
      (executors.own.lookup node.modelName = none →
        outputs.lookup node.id = some (executors.fallback node (graph.gather outputs node)))) ∧
    (graph.Acyclic → graph.Solves executors outputs ∧
      (∀ others, graph.Solves executors others → ∀ id, others.lookup id = outputs.lookup id) ∧
      ∀ order, order.Perm graph.nodeIds → graph.Follows [] order →
        ∀ id, (order.foldl (graph.runNode executors) []).lookup id = outputs.lookup id) := by
  intro graph outputs
  have tied := tied_run operations
  have perm := tied.perm_evaluationOrder
  have listed : outputs.map Prod.fst = graph.evaluationOrder.reverse :=
    (map_fst_foldl_runNode fun id inOrder => perm.mem_iff.1 inOrder).trans (List.append_nil _)
  refine ⟨tied.nodup_nodeIds, ?_, fun node isNode independent => ?_, fun acyclic => ?_⟩
  · rw [listed]
    exact (List.reverse_perm _).trans perm
  · have settles : graph.Settles executors outputs node :=
      tied.settles_preview isNode (tied.mem_sorted (List.mem_map_of_mem isNode) independent)
    exact ⟨settles.registered, settles.unregistered⟩
  · have follows := tied.follows_evaluationOrder acyclic
    have solves : graph.Solves executors outputs := follows.solves tied perm
    exact ⟨solves, fun others othersSolve => follows.unique tied perm othersSolve solves,
      fun order isOrder inOrder => follows.unique tied perm (inOrder.solves tied isOrder) solves⟩

/-- A schema with a model that has a level and one that shows a level. -/
def gauges : { registry : Registry // registry.IsRead } :=
  ⟨Registry.register {} "flow" (Schema.parse
    ("class Tank(BaseModel):\n" ++
      "    type: Annotated[Literal[\"tank\"], FieldRole.CONSTANT] = \"tank\"\n" ++
      "    level: Annotated[int, FieldRole.OUTPUT] = 0\n" ++
      "class Gauge(BaseModel):\n" ++
      "    type: Annotated[Literal[\"gauge\"], FieldRole.CONSTANT] = \"gauge\"\n" ++
      "    level: Annotated[int, FieldRole.INPUT] = 0\n")),
    (Registry.isRead_empty {}).register "flow" _⟩

/-- A tank with a gauge that shows its level. -/
def gaugedTank : Document where
  nodes := [{ type := "tank" }, { type := "gauge" }]
  edges := [{ source := 0, target := 1, sourceSlot := "level", targetSlot := "level" }]

/-- Gauges tell whether they see a level, and everything else has one. -/
def readGauges : Executors where
  own := [("Gauge", fun _ inputs =>
    [("seen", .bool ((Object.get? inputs "level").any fun level => !level.isEmpty))])]
  fallback := fun _ _ => [("level", .int 7)]

theorem checked_gaugedTank :
    let graph := run [.importDocument gauges gaugedTank {}]
    graph.links.map (fun link => (link.origin, link.target)) = [(⟨1⟩, ⟨2⟩)] ∧
      (graph.nodes.map fun node => (node.id, node.modelName)) =
        [(⟨1⟩, "Tank"), (⟨2⟩, "Gauge")] ∧
      ∀ node ∈ graph.nodes, node.modelName = "Gauge" →
        ((Object.get? (graph.gather (graph.preview readGauges) node) "level").any fun level =>
          !level.isEmpty) = true := by
  decide +kernel

/-- The tank runs by the fallback, and the gauge sees what came of it when its own executor runs. -/
theorem preview_gaugedTank :
    let outputs := (run [.importDocument gauges gaugedTank {}]).preview readGauges
    outputs.lookup ⟨1⟩ = some [("level", .int 7)] ∧
      outputs.lookup ⟨2⟩ = some [("seen", .bool true)] := by
  intro outputs
  obtain ⟨links, nodes, seen⟩ := checked_gaugedTank
  have acyclic := acyclic_of_links links (by decide)
  obtain ⟨-, -, settles, -⟩ := preview_run [.importDocument gauges gaugedTank {}] readGauges
  have found {id : NodeId} {name : String} (listed : (id, name) ∈ [(⟨1⟩, "Tank"), (⟨2⟩, "Gauge")]) :
      ∃ node ∈ (run [.importDocument gauges gaugedTank {}]).nodes,
        node.id = id ∧ node.modelName = name := by
    rw [← nodes] at listed
    obtain ⟨node, isNode, same⟩ := List.mem_map.1 listed
    exact ⟨node, isNode, Prod.mk.inj same⟩
  constructor
  · obtain ⟨tank, isNode, isFirst, isTank⟩ := @found ⟨1⟩ "Tank" (by decide)
    have produced := (settles tank isNode (acyclic.not_dependsOnCycle _)).2 (by rw [isTank]; rfl)
    rwa [isFirst] at produced
  · obtain ⟨gauge, isNode, isSecond, isGauge⟩ := @found ⟨2⟩ "Gauge" (by decide)
    have produced := (settles gauge isNode (acyclic.not_dependsOnCycle _)).1 _
      (by rw [isGauge]; rfl)
    rwa [isSecond, seen gauge isNode isGauge] at produced

end Workflow.Graph
