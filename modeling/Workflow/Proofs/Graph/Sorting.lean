/-
This file proves what putting the nodes of a graph in order answers.

The part of the order that links follow holds the nodes that depend on no cycle: going
back along links from such a part never leaves it and always comes to earlier nodes, so
it never comes back. All other nodes are appended in the order in which they were
created, those that cycles only lead to as well as those on the cycles. Hence a link
from a node that depends on a cycle may lead to a node that comes before it, though the
two share no cycle.
-/

import Workflow.Proofs.Graph.Counters
import Workflow.Proofs.Graph.Preview

namespace Workflow

/-- In a list of ascending ids, the lesser ones come first. -/
theorem idxOf_lt_idxOf_iff {ids : List NodeId} {first second : NodeId}
    (ascend : ids.Pairwise fun first second => first.number < second.number)
    (memberFirst : first ∈ ids) (memberSecond : second ∈ ids) :
    ids.idxOf first < ids.idxOf second ↔ first.number < second.number := by
  have inOrder {first second : NodeId} (memberFirst : first ∈ ids) (memberSecond : second ∈ ids)
      (before : ids.idxOf first < ids.idxOf second) : first.number < second.number := by
    have less := List.pairwise_iff_getElem.1 ascend _ _ (List.idxOf_lt_length_of_mem memberFirst)
      (List.idxOf_lt_length_of_mem memberSecond) before
    rwa [List.getElem_idxOf, List.getElem_idxOf] at less
  refine ⟨inOrder memberFirst memberSecond, fun less => ?_⟩
  rcases Nat.lt_trichotomy (ids.idxOf first) (ids.idxOf second) with before | same | after
  · exact before
  · rw [List.idxOf_inj memberFirst] at same
    rw [same] at less
    exact absurd less (Nat.lt_irrefl _)
  · exact absurd less (Nat.lt_asymm (inOrder memberSecond memberFirst after))

namespace Graph

variable {graph : Graph} {passed order : List NodeId} {producer id : NodeId}

/-! ### The part that links follow -/

/-- A node that feeds another comes before it, unless it was passed before the first. -/
theorem Follows.idxOf_lt (follows : graph.Follows passed order) (distinct : order.Nodup)
    (feeds : graph.Feeds producer id) (member : id ∈ order) (fresh : producer ∉ passed) :
    order.idxOf producer < order.idxOf id := by
  induction order generalizing passed with
  | nil => cases member
  | cons first rest inductionHypothesis =>
    obtain ⟨before, later⟩ := follows
    obtain ⟨freshFirst, distinctRest⟩ := List.nodup_cons.1 distinct
    rcases List.mem_cons.1 member with rfl | inRest
    · exact absurd (before producer feeds) fresh
    · have different : first ≠ id := fun same => freshFirst (same ▸ inRest)
      rw [List.idxOf_cons_ne rest different]
      by_cases same : first = producer
      · rw [same, List.idxOf_cons_self]
        exact Nat.succ_pos _
      · rw [List.idxOf_cons_ne rest same]
        exact Nat.succ_lt_succ (inductionHypothesis later distinctRest inRest fun isPassed =>
          (List.mem_cons.1 isPassed).elim (fun isFirst => same isFirst.symm) fresh)

/-- Where links lead from a node to one in the order, the order has both, the first one first. -/
theorem Follows.idxOf_lt_of_transGen (follows : graph.Follows [] order) (distinct : order.Nodup)
    (leads : Relation.TransGen graph.Feeds producer id) (member : id ∈ order) :
    producer ∈ order ∧ order.idxOf producer < order.idxOf id := by
  have single {producer id : NodeId} (feeds : graph.Feeds producer id) (member : id ∈ order) :
      producer ∈ order ∧ order.idxOf producer < order.idxOf id :=
    ⟨(follows.mem_of_feeds member feeds).resolve_left List.not_mem_nil,
      follows.idxOf_lt distinct feeds member List.not_mem_nil⟩
  induction leads using Relation.TransGen.head_induction_on with
  | single feeds => exact single feeds member
  | head feeds _ inductionHypothesis =>
    obtain ⟨isNext, after⟩ := inductionHypothesis
    obtain ⟨isFirst, before⟩ := single feeds isNext
    exact ⟨isFirst, before.trans after⟩

/-- An order that links follow has no node that depends on a cycle. -/
theorem Follows.not_dependsOnCycle (follows : graph.Follows [] order) (distinct : order.Nodup)
    (member : id ∈ order) : ¬ graph.DependsOnCycle id := by
  rintro ⟨start, cycle, reaches⟩
  have isListed : start ∈ order := by
    rcases Relation.reflTransGen_iff_eq_or_transGen.1 reaches with rfl | leads
    · exact member
    · exact (follows.idxOf_lt_of_transGen distinct leads member).1
  exact Nat.lt_irrefl _ (follows.idxOf_lt_of_transGen distinct cycle isListed).2

theorem DependsOnCycle.mem_nodeIds (tied : graph.Tied) (depends : graph.DependsOnCycle id) :
    id ∈ graph.nodeIds := by
  obtain ⟨start, cycle, reaches⟩ := depends
  obtain ⟨_, -, feeds⟩ := Relation.TransGen.tail'_iff.1 (cycle.trans_left reaches)
  exact (feeds.mem_nodeIds tied).2

theorem Tied.nodup_sorted (tied : graph.Tied) : graph.sorted.1.Nodup ∧ graph.sorted.2.Nodup := by
  obtain ⟨first, last, -⟩ :=
    List.nodup_append.1 (tied.sorted_spec.1.nodup_iff.2 tied.nodup_nodeIds)
  exact ⟨first, last⟩

/-- The first part of the order has the nodes that depend on no cycle. -/
theorem Tied.mem_sorted_iff (tied : graph.Tied) :
    id ∈ graph.sorted.1 ↔ id ∈ graph.nodeIds ∧ ¬ graph.DependsOnCycle id := by
  obtain ⟨perm, follows, -⟩ := tied.sorted_spec
  refine ⟨fun isTaken => ⟨perm.mem_iff.1 (List.mem_append_left _ isTaken), ?_⟩,
    fun both => tied.mem_sorted both.1 both.2⟩
  exact follows.not_dependsOnCycle tied.nodup_sorted.1 isTaken

/-- The last part of the order has the nodes on cycles and those that cycles lead to. -/
theorem Tied.mem_kept_iff (tied : graph.Tied) : id ∈ graph.sorted.2 ↔ graph.DependsOnCycle id := by
  refine ⟨tied.dependsOnCycle, fun depends => ?_⟩
  have isListed := tied.sorted_spec.1.mem_iff.2 (depends.mem_nodeIds tied)
  exact (List.mem_append.1 isListed).resolve_left fun isTaken =>
    (tied.mem_sorted_iff.1 isTaken).2 depends

theorem Tied.kept_eq_nil_iff (tied : graph.Tied) : graph.sorted.2 = [] ↔ graph.Acyclic := by
  rw [List.eq_nil_iff_forall_not_mem]
  refine ⟨fun none id cycle => none id (tied.mem_kept_iff.2 ⟨id, cycle, .refl⟩),
    fun acyclic id isKept => acyclic.not_dependsOnCycle id (tied.dependsOnCycle isKept)⟩

/-- A node in the part that links follow comes after every node that feeds it. -/
theorem Tied.idxOf_sorted_lt (tied : graph.Tied) (feeds : graph.Feeds producer id)
    (isTaken : id ∈ graph.sorted.1) : graph.sorted.1.idxOf producer < graph.sorted.1.idxOf id :=
  tied.sorted_spec.2.1.idxOf_lt tied.nodup_sorted.1 feeds isTaken List.not_mem_nil

/-- For any graph that operations lead to: there is an order that links follow just if no links
lead from a node back to it; it lists all nodes, the origin of every link before the target. If
there is none, the nodes told are those on cycles and those that cycles lead to, each once, as they
were created. The evaluation order lists all nodes and starts with those that depend on no cycle,
after all nodes that feed them; and no counter of links falls below zero on the way. -/
theorem topologicalOrder_run (operations : List Operation) :
    let graph := run operations
    ((∃ order, graph.topologicalOrder = .ok order) ↔ graph.Acyclic) ∧
    (∀ order, graph.topologicalOrder = .ok order → order.Perm graph.nodeIds ∧
      ∀ link ∈ graph.links, order.idxOf link.origin < order.idxOf link.target) ∧
    (∀ kept, graph.topologicalOrder = .error kept → kept.Sublist graph.nodeIds ∧ kept.Nodup ∧
      ∀ id, id ∈ kept ↔ graph.DependsOnCycle id) ∧
    graph.countedSort = some graph.sorted ∧
    graph.evaluationOrder.Perm graph.nodeIds ∧ graph.sorted.1 <+: graph.evaluationOrder ∧
    (∀ id, id ∈ graph.sorted.1 ↔ id ∈ graph.nodeIds ∧ ¬ graph.DependsOnCycle id) ∧
    ∀ link ∈ graph.links, link.target ∈ graph.sorted.1 →
      graph.sorted.1.idxOf link.origin < graph.sorted.1.idxOf link.target := by
  intro graph
  have tied := tied_run operations
  have inOrder : ∀ link ∈ graph.links, link.target ∈ graph.sorted.1 →
      graph.sorted.1.idxOf link.origin < graph.sorted.1.idxOf link.target :=
    fun link isLink isTaken => tied.idxOf_sorted_lt ⟨link, isLink, rfl, rfl⟩ isTaken
  refine ⟨?_, fun order sorts => ?_, fun kept fails => ?_, tied.countedSort_eq,
    tied.perm_evaluationOrder, List.prefix_append _ _, fun id => tied.mem_sorted_iff, inOrder⟩
  · rw [← tied.kept_eq_nil_iff, ← List.isEmpty_iff, topologicalOrder]
    by_cases none : graph.sorted.2.isEmpty
    · rw [if_pos none]
      exact iff_of_true ⟨_, rfl⟩ none
    · rw [if_neg none]
      exact iff_of_false (fun ⟨_, sorts⟩ => by cases sorts) none
  · rw [topologicalOrder] at sorts
    split at sorts
    · next none =>
      cases sorts
      have perm := tied.perm_evaluationOrder
      rw [evaluationOrder, List.isEmpty_iff.1 none, List.append_nil] at perm
      refine ⟨perm, fun link isLink => inOrder link isLink (perm.mem_iff.2 ?_)⟩
      exact (Feeds.mem_nodeIds tied ⟨link, isLink, rfl, rfl⟩).2
    · cases sorts
  · rw [topologicalOrder] at fails
    split at fails
    · cases fails
    · cases fails
      exact ⟨sublist_sorted graph, tied.nodup_sorted.2, fun id => tied.mem_kept_iff⟩

/-! ### The whole order -/

/-- A node that feeds another comes before it, unless it depends on a cycle and was not created
first. -/
theorem Tied.idxOf_evaluationOrder_lt_iff (tied : graph.Tied) (feeds : graph.Feeds producer id) :
    graph.evaluationOrder.idxOf producer < graph.evaluationOrder.idxOf id ↔
      (graph.DependsOnCycle producer → producer.number < id.number) := by
  have apart {id : NodeId} (isKept : id ∈ graph.sorted.2) : id ∉ graph.sorted.1 := fun isTaken =>
    (tied.mem_sorted_iff.1 isTaken).2 (tied.dependsOnCycle isKept)
  by_cases depends : graph.DependsOnCycle producer
  · obtain ⟨start, cycle, reaches⟩ := depends
    have isKept : producer ∈ graph.sorted.2 := tied.mem_kept_iff.2 ⟨start, cycle, reaches⟩
    have isKeptToo : id ∈ graph.sorted.2 :=
      tied.mem_kept_iff.2 ⟨start, cycle, Relation.ReflTransGen.tail reaches feeds⟩
    have ascend := tied.nodesAscend.sublist (sublist_sorted graph)
    rw [evaluationOrder, List.idxOf_append_of_notMem (apart isKept),
      List.idxOf_append_of_notMem (apart isKeptToo), Nat.add_lt_add_iff_left,
      idxOf_lt_idxOf_iff ascend isKept isKeptToo]
    exact ⟨fun less _ => less, fun less => less ⟨start, cycle, reaches⟩⟩
  · refine iff_of_true ?_ fun depending => absurd depending depends
    have isTaken := tied.mem_sorted (feeds.mem_nodeIds tied).1 depends
    rw [evaluationOrder, List.idxOf_append_of_mem isTaken]
    by_cases isTakenToo : id ∈ graph.sorted.1
    · rw [List.idxOf_append_of_mem isTakenToo]
      exact tied.idxOf_sorted_lt feeds isTakenToo
    · rw [List.idxOf_append_of_notMem isTakenToo]
      exact Nat.lt_of_lt_of_le (List.idxOf_lt_length_of_mem isTaken) (Nat.le_add_right _ _)

/-- When the turn of a node comes in a preview, just the nodes before it have produced
something. -/
theorem Tied.isSome_lookup_before_iff (tied : graph.Tied) (executors : Executors)
    {before after : List NodeId} (isOrder : graph.evaluationOrder = before ++ id :: after)
    (producer : NodeId) :
    ((before.foldl (graph.runNode executors) []).lookup producer).isSome ↔
      graph.evaluationOrder.idxOf producer < graph.evaluationOrder.idxOf id := by
  have perm := tied.perm_evaluationOrder
  have distinct := perm.nodup_iff.2 tied.nodup_nodeIds
  have areNodes : ∀ id ∈ before, id ∈ graph.nodeIds := fun id isBefore =>
    perm.mem_iff.1 (isOrder ▸ List.mem_append_left _ isBefore)
  have listed : (before.foldl (graph.runNode executors) []).map Prod.fst = before.reverse :=
    (map_fst_foldl_runNode areNodes).trans (List.append_nil _)
  have produced : ((before.foldl (graph.runNode executors) []).lookup producer).isSome ↔
      producer ∈ before := by
    rw [← List.mem_reverse, ← listed, List.lookup_isSome_iff, List.mem_map]
    simp only [beq_iff_eq, @eq_comm _ producer]
  rw [isOrder] at distinct
  obtain ⟨-, -, apart⟩ := List.nodup_append.1 distinct
  have absent : id ∉ before := fun isBefore => apart id isBefore id List.mem_cons_self rfl
  rw [produced, isOrder, List.idxOf_append_of_notMem absent, List.idxOf_cons_self, Nat.add_zero]
  by_cases isBefore : producer ∈ before
  · rw [List.idxOf_append_of_mem isBefore]
    exact iff_of_true isBefore (List.idxOf_lt_length_of_mem isBefore)
  · rw [List.idxOf_append_of_notMem isBefore]
    exact iff_of_false isBefore (Nat.not_lt.2 (Nat.le_add_right _ _))

/-- In the evaluation order of any graph that operations lead to, the origin of a link comes before
the target, unless it depends on a cycle and was not created first. Just then it has produced its
object when the turn of the target comes in a preview. -/
theorem evaluationOrder_run (operations : List Operation) (executors : Executors) :
    let graph := run operations
    ∀ link ∈ graph.links,
      (graph.evaluationOrder.idxOf link.origin < graph.evaluationOrder.idxOf link.target ↔
        (graph.DependsOnCycle link.origin → link.origin.number < link.target.number)) ∧
      ∀ before after, graph.evaluationOrder = before ++ link.target :: after →
        (((before.foldl (graph.runNode executors) []).lookup link.origin).isSome ↔
          (graph.DependsOnCycle link.origin → link.origin.number < link.target.number)) := by
  intro graph link isLink
  have tied := tied_run operations
  have inOrder := tied.idxOf_evaluationOrder_lt_iff ⟨link, isLink, rfl, rfl⟩
  exact ⟨inOrder, fun before after isOrder =>
    (tied.isSome_lookup_before_iff executors isOrder link.origin).trans inOrder⟩

/-- A schema with a model that passes a number on. -/
def steps : { registry : Registry // registry.IsRead } :=
  ⟨Registry.register {} "flow" (Schema.parse
    ("class Step(BaseModel):\n" ++
      "    type: Annotated[Literal[\"step\"], FieldRole.CONSTANT] = \"step\"\n" ++
      "    given: Annotated[int, FieldRole.INPUT] = 0\n" ++
      "    result: Annotated[int, FieldRole.OUTPUT] = 0\n")),
    (Registry.isRead_empty {}).register "flow" _⟩

/-- Steps that are linked as told. -/
def linkedSteps (count : Nat) (links : List (Nat × Nat)) : Document where
  nodes := List.replicate count { type := "step" }
  edges := links.map fun link =>
    { source := link.1, target := link.2, sourceSlot := "result", targetSlot := "given" }

theorem links_linkedSteps :
    (run [.importDocument steps (linkedSteps 2 [(0, 1)]) {}]).links.map
        (fun link => (link.origin, link.target)) = [(⟨1⟩, ⟨2⟩)] ∧
      (run [.importDocument steps (linkedSteps 3 [(2, 2), (2, 1), (1, 0)]) {}]).links.map
        (fun link => (link.origin, link.target)) = [(⟨3⟩, ⟨3⟩), (⟨3⟩, ⟨2⟩), (⟨2⟩, ⟨1⟩)] := by
  decide +kernel

/-- A step that is linked to one created after it comes before it. -/
theorem evaluationOrder_chain :
    let graph := run [.importDocument steps (linkedSteps 2 [(0, 1)]) {}]
    graph.Feeds ⟨1⟩ ⟨2⟩ ∧ graph.evaluationOrder.idxOf ⟨1⟩ < graph.evaluationOrder.idxOf ⟨2⟩ := by
  intro graph
  have feeds : graph.Feeds ⟨1⟩ ⟨2⟩ := (feeds_iff_of_links links_linkedSteps.1).2 (by decide)
  refine ⟨feeds, ?_⟩
  obtain ⟨link, isLink, isOrigin, isTarget⟩ := feeds
  have inOrder := (evaluationOrder_run _ {} link isLink).1
  rw [isOrigin, isTarget] at inOrder
  exact inOrder.2 fun _ => by decide

/-- A chain of two steps hangs off a third one that feeds itself. Neither step of the chain is on a
cycle, but the last one comes before the one that feeds it, because it was created first. -/
theorem evaluationOrder_afterCycle :
    let graph := run [.importDocument steps (linkedSteps 3 [(2, 2), (2, 1), (1, 0)]) {}]
    graph.Feeds ⟨2⟩ ⟨1⟩ ∧ ¬ Relation.TransGen graph.Feeds ⟨1⟩ ⟨1⟩ ∧
      ¬ Relation.TransGen graph.Feeds ⟨2⟩ ⟨2⟩ ∧ ¬ graph.Reaches ⟨1⟩ ⟨2⟩ ∧
      ¬ graph.evaluationOrder.idxOf ⟨2⟩ < graph.evaluationOrder.idxOf ⟨1⟩ := by
  intro graph
  have feeds (producer id : NodeId) : graph.Feeds producer id ↔
      (producer, id) ∈ [((⟨3⟩, ⟨3⟩) : NodeId × NodeId), (⟨3⟩, ⟨2⟩), (⟨2⟩, ⟨1⟩)] :=
    feeds_iff_of_links links_linkedSteps.2
  have isFed : graph.Feeds ⟨2⟩ ⟨1⟩ := (feeds _ _).2 (by decide)
  have stops (id : NodeId) : ¬ Relation.TransGen graph.Feeds ⟨1⟩ id := fun path => by
    obtain ⟨next, first, -⟩ := Relation.TransGen.head'_iff.1 path
    simp [feeds] at first
  have ends (id : NodeId) (path : Relation.TransGen graph.Feeds ⟨2⟩ id) : id = ⟨1⟩ := by
    obtain ⟨next, first, rest⟩ := Relation.TransGen.head'_iff.1 path
    obtain rfl : next = ⟨1⟩ := by simpa [feeds] using first
    exact (Relation.reflTransGen_iff_eq_or_transGen.1 rest).resolve_right (stops id)
  refine ⟨isFed, stops _, fun cycle => absurd (ends _ cycle) (by decide), fun reaches => ?_, ?_⟩
  · obtain same | path := Relation.reflTransGen_iff_eq_or_transGen.1 reaches
    · exact absurd same (by decide)
    · exact stops _ path
  · have cycle : graph.Feeds ⟨3⟩ ⟨3⟩ := (feeds _ _).2 (by decide)
    have leads : graph.Feeds ⟨3⟩ ⟨2⟩ := (feeds _ _).2 (by decide)
    rw [(tied_run _).idxOf_evaluationOrder_lt_iff isFed]
    exact fun less => absurd (less ⟨⟨3⟩, .single cycle, .single leads⟩) (by decide)

end Graph

end Workflow
