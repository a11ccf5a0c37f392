/-
This file proves that walking through the producers of a node answers whether all
that feeds it is marked as complete, also when answers of earlier walks are
remembered.

A walk that fails has met a node whose chain fails. A walk that succeeds leaves a
set of visited nodes behind; each of them has a remembered answer, or it is marked
and all its producers were visited as well. No node that reaches the start can then
be unmarked, even where links form cycles.
-/

import Workflow.Graph.Readiness
import Workflow.Proofs.Graph.Reach

namespace Workflow.Graph

variable {graph : Graph}

/-- Every node that links lead from to a node is marked as complete. -/
def MarkedChain (graph : Graph) (id : NodeId) : Prop :=
  ∀ other, graph.Reaches other id → graph.isMarkedComplete other = true

/-- Remembered answers about chains are right. -/
def MemoHolds (graph : Graph) (memo : ChainMemo) : Prop :=
  ∀ id known, memo.lookup id = some known → (known = true ↔ graph.MarkedChain id)

theorem MarkedChain.producer {producer consumer : NodeId} (chain : graph.MarkedChain consumer)
    (feeds : graph.Feeds producer consumer) : graph.MarkedChain producer :=
  fun other reaches => chain other (reaches.tail feeds)

theorem not_isMarkedComplete {id : NodeId} (absent : graph.node? id = none) :
    graph.isMarkedComplete id ≠ true := by
  rw [isMarkedComplete, absent]
  exact Bool.false_ne_true

/-- A walk that fails has met a node whose chain is not marked throughout. -/
theorem exists_of_walkChain_false {start : NodeId} {memo : ChainMemo} (holds : graph.MemoHolds memo)
    {unvisited stack : List NodeId}
    (fails : graph.walkChain start memo unvisited stack = false) :
    ∃ id ∈ stack, ¬graph.MarkedChain id := by
  fun_induction walkChain graph start memo unvisited stack with
  | case1 => cases fails
  | case2 unvisited id stack member _ known inductionHypothesis =>
    obtain ⟨other, isLater, broken⟩ := inductionHypothesis fails
    exact ⟨other, List.mem_cons_of_mem id isLater, broken⟩
  | case3 unvisited id stack member _ known =>
    refine ⟨id, List.mem_cons_self, fun chain => ?_⟩
    split at known
    · cases known
    · cases (holds id false known).2 chain
  | case4 unvisited id stack member _ known marked inductionHypothesis =>
    obtain ⟨other, isNext, broken⟩ := inductionHypothesis fails
    rcases List.mem_append.1 isNext with isProducer | isLater
    · exact ⟨id, List.mem_cons_self, fun chain =>
        broken (chain.producer (mem_producers.1 isProducer))⟩
    · exact ⟨other, List.mem_cons_of_mem id isLater, broken⟩
  | case5 unvisited id stack member _ known unmarked =>
    exact ⟨id, List.mem_cons_self, fun chain => unmarked (chain id .refl)⟩
  | case6 unvisited id stack seen isNode inductionHypothesis =>
    obtain ⟨other, isLater, broken⟩ := inductionHypothesis fails
    exact ⟨other, List.mem_cons_of_mem id isLater, broken⟩
  | case7 unvisited id stack seen absent =>
    exact ⟨id, List.mem_cons_self, fun chain =>
      not_isMarkedComplete (Option.not_isSome_iff_eq_none.1 absent) (chain id .refl)⟩

/-- A node that a walk need not come back to: it is a node, and was visited by this walk or before
it. -/
def IsPassed (graph : Graph) (visited : NodeId → Prop) (unvisited : List NodeId) (id : NodeId) :
    Prop :=
  (graph.node? id).isSome = true ∧ (visited id ∨ id ∉ unvisited)

/-- What a successful walk has visited: nodes not visited before, whose chain is known to be marked,
or that are marked and whose producers need not be come back to. -/
def IsVisit (graph : Graph) (visited : NodeId → Prop) (unvisited : List NodeId) : Prop :=
  ∀ id, visited id → graph.MarkedChain id ∨
    (graph.isMarkedComplete id = true ∧
      ∀ producer ∈ graph.producers id, graph.IsPassed visited unvisited producer)

theorem IsPassed.of_dropId {visited : NodeId → Prop} {unvisited : List NodeId} {id other : NodeId}
    (passed : graph.IsPassed visited (dropId id unvisited) other) :
    graph.IsPassed (fun node => node = id ∨ visited node) unvisited other := by
  refine ⟨passed.1, ?_⟩
  obtain isVisited | gone := passed.2
  · exact Or.inl (Or.inr isVisited)
  · by_cases same : other = id
    · exact Or.inl (Or.inl same)
    · exact Or.inr fun member => gone (mem_dropId.2 ⟨member, same⟩)

theorem isSome_node?_of_isMarkedComplete {id : NodeId} (marked : graph.isMarkedComplete id = true) :
    (graph.node? id).isSome = true := by
  obtain ⟨node, isNode, -⟩ := (Option.any_eq_true ..).1 marked
  rw [isNode]
  rfl

/-- One more node is visited whose chain is known to be marked, or whose producers need not be come
back to. -/
theorem IsVisit.cons {visited : NodeId → Prop} {unvisited : List NodeId} {id : NodeId}
    (isVisit : graph.IsVisit visited (dropId id unvisited))
    (first : graph.MarkedChain id ∨ (graph.isMarkedComplete id = true ∧
      ∀ producer ∈ graph.producers id, graph.IsPassed visited (dropId id unvisited) producer)) :
    graph.IsVisit (fun node => node = id ∨ visited node) unvisited := by
  intro other isOne
  have either : graph.MarkedChain other ∨ (graph.isMarkedComplete other = true ∧
      ∀ producer ∈ graph.producers other,
        graph.IsPassed visited (dropId id unvisited) producer) := by
    obtain rfl | isVisited := isOne
    · exact first
    · exact isVisit other isVisited
  exact either.imp_right fun both =>
    ⟨both.1, fun producer isProducer => (both.2 producer isProducer).of_dropId⟩

/-- A walk that succeeds has visited nodes such that nothing on its stack need be come back to. -/
theorem exists_visit_of_walkChain {start : NodeId} {memo : ChainMemo} (holds : graph.MemoHolds memo)
    {unvisited stack : List NodeId}
    (succeeds : graph.walkChain start memo unvisited stack = true) :
    ∃ visited, graph.IsVisit visited unvisited ∧
      ∀ id ∈ stack, graph.IsPassed visited unvisited id := by
  fun_induction walkChain graph start memo unvisited stack with
  | case1 => exact ⟨fun _ => False, fun _ none => none.elim, fun _ member => absurd member
      List.not_mem_nil⟩
  | case2 unvisited id stack member _ known inductionHypothesis =>
    obtain ⟨visited, isVisit, passed⟩ := inductionHypothesis succeeds
    have chain : graph.MarkedChain id := by
      split at known
      · cases known
      · exact (holds id true known).1 rfl
    refine ⟨fun node => node = id ∨ visited node, isVisit.cons (Or.inl chain),
      fun other isNext => ?_⟩
    rcases List.mem_cons.1 isNext with rfl | later
    · exact ⟨isSome_node?_of_isMarkedComplete (chain other .refl), Or.inl (Or.inl rfl)⟩
    · exact (passed other later).of_dropId
  | case3 => cases succeeds
  | case4 unvisited id stack member _ known marked inductionHypothesis =>
    obtain ⟨visited, isVisit, passed⟩ := inductionHypothesis succeeds
    have producers : ∀ producer ∈ graph.producers id,
        graph.IsPassed visited (dropId id unvisited) producer :=
      fun producer isProducer => passed producer (List.mem_append_left _ isProducer)
    refine ⟨fun node => node = id ∨ visited node, isVisit.cons (Or.inr ⟨marked, producers⟩),
      fun other isNext => ?_⟩
    rcases List.mem_cons.1 isNext with rfl | later
    · exact ⟨isSome_node?_of_isMarkedComplete marked, Or.inl (Or.inl rfl)⟩
    · exact (passed other (List.mem_append_right _ later)).of_dropId
  | case5 => cases succeeds
  | case6 unvisited id stack seen isNode inductionHypothesis =>
    obtain ⟨visited, isVisit, passed⟩ := inductionHypothesis succeeds
    refine ⟨visited, isVisit, fun other isNext => ?_⟩
    rcases List.mem_cons.1 isNext with rfl | later
    · exact ⟨isNode, Or.inr seen⟩
    · exact passed other later
  | case7 => cases succeeds

/-- If all visited nodes of a walk through the whole graph are marked or known to have marked
chains, so are all nodes that reach one of them. -/
theorem IsVisit.marked {visited : NodeId → Prop} (isVisit : graph.IsVisit visited graph.nodeIds)
    {other id : NodeId} (reaches : graph.Reaches other id) (isVisited : visited id) :
    graph.isMarkedComplete other = true := by
  induction reaches with
  | refl =>
    obtain chain | ⟨marked, -⟩ := isVisit other isVisited
    · exact chain other .refl
    · exact marked
  | @tail producer consumer reaches feeds inductionHypothesis =>
    obtain chain | ⟨-, passed⟩ := isVisit consumer isVisited
    · exact chain other (reaches.tail feeds)
    · obtain ⟨isNode, isVisited | gone⟩ := passed producer (mem_producers.2 feeds)
      · exact inductionHypothesis isVisited
      · exact absurd (isSome_node?_iff.1 isNode) gone

/-- A walk from a node tells whether all that feeds the node is marked. -/
theorem walkChain_iff {start : NodeId} {memo : ChainMemo} (holds : graph.MemoHolds memo) :
    graph.walkChain start memo graph.nodeIds [start] = true ↔ graph.MarkedChain start := by
  constructor
  · intro succeeds
    obtain ⟨visited, isVisit, passed⟩ := exists_visit_of_walkChain holds succeeds
    obtain ⟨isNode, isVisited | gone⟩ := passed start (List.mem_singleton.2 rfl)
    · exact fun other reaches => isVisit.marked reaches isVisited
    · exact absurd (isSome_node?_iff.1 isNode) gone
  · intro chain
    by_contra fails
    obtain ⟨id, isStart, broken⟩ := exists_of_walkChain_false holds (Bool.eq_false_iff.2 fails)
    rw [List.mem_singleton.1 isStart] at broken
    exact broken chain

/-- Asking about a node answers right and remembers right answers only. -/
theorem chainComplete_spec {memo : ChainMemo} (holds : graph.MemoHolds memo) (start : NodeId) :
    ((graph.chainComplete start memo).1 = true ↔ graph.MarkedChain start) ∧
      graph.MemoHolds (graph.chainComplete start memo).2 := by
  rw [chainComplete]
  split
  · next known isKnown => exact ⟨holds start known isKnown, holds⟩
  · refine ⟨walkChain_iff holds, fun id known isKnown => ?_⟩
    rw [List.lookup_cons] at isKnown
    split at isKnown
    · next same =>
      cases isKnown
      rw [beq_iff_eq.1 same]
      exact walkChain_iff holds
    · exact holds id known isKnown

/-- Asking about nodes in turn answers about these nodes only, and right. -/
theorem chainAnswers_spec {memo : ChainMemo} (holds : graph.MemoHolds memo) (ids : List NodeId)
    (id : NodeId) :
    (id ∉ ids → (graph.chainAnswers memo ids).lookup id = none) ∧
      (id ∈ ids → ∃ answer, (graph.chainAnswers memo ids).lookup id = some answer ∧
        (answer = true ↔ graph.MarkedChain id)) := by
  induction ids generalizing memo with
  | nil => exact ⟨fun _ => rfl, fun member => absurd member List.not_mem_nil⟩
  | cons first rest inductionHypothesis =>
    obtain ⟨right, holdsNext⟩ := chainComplete_spec holds first
    obtain ⟨others, asked⟩ := inductionHypothesis holdsNext
    rw [chainAnswers, List.lookup_cons]
    by_cases same : id = first
    · subst same
      refine ⟨fun absent => absurd List.mem_cons_self absent, fun _ => ?_⟩
      rw [beq_self_eq_true]
      exact ⟨_, rfl, right⟩
    · rw [beq_false_of_ne same]
      refine ⟨fun absent => others fun member => absent (List.mem_cons_of_mem first member),
        fun member => asked ?_⟩
      exact (List.mem_cons.1 member).resolve_left same

end Workflow.Graph
