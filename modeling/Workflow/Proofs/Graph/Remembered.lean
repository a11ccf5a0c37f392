/-
This file proves that remembered answers about chains are exact, in whatever order
nodes are asked about.

Asking about a node adds its own answer to what is remembered and nothing else. As
the answer is right whatever right answers were remembered before, it does not depend
on them, so neither do the marks that refreshing leaves on the order of the nodes.
-/

import Workflow.Proofs.Graph.Refresh

namespace Workflow.Graph

variable {graph : Graph}

/-- Asking about a node remembers the answer, and leaves what is remembered of other nodes. -/
theorem lookup_chainComplete (graph : Graph) (start : NodeId) (memo : ChainMemo) (id : NodeId) :
    (graph.chainComplete start memo).2.lookup id =
      if id = start then some (graph.chainComplete start memo).1 else memo.lookup id := by
  rw [chainComplete]
  split
  · next known isKnown =>
    split
    · next same => rw [same, isKnown]
    · rfl
  · rw [List.lookup_cons]
    by_cases same : id = start
    · rw [if_pos same, beq_iff_eq.2 same]
    · rw [if_neg same, beq_false_of_ne same]

/-- Which answers nodes get does not depend on the order of asking. -/
theorem lookup_chainAnswers_congr {ids others : List NodeId}
    (same : ∀ id, id ∈ ids ↔ id ∈ others) (id : NodeId) :
    (graph.chainAnswers [] ids).lookup id = (graph.chainAnswers [] others).lookup id := by
  obtain ⟨unasked, asked⟩ := chainAnswers_spec memoHolds_nil ids id
  obtain ⟨unaskedToo, askedToo⟩ := chainAnswers_spec memoHolds_nil others id
  by_cases member : id ∈ ids
  · obtain ⟨answer, isAnswer, right⟩ := asked member
    obtain ⟨other, isOther, rightToo⟩ := askedToo ((same id).1 member)
    rw [isAnswer, isOther, Bool.eq_iff_iff.2 (right.trans rightToo.symm)]
  · rw [unasked member, unaskedToo fun listed => member ((same id).2 listed)]

theorem refreshChains_congr {ids others : List NodeId} (same : ∀ id, id ∈ ids ↔ id ∈ others) :
    graph.refreshChains ids = graph.refreshChains others := by
  rw [refreshChains_eq, refreshChains_eq]
  refine congrArg graph.mapNodes (funext fun node => ?_)
  rw [Node.rechained, Node.rechained, lookup_chainAnswers_congr same]

/-- A node that is refreshed is marked with whether its chain is. -/
theorem chainComplete_of_mem_refreshChains {ids : List NodeId} {node : Node}
    (member : node ∈ (graph.refreshChains ids).nodes) (asked : node.id ∈ ids) :
    node.readiness.chainComplete = true ↔ graph.MarkedChain node.id := by
  obtain ⟨old, -, rfl⟩ := exists_of_mem_refreshChains member
  rw [Node.id_rechained] at asked ⊢
  obtain ⟨answer, isAnswer, right⟩ := (chainAnswers_spec memoHolds_nil ids old.id).2 asked
  rw [Node.rechained, isAnswer]
  exact right

/-- In any graph, with any marks of completeness and any cycles: if what is remembered is right,
asking about a node tells whether every node that reaches it is there and is marked as complete, and
remembers this and what was remembered before, which is right again. So refreshing marks every node
with just this, and it does not matter in which order the nodes are refreshed. -/
theorem chainComplete_exact (graph : Graph) {memo : ChainMemo} (holds : graph.MemoHolds memo)
    (start : NodeId) :
    let asked := graph.chainComplete start memo
    (asked.1 = true ↔ graph.MarkedChain start) ∧ graph.MemoHolds asked.2 ∧
      (∀ id, asked.2.lookup id = if id = start then some asked.1 else memo.lookup id) ∧
      (∀ ids, ∀ node ∈ (graph.refreshChains ids).nodes, node.id ∈ ids →
        (node.readiness.chainComplete = true ↔ graph.MarkedChain node.id)) ∧
      ∀ ids others, (∀ id, id ∈ ids ↔ id ∈ others) →
        graph.refreshChains ids = graph.refreshChains others := by
  intro asked
  obtain ⟨right, holdsNext⟩ := chainComplete_spec holds start
  exact ⟨right, holdsNext, lookup_chainComplete graph start memo,
    fun _ _ member listed => chainComplete_of_mem_refreshChains member listed,
    fun _ _ same => refreshChains_congr same⟩

/-- Two nodes in a ring that is fed by an unmarked one, and two in a ring on their own. -/
def rings : Graph :=
  let node (number : Nat) (complete : Bool) : Node :=
    { Node.primitive ⟨number⟩ .integer .null with readiness := { complete := complete } }
  let link (number origin target : Nat) : Link :=
    { id := ⟨number⟩, origin := ⟨origin⟩, originSlot := 0, target := ⟨target⟩, targetSlot := 0 }
  { nodes := [node 1 true, node 2 true, node 3 false, node 4 true, node 5 true]
    links := [link 1 1 2, link 2 2 1, link 3 3 2, link 4 4 5, link 5 5 4] }

/-- What is remembered: the node that feeds the first ring fails, a node of the second does not. -/
def ringAnswers : ChainMemo := [(⟨4⟩, true), (⟨3⟩, false)]

/-- No link leads into the second ring. -/
theorem markedChain_rings {id : NodeId} (member : id ∈ [(⟨4⟩ : NodeId), ⟨5⟩]) :
    rings.MarkedChain id := by
  intro other reaches
  have closed : ∀ link ∈ rings.links, link.target ∈ [(⟨4⟩ : NodeId), ⟨5⟩] →
      link.origin ∈ [(⟨4⟩ : NodeId), ⟨5⟩] := by decide
  have marked : ∀ node ∈ [(⟨4⟩ : NodeId), ⟨5⟩], rings.isMarkedComplete node = true := by decide
  refine marked other ?_
  induction reaches using Relation.ReflTransGen.head_induction_on with
  | refl => exact member
  | head feeds _ inductionHypothesis =>
    obtain ⟨link, isLink, rfl, rfl⟩ := feeds
    exact closed link isLink inductionHypothesis

theorem memoHolds_rings : rings.MemoHolds ringAnswers := by
  intro id known isKnown
  rw [ringAnswers, List.lookup_cons, List.lookup_cons] at isKnown
  split at isKnown
  · next same =>
    cases isKnown
    rw [beq_iff_eq.1 same]
    exact iff_of_true rfl (markedChain_rings (by decide))
  · split at isKnown
    · next same =>
      cases isKnown
      rw [beq_iff_eq.1 same]
      exact iff_of_false Bool.false_ne_true fun chain => absurd (chain ⟨3⟩ .refl) (by decide)
    · cases isKnown

/-- Whoever asks about a node of the first ring meets the remembered failure behind it, and whoever
asks about a node of the second meets what is remembered in the ring itself. -/
theorem chainComplete_rings :
    rings.MemoHolds ringAnswers ∧
      (rings.chainComplete ⟨1⟩ ringAnswers).1 = false ∧ ¬rings.MarkedChain ⟨1⟩ ∧
      (rings.chainComplete ⟨5⟩ ringAnswers).1 = true ∧ rings.MarkedChain ⟨5⟩ ∧
      rings.MemoHolds (rings.chainComplete ⟨5⟩ ringAnswers).2 := by
  obtain ⟨first, -⟩ := chainComplete_exact rings memoHolds_rings ⟨1⟩
  obtain ⟨second, holds, -⟩ := chainComplete_exact rings memoHolds_rings ⟨5⟩
  have whole : rings.MarkedChain ⟨5⟩ := markedChain_rings (by decide)
  have broken : ¬rings.MarkedChain ⟨1⟩ := fun chain => by
    have fedByThird : rings.Feeds ⟨3⟩ ⟨2⟩ := mem_producers.1 (by decide)
    have fedBySecond : rings.Feeds ⟨2⟩ ⟨1⟩ := mem_producers.1 (by decide)
    exact absurd (chain ⟨3⟩ (.head fedByThird (.single fedBySecond))) (by decide)
  exact ⟨memoHolds_rings, Bool.eq_false_iff.2 fun succeeds => broken (first.1 succeeds), broken,
    second.2 whole, whole, holds⟩

end Workflow.Graph
