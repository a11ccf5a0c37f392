/-
This file proves that the closure of a node holds exactly what links lead to from it.

The search takes nodes off a queue and puts their consumers on it that were not
seen before. Whatever it answers is reached from the queue; and a node that was
not seen when the search began is in the answer once a producer of it is. Ends of
links are nodes, so nothing that links lead to is left out.
-/

import Mathlib.Logic.Relation
import Workflow.Graph.Order
import Workflow.Proofs.Graph.Tied

namespace Workflow

theorem mem_dropId {id other : NodeId} {ids : List NodeId} :
    other ∈ dropId id ids ↔ other ∈ ids ∧ other ≠ id := by
  rw [dropId, List.mem_filter, decide_eq_true_eq]

/-- What is left are the unseen ids that were not taken, and what was taken are the unseen ones
among the ids. -/
theorem mem_takeNew (ids unseen : List NodeId) (id : NodeId) :
    (id ∈ (takeNew ids unseen).1 ↔ id ∈ unseen ∧ id ∉ ids) ∧
      (id ∈ (takeNew ids unseen).2 ↔ id ∈ unseen ∧ id ∈ ids) := by
  induction ids generalizing unseen with
  | nil => simp [takeNew]
  | cons first rest inductionHypothesis =>
    rw [takeNew]
    split
    · next isNew =>
      obtain ⟨left, taken⟩ := inductionHypothesis (dropId first unseen)
      by_cases same : id = first
      · subst same
        simp [left, mem_dropId, isNew]
      · simp [left, taken, mem_dropId, same]
    · next seen =>
      obtain ⟨left, taken⟩ := inductionHypothesis unseen
      by_cases same : id = first
      · subst same
        simp [left, taken, seen]
      · simp [left, taken, same]

namespace Graph

/-- One node feeds another if some link joins them. -/
def Feeds (graph : Graph) (producer consumer : NodeId) : Prop :=
  ∃ link ∈ graph.links, link.origin = producer ∧ link.target = consumer

/-- Links lead from one node to another, in any number of steps. -/
def Reaches (graph : Graph) : NodeId → NodeId → Prop := Relation.ReflTransGen graph.Feeds

/-- The ends of the links tell which node feeds which. -/
theorem feeds_iff_of_links {graph : Graph} {producer id : NodeId} {ends : List (NodeId × NodeId)}
    (listed : graph.links.map (fun link => (link.origin, link.target)) = ends) :
    graph.Feeds producer id ↔ (producer, id) ∈ ends := by
  rw [← listed, List.mem_map]
  simp only [Prod.mk.injEq, Feeds]

theorem mem_producers {graph : Graph} {id producer : NodeId} :
    producer ∈ graph.producers id ↔ graph.Feeds producer id := by
  simp only [producers, linksInto, List.mem_map, List.mem_filter, decide_eq_true_eq, Feeds]
  exact exists_congr fun link => ⟨fun both => ⟨both.1.1, both.2, both.1.2⟩,
    fun both => ⟨⟨both.1, both.2.2⟩, both.2.1⟩⟩

theorem mem_consumers {graph : Graph} {id consumer : NodeId} :
    consumer ∈ graph.consumers id ↔ graph.Feeds id consumer := by
  simp only [consumers, linksFrom, List.mem_map, List.mem_filter, decide_eq_true_eq, Feeds,
    and_assoc]

/-- What reaches a node does so in another graph whose links lead to all that reaches it. -/
theorem Reaches.transfer_toward {before after : Graph} {other id : NodeId}
    (feeds : ∀ producer consumer, before.Reaches consumer id → after.Reaches consumer id →
      before.Feeds producer consumer → after.Feeds producer consumer)
    (reaches : before.Reaches other id) : after.Reaches other id := by
  induction reaches using Relation.ReflTransGen.head_induction_on with
  | refl => exact .refl
  | @head producer consumer isFed reaches inductionHypothesis =>
    exact inductionHypothesis.head (feeds producer consumer reaches inductionHypothesis isFed)

/-- What a node reaches it also reaches in another graph with all links but those into the node. -/
theorem Reaches.transfer_from {before after : Graph} {start id : NodeId}
    (feeds : ∀ producer consumer, consumer ≠ start → before.Feeds producer consumer →
      after.Feeds producer consumer)
    (reaches : before.Reaches start id) : after.Reaches start id := by
  induction reaches with
  | refl => exact .refl
  | @tail producer consumer _ isFed inductionHypothesis =>
    -- a link into the start closes a cycle, which is left out
    by_cases same : consumer = start
    · rw [same]
      exact .refl
    · exact inductionHypothesis.tail (feeds producer consumer same isFed)

variable {graph : Graph}

/-- The consumer on a link of a tied graph is a node. -/
theorem Feeds.mem_nodeIds (tied : graph.Tied) {producer consumer : NodeId}
    (feeds : graph.Feeds producer consumer) :
    producer ∈ graph.nodeIds ∧ consumer ∈ graph.nodeIds := by
  obtain ⟨link, member, rfl, rfl⟩ := feeds
  have isNode (direction : Direction) : (link.endAt direction).1 ∈ graph.nodeIds := by
    obtain ⟨port, found⟩ := tied.exists_endPort member direction
    obtain ⟨node, isNode, -⟩ := Option.bind_eq_some_iff.1 found
    obtain ⟨inNodes, same⟩ := mem_of_node? isNode
    exact same ▸ List.mem_map_of_mem inNodes
  exact ⟨isNode .output, isNode .input⟩

theorem mem_visit_of_mem {unseen queue : List NodeId} {id : NodeId} (member : id ∈ queue) :
    id ∈ graph.visit unseen queue := by
  fun_induction visit graph unseen queue with
  | case1 => cases member
  | case2 unseen first queue taken _ inductionHypothesis =>
    rcases List.mem_cons.1 member with rfl | later
    · exact List.mem_cons_self
    · exact List.mem_cons_of_mem _ (inductionHypothesis (List.mem_append_left _ later))

/-- What a search answers is reached from its queue. -/
theorem reaches_of_mem_visit {unseen queue : List NodeId} {id : NodeId}
    (member : id ∈ graph.visit unseen queue) : ∃ start ∈ queue, graph.Reaches start id := by
  fun_induction visit graph unseen queue with
  | case1 => cases member
  | case2 unseen first queue taken _ inductionHypothesis =>
    rcases List.mem_cons.1 member with rfl | later
    · exact ⟨id, List.mem_cons_self, .refl⟩
    · obtain ⟨start, isStart, reaches⟩ := inductionHypothesis later
      rcases List.mem_append.1 isStart with old | isTaken
      · exact ⟨start, List.mem_cons_of_mem _ old, reaches⟩
      · have feeds := mem_consumers.1 ((mem_takeNew _ _ start).2.1 isTaken).2
        exact ⟨first, List.mem_cons_self, .head feeds reaches⟩

/-- A node that is unseen when a search begins is answered once one of its producers is. -/
theorem mem_visit_of_feeds {unseen queue : List NodeId} {producer consumer : NodeId}
    (member : producer ∈ graph.visit unseen queue) (feeds : graph.Feeds producer consumer)
    (isUnseen : consumer ∈ unseen) : consumer ∈ graph.visit unseen queue := by
  fun_induction visit graph unseen queue with
  | case1 => cases member
  | case2 unseen first queue taken _ inductionHypothesis =>
    refine List.mem_cons_of_mem _ ?_
    by_cases now : consumer ∈ graph.consumers first
    · have isTaken := (mem_takeNew (graph.consumers first) unseen consumer).2.2 ⟨isUnseen, now⟩
      exact mem_visit_of_mem (List.mem_append_right _ isTaken)
    · have isLeft := (mem_takeNew (graph.consumers first) unseen consumer).1.2 ⟨isUnseen, now⟩
      rcases List.mem_cons.1 member with rfl | later
      · exact absurd (mem_consumers.2 feeds) now
      · exact inductionHypothesis later isLeft

/-- The closure of a node holds exactly the nodes that links lead to from it. -/
theorem mem_downstreamClosure (tied : graph.Tied) {start id : NodeId} :
    id ∈ graph.downstreamClosure start ↔ graph.Reaches start id := by
  constructor
  · intro member
    obtain ⟨first, isFirst, reaches⟩ := reaches_of_mem_visit member
    rw [List.mem_singleton.1 isFirst] at reaches
    exact reaches
  · intro reaches
    induction reaches with
    | refl => exact mem_visit_of_mem (List.mem_singleton.2 rfl)
    | @tail producer consumer _ feeds inductionHypothesis =>
      by_cases same : consumer = start
      · rw [same]
        exact mem_visit_of_mem (List.mem_singleton.2 rfl)
      · exact mem_visit_of_feeds inductionHypothesis feeds
          (mem_dropId.2 ⟨(feeds.mem_nodeIds tied).2, same⟩)

end Graph

end Workflow
