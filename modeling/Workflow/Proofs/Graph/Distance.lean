/-
This file proves that the closure of a node lists nearer nodes first, and none twice.

What waits in the queue of the search comes in the order of distance from the start,
and the last that waits is at most one link farther than the first. Whatever is still
unseen can only be reached through the queue; so what is seen anew is one link farther
than the node that is taken off, and nothing that comes later is nearer.
-/

import Mathlib.Order.Lattice.Nat
import Workflow.Proofs.Graph.Reach
import Workflow.Proofs.Graph.Run

namespace Workflow

/-- No id is taken twice. -/
theorem nodup_takeNew (ids unseen : List NodeId) : (takeNew ids unseen).2.Nodup := by
  induction ids generalizing unseen with
  | nil => exact List.nodup_nil
  | cons id rest inductionHypothesis =>
    rw [takeNew]
    split
    · refine List.nodup_cons.2 ⟨fun again => ?_, inductionHypothesis _⟩
      have isLeft := ((mem_takeNew rest (dropId id unseen) id).2.1 again).1
      exact (mem_dropId.1 isLeft).2 rfl
    · exact inductionHypothesis unseen

namespace Graph

/-! ### Distances -/

/-- Links lead from a start to a node in a number of steps. -/
def LeadsIn (graph : Graph) (start : NodeId) : Nat → NodeId → Prop
  | 0, id => id = start
  | steps + 1, id => ∃ producer, graph.LeadsIn start steps producer ∧ graph.Feeds producer id

/-- The least number of links that lead from a start to a node that it reaches. -/
noncomputable def distance (graph : Graph) (start id : NodeId) : Nat :=
  sInf {steps | graph.LeadsIn start steps id}

variable {graph : Graph} {start : NodeId}

theorem reaches_iff_exists_leadsIn {id : NodeId} :
    graph.Reaches start id ↔ ∃ steps, graph.LeadsIn start steps id := by
  constructor
  · intro reaches
    induction reaches with
    | refl => exact ⟨0, rfl⟩
    | @tail producer _ _ feeds inductionHypothesis =>
      obtain ⟨steps, leads⟩ := inductionHypothesis
      exact ⟨steps + 1, producer, leads, feeds⟩
  · rintro ⟨steps, leads⟩
    induction steps generalizing id with
    | zero =>
      rw [show id = start from leads]
      exact .refl
    | succ steps inductionHypothesis =>
      obtain ⟨producer, earlier, feeds⟩ := leads
      exact (inductionHypothesis earlier).tail feeds

/-- The distance of a node that is reached is the length of some path. -/
theorem leadsIn_distance {id : NodeId} (reaches : graph.Reaches start id) :
    graph.LeadsIn start (graph.distance start id) id :=
  Nat.sInf_mem (reaches_iff_exists_leadsIn.1 reaches)

/-- No path is shorter than the distance. -/
theorem distance_le {steps : Nat} {id : NodeId} (leads : graph.LeadsIn start steps id) :
    graph.distance start id ≤ steps := Nat.sInf_le leads

/-- A link leads at most one step farther. -/
theorem distance_le_succ {producer consumer : NodeId} (reaches : graph.Reaches start producer)
    (feeds : graph.Feeds producer consumer) :
    graph.distance start consumer ≤ graph.distance start producer + 1 :=
  distance_le ⟨producer, leadsIn_distance reaches, feeds⟩

/-! ### Searching -/

/-- What holds of the unseen nodes and the queue of a search from a start. -/
structure Searches (graph : Graph) (start : NodeId) (unseen queue : List NodeId) : Prop where
  started : start ∉ unseen
  reached : ∀ id ∈ queue, graph.Reaches start id
  /-- The consumers of what was taken off the queue are seen. -/
  passed : ∀ id, graph.Reaches start id → id ∉ unseen → id ∉ queue →
    ∀ consumer, graph.Feeds id consumer → consumer ∉ unseen
  ascend : queue.Pairwise fun nearer farther =>
    graph.distance start nearer ≤ graph.distance start farther
  narrow : ∀ id ∈ queue, ∀ other ∈ queue,
    graph.distance start other ≤ graph.distance start id + 1

namespace Searches

variable {unseen queue : List NodeId} {first : NodeId}

/-- A path to an unseen node leads through the queue. -/
theorem exists_nearer (searches : graph.Searches start unseen queue) {steps : Nat} {id : NodeId}
    (isUnseen : id ∈ unseen) (leads : graph.LeadsIn start steps id) :
    ∃ queued ∈ queue, graph.distance start queued < steps := by
  induction steps generalizing id with
  | zero => exact absurd (show id = start from leads) fun same => searches.started (same ▸ isUnseen)
  | succ steps inductionHypothesis =>
    obtain ⟨producer, earlier, feeds⟩ := leads
    by_cases unseenToo : producer ∈ unseen
    · obtain ⟨queued, isQueued, nearer⟩ := inductionHypothesis unseenToo earlier
      exact ⟨queued, isQueued, Nat.lt_succ_of_lt nearer⟩
    · have reaches := reaches_iff_exists_leadsIn.2 ⟨steps, earlier⟩
      have isQueued : producer ∈ queue := by
        by_contra gone
        exact searches.passed producer reaches unseenToo gone id feeds isUnseen
      exact ⟨producer, isQueued, Nat.lt_succ_of_le (distance_le earlier)⟩

theorem first_le (searches : graph.Searches start unseen (first :: queue)) {id : NodeId}
    (isQueued : id ∈ first :: queue) : graph.distance start first ≤ graph.distance start id := by
  rcases List.mem_cons.1 isQueued with rfl | later
  · exact Nat.le_refl _
  · exact (List.pairwise_cons.1 searches.ascend).1 id later

/-- Unseen nodes are farther than the first of the queue. -/
theorem first_lt (searches : graph.Searches start unseen (first :: queue)) {id : NodeId}
    (isUnseen : id ∈ unseen) (reaches : graph.Reaches start id) :
    graph.distance start first < graph.distance start id := by
  obtain ⟨queued, isQueued, nearer⟩ := searches.exists_nearer isUnseen (leadsIn_distance reaches)
  exact Nat.lt_of_le_of_lt (searches.first_le isQueued) nearer

/-- What is seen anew is reached, and one link farther than the first of the queue. -/
theorem taken (searches : graph.Searches start unseen (first :: queue)) {id : NodeId}
    (isTaken : id ∈ (takeNew (graph.consumers first) unseen).2) :
    graph.Reaches start id ∧ graph.distance start id = graph.distance start first + 1 := by
  obtain ⟨isUnseen, isConsumer⟩ := (mem_takeNew _ _ id).2.1 isTaken
  have reached := searches.reached first List.mem_cons_self
  have feeds := mem_consumers.1 isConsumer
  have reaches : graph.Reaches start id := reached.tail feeds
  exact ⟨reaches, Nat.le_antisymm (distance_le_succ reached feeds)
    (searches.first_lt isUnseen reaches)⟩

/-- Taking the first node off the queue and putting its unseen consumers on it. -/
theorem next (searches : graph.Searches start unseen (first :: queue)) :
    graph.Searches start (takeNew (graph.consumers first) unseen).1
      (queue ++ (takeNew (graph.consumers first) unseen).2) := by
  have left (id : NodeId) := (mem_takeNew (graph.consumers first) unseen id).1
  have bounds : ∀ id ∈ queue ++ (takeNew (graph.consumers first) unseen).2,
      graph.distance start first ≤ graph.distance start id ∧
        graph.distance start id ≤ graph.distance start first + 1 := by
    intro id member
    rcases List.mem_append.1 member with old | isTaken
    · have isQueued := List.mem_cons_of_mem first old
      exact ⟨searches.first_le isQueued, searches.narrow first List.mem_cons_self id isQueued⟩
    · rw [(searches.taken isTaken).2]
      exact ⟨Nat.le_succ _, Nat.le_refl _⟩
  refine ⟨fun isLeft => searches.started ((left start).1 isLeft).1, ?_, ?_, ?_, ?_⟩
  · intro id member
    rcases List.mem_append.1 member with old | isTaken
    · exact searches.reached id (List.mem_cons_of_mem first old)
    · exact (searches.taken isTaken).1
  · intro id reaches gone unqueued consumer feeds isLeft
    obtain ⟨isUnseen, apart⟩ := (left consumer).1 isLeft
    by_cases same : id = first
    · subst same
      exact apart (mem_consumers.2 feeds)
    · have seen : id ∉ unseen := fun unseenYet => by
        by_cases now : id ∈ graph.consumers first
        · exact unqueued (List.mem_append_right _ ((mem_takeNew _ _ id).2.2 ⟨unseenYet, now⟩))
        · exact gone ((left id).2 ⟨unseenYet, now⟩)
      refine searches.passed id reaches seen (fun isQueued => ?_) consumer feeds isUnseen
      exact unqueued (List.mem_append_left _ ((List.mem_cons.1 isQueued).resolve_left same))
  · refine List.pairwise_append.2 ⟨(List.pairwise_cons.1 searches.ascend).2, ?_, ?_⟩
    · refine (nodup_takeNew _ _).imp_of_mem fun isTaken isOther _ => ?_
      rw [(searches.taken isTaken).2, (searches.taken isOther).2]
    · intro id old other isTaken
      rw [(searches.taken isTaken).2]
      exact (bounds id (List.mem_append_left _ old)).2
  · intro id member other isOther
    exact Nat.le_trans (bounds other isOther).2 (Nat.succ_le_succ (bounds id member).1)

end Searches

theorem mem_or_mem_of_mem_visit {unseen queue : List NodeId} {id : NodeId}
    (member : id ∈ graph.visit unseen queue) : id ∈ queue ∨ id ∈ unseen := by
  fun_induction visit graph unseen queue with
  | case1 => cases member
  | case2 unseen first queue taken _ inductionHypothesis =>
    rcases List.mem_cons.1 member with rfl | later
    · exact Or.inl List.mem_cons_self
    · rcases inductionHypothesis later with isQueued | isLeft
      · rcases List.mem_append.1 isQueued with old | isTaken
        · exact Or.inl (List.mem_cons_of_mem first old)
        · exact Or.inr ((mem_takeNew _ _ id).2.1 isTaken).1
      · exact Or.inr ((mem_takeNew _ _ id).1.1 isLeft).1

/-- A search answers no node twice. -/
theorem nodup_visit {unseen queue : List NodeId} (distinct : queue.Nodup)
    (seen : ∀ id ∈ queue, id ∉ unseen) : (graph.visit unseen queue).Nodup := by
  fun_induction visit graph unseen queue with
  | case1 => exact List.nodup_nil
  | case2 unseen first queue taken _ inductionHypothesis =>
    obtain ⟨firstApart, others⟩ := List.nodup_cons.1 distinct
    have taken (id : NodeId) := mem_takeNew (graph.consumers first) unseen id
    refine List.nodup_cons.2 ⟨fun again => ?_, inductionHypothesis ?_ ?_⟩
    · have firstSeen := seen first List.mem_cons_self
      rcases mem_or_mem_of_mem_visit again with isQueued | isLeft
      · rcases List.mem_append.1 isQueued with old | isTaken
        · exact firstApart old
        · exact firstSeen ((taken first).2.1 isTaken).1
      · exact firstSeen ((taken first).1.1 isLeft).1
    · refine List.nodup_append.2 ⟨others, nodup_takeNew _ _, ?_⟩
      rintro id old _ isTaken rfl
      exact seen id (List.mem_cons_of_mem first old) ((taken id).2.1 isTaken).1
    · intro id member isLeft
      obtain ⟨isUnseen, apart⟩ := (taken id).1.1 isLeft
      rcases List.mem_append.1 member with old | isTaken
      · exact seen id (List.mem_cons_of_mem first old) isUnseen
      · exact apart ((taken id).2.1 isTaken).2

/-- A search answers nearer nodes first. -/
theorem Searches.pairwise_visit {unseen queue : List NodeId}
    (searches : graph.Searches start unseen queue) :
    (graph.visit unseen queue).Pairwise fun nearer farther =>
      graph.distance start nearer ≤ graph.distance start farther := by
  fun_induction visit graph unseen queue with
  | case1 => exact List.Pairwise.nil
  | case2 unseen first queue taken _ inductionHypothesis =>
    have next := searches.next
    refine List.pairwise_cons.2 ⟨fun id later => ?_, inductionHypothesis next⟩
    obtain ⟨queued, isQueued, leads⟩ := reaches_of_mem_visit later
    have reaches : graph.Reaches start id := (next.reached queued isQueued).trans leads
    rcases mem_or_mem_of_mem_visit later with isNext | isLeft
    · rcases List.mem_append.1 isNext with old | isTaken
      · exact searches.first_le (List.mem_cons_of_mem first old)
      · rw [(searches.taken isTaken).2]
        exact Nat.le_succ _
    · exact Nat.le_of_lt (searches.first_lt ((mem_takeNew _ _ id).1.1 isLeft).1 reaches)

/-- A search begins with the start alone in its queue, and all other nodes unseen. -/
theorem Tied.searches (tied : graph.Tied) (start : NodeId) :
    graph.Searches start (dropId start graph.nodeIds) [start] where
  started member := (mem_dropId.1 member).2 rfl
  reached id member := by
    rw [List.mem_singleton.1 member]
    exact .refl
  passed id _ gone unqueued consumer feeds _ := by
    have apart : id ≠ start := fun same => unqueued (List.mem_singleton.2 same)
    exact gone (mem_dropId.2 ⟨(feeds.mem_nodeIds tied).1, apart⟩)
  ascend := List.pairwise_singleton _ _
  narrow id member other isOther := by
    rw [List.mem_singleton.1 member, List.mem_singleton.1 isOther]
    exact Nat.le_succ _

/-- Whatever was done to a graph, the closure of an id begins with the id, lists nothing twice, and
lists exactly the id and the nodes that links lead to from it, nearer nodes first. -/
theorem closure_run (operations : List Operation) (start : NodeId) :
    let graph := run operations
    let closure := graph.downstreamClosure start
    closure.head? = some start ∧ closure.Nodup ∧
      (∀ id, id ∈ closure ↔ graph.Reaches start id) ∧
      closure.Pairwise fun nearer farther =>
        graph.distance start nearer ≤ graph.distance start farther := by
  intro graph closure
  have tied : graph.Tied := tied_run operations
  refine ⟨?_, ?_, fun id => mem_downstreamClosure tied, (tied.searches start).pairwise_visit⟩
  · show (graph.visit _ [start]).head? = some start
    rw [visit, List.head?_cons]
  · refine nodup_visit (List.nodup_singleton start) fun id member unseen => ?_
    exact (mem_dropId.1 unseen).2 (List.mem_singleton.1 member)

end Graph

end Workflow
