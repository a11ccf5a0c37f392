/-
This file proves that the evaluation order is one that links follow, as far as there
is one.

While nodes are taken from the queue, what is noted for a node that waits is how many
links lead into it from nodes that were not taken, and nodes in the queue have no such
links. So a node is taken after every node that feeds it. When the queue is empty, a
node that still waits is fed by another one that does; as there are finitely many of
them, going back from one to the next ends in a cycle.
-/

import Mathlib.Data.Set.Finite.Basic
import Workflow.Proofs.Graph.Reach

namespace Workflow

/-! ### Passing links -/

/-- Nodes that wait are noted with an amount that is not zero. -/
def Waiting.Counts (waiting : Waiting) (amount : NodeId → Nat) : Prop :=
  ∀ entry ∈ waiting, 0 < entry.2 ∧ entry.2 = amount entry.1

/-- Passing a link takes one from what its target waits for, and frees the target if nothing is
left. -/
theorem passLink_spec (target : NodeId) {waiting : Waiting} {amount : NodeId → Nat}
    (distinct : (waiting.map Prod.fst).Nodup) (counts : waiting.Counts amount) :
    (passLink target waiting).1.Counts (fun id => amount id - if target = id then 1 else 0) ∧
      ((if (passLink target waiting).2 then [target] else []) ++
        (passLink target waiting).1.map Prod.fst).Perm (waiting.map Prod.fst) ∧
      ((passLink target waiting).2 = true → amount target ≤ 1) := by
  induction waiting with
  | nil =>
    exact ⟨fun _ member => absurd member List.not_mem_nil, .refl _, fun freed => by cases freed⟩
  | cons entry rest inductionHypothesis =>
    obtain ⟨id, count⟩ := entry
    obtain ⟨fresh, distinctRest⟩ := List.nodup_cons.1 distinct
    obtain ⟨positive, isAmount⟩ := counts (id, count) List.mem_cons_self
    have countsRest : Waiting.Counts rest amount :=
      fun entry member => counts entry (List.mem_cons_of_mem _ member)
    have others (same : id = target) :
        Waiting.Counts rest fun id => amount id - if target = id then 1 else 0 := by
      intro entry member
      have different : target ≠ entry.1 := by
        intro isEntry
        refine fresh ?_
        show id ∈ _
        rw [same, isEntry]
        exact List.mem_map_of_mem member
      simp only [if_neg different, Nat.sub_zero]
      exact countsRest entry member
    rw [passLink]
    split
    · next same =>
      split
      · next last =>
        refine ⟨others same, ?_, fun _ => ?_⟩
        · rw [same]
          exact .refl _
        · rw [← same, ← isAmount]
          exact last
      · next several =>
        refine ⟨List.forall_mem_cons.2 ⟨?_, others same⟩, .refl _, fun freed => by cases freed⟩
        simp only [same, if_pos] at isAmount ⊢
        omega
    · next different =>
      obtain ⟨left, kept, freed⟩ := inductionHypothesis distinctRest countsRest
      refine ⟨List.forall_mem_cons.2 ⟨?_, left⟩, ?_, freed⟩
      · simp only [if_neg (Ne.symm different), Nat.sub_zero]
        exact ⟨positive, isAmount⟩
      · exact List.perm_middle.trans (kept.cons id)

/-- Passing links takes from what their targets wait for, and frees those for which nothing is
left. -/
theorem passLinks_spec (targets : List NodeId) {waiting : Waiting} {amount : NodeId → Nat}
    (distinct : (waiting.map Prod.fst).Nodup) (counts : waiting.Counts amount) :
    (passLinks targets waiting).1.Counts (fun id => amount id - targets.count id) ∧
      ((passLinks targets waiting).2 ++ (passLinks targets waiting).1.map Prod.fst).Perm
        (waiting.map Prod.fst) ∧
      ∀ id ∈ (passLinks targets waiting).2, amount id - targets.count id = 0 := by
  induction targets generalizing waiting amount with
  | nil => exact ⟨counts, .refl _, fun _ member => absurd member List.not_mem_nil⟩
  | cons target rest inductionHypothesis =>
    obtain ⟨left, kept, freed⟩ := passLink_spec target distinct counts
    obtain ⟨countsRest, keptRest, freedRest⟩ :=
      inductionHypothesis (List.nodup_append.1 (kept.nodup_iff.2 distinct)).2.1 left
    have counted (id : NodeId) : amount id - (if target = id then 1 else 0) - rest.count id =
        amount id - (target :: rest).count id := by
      simp only [List.count_cons, beq_iff_eq]
      omega
    simp only [counted] at countsRest freedRest
    simp only [passLinks]
    refine ⟨countsRest, ?_, ?_⟩
    · refine .trans ?_ kept
      split
      · exact keptRest.cons target
      · exact keptRest
    · intro id member
      split at member
      · next isFree =>
        rcases List.mem_cons.1 member with rfl | later
        · have least := freed isFree
          rw [List.count_cons_self]
          omega
        · exact freedRest id later
      · exact freedRest id member

/-- What waits after links are passed waited before, in the same order. -/
theorem sublist_passLink (target : NodeId) (waiting : Waiting) :
    ((passLink target waiting).1.map Prod.fst).Sublist (waiting.map Prod.fst) := by
  induction waiting with
  | nil => exact .refl _
  | cons entry rest inductionHypothesis =>
    obtain ⟨id, count⟩ := entry
    rw [passLink]
    split
    · split
      · exact .cons id (.refl _)
      · exact .refl _
    · exact inductionHypothesis.cons_cons id

theorem sublist_passLinks (targets : List NodeId) (waiting : Waiting) :
    ((passLinks targets waiting).1.map Prod.fst).Sublist (waiting.map Prod.fst) := by
  induction targets generalizing waiting with
  | nil => exact .refl _
  | cons target rest inductionHypothesis =>
    exact (inductionHypothesis (passLink target waiting).1).trans (sublist_passLink target waiting)

namespace Graph

variable {graph : Graph} {passed queue order : List NodeId} {waiting : Waiting} {id : NodeId}

/-- How many links lead into a node from nodes that are not passed. -/
def unpassed (graph : Graph) (passed : List NodeId) (id : NodeId) : Nat :=
  graph.links.countP fun link => link.target = id ∧ link.origin ∉ passed

theorem unpassed_nil (graph : Graph) (id : NodeId) : graph.unpassed [] id = graph.inDegree id := by
  simp [unpassed, inDegree, linksInto, List.countP_eq_length_filter]

/-- Passing a node passes all links from it to another, however many there are. -/
theorem unpassed_cons_add_count (fresh : id ∉ passed) (other : NodeId) :
    graph.unpassed (id :: passed) other + (graph.consumers id).count other =
      graph.unpassed passed other := by
  simp only [unpassed, consumers, linksFrom]
  induction graph.links with
  | nil => rfl
  | cons link rest inductionHypothesis =>
    by_cases leaves : link.origin = id <;> by_cases enters : link.target = other <;>
      by_cases before : link.origin ∈ passed <;> simp_all <;> omega

theorem unpassed_cons (fresh : id ∉ passed) (other : NodeId) :
    graph.unpassed (id :: passed) other =
      graph.unpassed passed other - (graph.consumers id).count other :=
  Nat.eq_sub_of_add_eq (unpassed_cons_add_count fresh other)

theorem unpassed_eq_zero_iff :
    graph.unpassed passed id = 0 ↔ ∀ producer, graph.Feeds producer id → producer ∈ passed := by
  simp only [unpassed, List.countP_eq_zero, decide_eq_true_eq, not_and, not_not, Feeds]
  constructor
  · rintro none producer ⟨link, isLink, rfl, isTarget⟩
    exact none link isLink isTarget
  · intro all link isLink isTarget
    exact all link.origin ⟨link, isLink, rfl, isTarget⟩

/-! ### Taking nodes from the queue -/

/-- Every node comes after all nodes that feed it, some nodes being passed before the first. -/
def Follows (graph : Graph) : List NodeId → List NodeId → Prop
  | _, [] => True
  | passed, id :: rest =>
    (∀ producer, graph.Feeds producer id → producer ∈ passed) ∧ graph.Follows (id :: passed) rest

/-- What feeds a node of the order is passed or in the order as well. -/
theorem Follows.mem_of_feeds (follows : graph.Follows passed order) (member : id ∈ order)
    {producer : NodeId} (feeds : graph.Feeds producer id) :
    producer ∈ passed ∨ producer ∈ order := by
  induction order generalizing passed with
  | nil => cases member
  | cons first rest inductionHypothesis =>
    obtain ⟨before, later⟩ := follows
    rcases List.mem_cons.1 member with rfl | inRest
    · exact Or.inl (before producer feeds)
    · rcases inductionHypothesis later inRest with isPassed | inOrder
      · rcases List.mem_cons.1 isPassed with rfl | old
        · exact Or.inr List.mem_cons_self
        · exact Or.inl old
      · exact Or.inr (List.mem_cons_of_mem first inOrder)

/-- What holds whenever a node is taken from the queue: the nodes that wait are noted with the
links into them that are not passed, and those in the queue have none. -/
structure Pends (graph : Graph) (passed : List NodeId) (waiting : Waiting) (queue : List NodeId) :
    Prop where
  distinct : (passed ++ (queue ++ waiting.map Prod.fst)).Nodup
  counts : waiting.Counts (graph.unpassed passed)
  free : ∀ id ∈ queue, graph.unpassed passed id = 0

/-- Taking a node from the queue moves nodes from those that wait to the queue. -/
theorem Pends.perm_passLinks (pends : graph.Pends passed waiting queue) (targets : List NodeId)
    (rest : List NodeId) :
    (rest ++ (passLinks targets waiting).2 ++ (passLinks targets waiting).1.map Prod.fst).Perm
      (rest ++ waiting.map Prod.fst) := by
  have distinct := (List.nodup_append.1 (List.nodup_append.1 pends.distinct).2.1).2.1
  rw [List.append_assoc]
  exact (passLinks_spec targets distinct pends.counts).2.1.append_left rest

/-- Taking a node from the queue keeps what holds. -/
theorem Pends.pass (pends : graph.Pends passed waiting (id :: queue)) :
    graph.Pends (id :: passed) (passLinks (graph.consumers id) waiting).1
      (queue ++ (passLinks (graph.consumers id) waiting).2) := by
  have distinct := List.perm_middle.nodup_iff.1 pends.distinct
  have fresh : id ∉ passed := fun member =>
    (List.nodup_cons.1 distinct).1 (List.mem_append_left _ member)
  have distinctWaiting := (List.nodup_append.1 (List.nodup_append.1 pends.distinct).2.1).2.1
  obtain ⟨counts, -, freed⟩ :=
    passLinks_spec (graph.consumers id) distinctWaiting pends.counts
  simp only [← unpassed_cons fresh] at counts freed
  refine ⟨?_, counts, fun other member => ?_⟩
  · rw [List.cons_append, ((pends.perm_passLinks _ queue).append_left passed).cons id |>.nodup_iff]
    exact distinct
  · rcases List.mem_append.1 member with old | isFree
    · rw [unpassed_cons fresh, pends.free other (List.mem_cons_of_mem id old), Nat.zero_sub]
    · exact freed other isFree

/-- Taking nodes from the queue until it is empty lists all nodes; those that were taken come after
what feeds them, and each of the others is fed by one that was not taken. -/
theorem Pends.drain (pends : graph.Pends passed waiting queue) :
    ((graph.drain waiting queue).1 ++ (graph.drain waiting queue).2).Perm
        (queue ++ waiting.map Prod.fst) ∧
      graph.Follows passed (graph.drain waiting queue).1 ∧
      ∀ id ∈ (graph.drain waiting queue).2, ∃ producer, graph.Feeds producer id ∧
        producer ∉ passed ∧ producer ∉ (graph.drain waiting queue).1 := by
  fun_induction Graph.drain graph waiting queue generalizing passed with
  | case1 waiting =>
    refine ⟨.refl _, trivial, fun id member => ?_⟩
    obtain ⟨entry, isEntry, rfl⟩ := List.mem_map.1 member
    obtain ⟨positive, isAmount⟩ := pends.counts entry isEntry
    by_contra none
    have all : ∀ producer, graph.Feeds producer entry.1 → producer ∈ passed :=
      fun producer feeds => by_contra fun absent =>
        none ⟨producer, feeds, absent, List.not_mem_nil⟩
    have zero := unpassed_eq_zero_iff.2 all
    omega
  | case2 waiting id queue taken _ rest =>
    rename_i inductionHypothesis
    obtain ⟨perm, follows, kept⟩ := inductionHypothesis pends.pass
    refine ⟨?_, ⟨unpassed_eq_zero_iff.1 (pends.free id List.mem_cons_self), follows⟩, ?_⟩
    · exact (perm.trans (pends.perm_passLinks (graph.consumers id) queue)).cons id
    · intro other member
      obtain ⟨producer, feeds, unpassed, untaken⟩ := kept other member
      obtain ⟨different, before⟩ := not_or.1 (mt List.mem_cons.2 unpassed)
      exact ⟨producer, feeds, before, mt List.mem_cons.1 (not_or.2 ⟨different, untaken⟩)⟩

/-- The nodes that are never taken stay in the order in which they waited. -/
theorem sublist_drain (graph : Graph) (waiting : Waiting) (queue : List NodeId) :
    (graph.drain waiting queue).2.Sublist (waiting.map Prod.fst) := by
  fun_induction Graph.drain graph waiting queue with
  | case1 waiting => exact .refl _
  | case2 waiting id queue taken _ rest inductionHypothesis =>
    exact inductionHypothesis.trans (sublist_passLinks _ waiting)

/-! ### The evaluation order -/

/-- A node lies on a cycle, or links lead to it from a cycle. -/
def DependsOnCycle (graph : Graph) (id : NodeId) : Prop :=
  ∃ start, Relation.TransGen graph.Feeds start start ∧ graph.Reaches start id

/-- No links lead from a node back to it. -/
def Acyclic (graph : Graph) : Prop := ∀ id, ¬ Relation.TransGen graph.Feeds id id

theorem Acyclic.not_dependsOnCycle (acyclic : graph.Acyclic) (id : NodeId) :
    ¬ graph.DependsOnCycle id := fun ⟨start, cycle, _⟩ => acyclic start cycle

/-- Links that all lead to nodes created later make no cycle. -/
theorem acyclic_of_ascending (ascend : ∀ producer id, graph.Feeds producer id →
    producer.number < id.number) : graph.Acyclic := by
  have leads {producer id : NodeId} (path : Relation.TransGen graph.Feeds producer id) :
      producer.number < id.number := by
    induction path with
    | single feeds => exact ascend _ _ feeds
    | tail _ feeds inductionHypothesis => exact inductionHypothesis.trans (ascend _ _ feeds)
  exact fun id cycle => Nat.lt_irrefl _ (leads cycle)

/-- Links that are known by their ends make no cycle if each leads to a node created later. -/
theorem acyclic_of_links {ends : List (NodeId × NodeId)}
    (listed : graph.links.map (fun link => (link.origin, link.target)) = ends)
    (ascend : ∀ pair ∈ ends, pair.1.number < pair.2.number) : graph.Acyclic :=
  acyclic_of_ascending fun producer id feeds =>
    ascend (producer, id) ((feeds_iff_of_links listed).1 feeds)

/-- The nodes that wait when the sorting starts. -/
theorem map_fst_waiting (graph : Graph) :
    ((graph.nodeIds.map fun id => (id, graph.inDegree id)).filter fun entry =>
      0 < entry.2).map Prod.fst = graph.nodeIds.filter fun id => !(graph.inDegree id = 0) := by
  rw [List.filter_map, List.map_map]
  simp [Function.comp_def, Nat.pos_iff_ne_zero]

/-- The sorting starts with the nodes that no link leads into, and all others wait. -/
theorem Tied.pends (tied : graph.Tied) :
    graph.Pends [] ((graph.nodeIds.map fun id => (id, graph.inDegree id)).filter
      fun entry => 0 < entry.2) (graph.nodeIds.filter fun id => graph.inDegree id = 0) := by
  refine ⟨?_, fun entry member => ?_, fun id member => ?_⟩
  · rw [map_fst_waiting, List.nil_append,
      (List.filter_append_perm (fun id => graph.inDegree id = 0) graph.nodeIds).nodup_iff]
    exact tied.nodup_nodeIds
  · obtain ⟨listed, positive⟩ := List.mem_filter.1 member
    obtain ⟨id, -, rfl⟩ := List.mem_map.1 listed
    exact ⟨of_decide_eq_true positive, (graph.unpassed_nil id).symm⟩
  · rw [unpassed_nil]
    exact of_decide_eq_true (List.mem_filter.1 member).2

/-- The sorting lists all nodes; those that were taken come after what feeds them, and each of the
others is fed by one that was not taken. -/
theorem Tied.sorted_spec (tied : graph.Tied) :
    (graph.sorted.1 ++ graph.sorted.2).Perm graph.nodeIds ∧ graph.Follows [] graph.sorted.1 ∧
      ∀ id ∈ graph.sorted.2, ∃ producer, graph.Feeds producer id ∧ producer ∉ graph.sorted.1 := by
  obtain ⟨all, follows, kept⟩ := tied.pends.drain
  rw [map_fst_waiting] at all
  exact ⟨all.trans (List.filter_append_perm _ _), follows, fun id member =>
    (kept id member).imp fun producer facts => ⟨facts.1, facts.2.2⟩⟩

/-- The nodes that are kept out of the order stay as they are listed in the graph. -/
theorem sublist_sorted (graph : Graph) : graph.sorted.2.Sublist graph.nodeIds := by
  refine (graph.sublist_drain _ _).trans ?_
  rw [map_fst_waiting]
  exact List.filter_sublist

theorem Tied.perm_evaluationOrder (tied : graph.Tied) :
    graph.evaluationOrder.Perm graph.nodeIds := tied.sorted_spec.1

/-- A node that is kept out of the order lies on a cycle or depends on one. -/
theorem Tied.dependsOnCycle (tied : graph.Tied) (isKept : id ∈ graph.sorted.2) :
    graph.DependsOnCycle id := by
  by_contra independent
  -- Going back along links among such nodes never comes to a node twice, so it comes to an end.
  let Kept := { other // other ∈ graph.sorted.2 ∧ ¬ graph.DependsOnCycle other }
  let Before (first second : Kept) : Prop := Relation.TransGen graph.Feeds first.1 second.1
  have finite : Finite Kept :=
    ((List.finite_toSet graph.sorted.2).subset fun _ member => member.1).to_subtype
  have isTrans : IsTrans Kept Before := ⟨fun _ _ _ => Relation.TransGen.trans⟩
  have irreflexive : Std.Irrefl Before :=
    ⟨fun other cycle => other.2.2 ⟨other.1, cycle, .refl⟩⟩
  have none (other : Kept) : False := by
    induction other using (Finite.wellFounded_of_trans_of_irrefl Before).induction with
    | _ other inductionHypothesis =>
      obtain ⟨perm, -, kept⟩ := tied.sorted_spec
      obtain ⟨producer, feeds, untaken⟩ := kept other.1 other.2.1
      have isKeptToo : producer ∈ graph.sorted.2 :=
        (List.mem_append.1 (perm.mem_iff.2 (feeds.mem_nodeIds tied).1)).resolve_left untaken
      have independentToo : ¬ graph.DependsOnCycle producer := fun ⟨start, cycle, reaches⟩ =>
        other.2.2 ⟨start, cycle, reaches.tail feeds⟩
      exact inductionHypothesis ⟨producer, isKeptToo, independentToo⟩ (.single feeds)
  exact none ⟨id, isKept, independent⟩

/-- A node that depends on no cycle comes in the part of the order that links follow. -/
theorem Tied.mem_sorted (tied : graph.Tied) (isNode : id ∈ graph.nodeIds)
    (independent : ¬ graph.DependsOnCycle id) : id ∈ graph.sorted.1 :=
  (List.mem_append.1 (tied.sorted_spec.1.mem_iff.2 isNode)).resolve_right
    fun isKept => independent (tied.dependsOnCycle isKept)

/-- Links follow the whole order unless there are cycles. -/
theorem Tied.follows_evaluationOrder (tied : graph.Tied) (acyclic : graph.Acyclic) :
    graph.Follows [] graph.evaluationOrder := by
  have none : graph.sorted.2 = [] := List.eq_nil_iff_forall_not_mem.2 fun id isKept =>
    acyclic.not_dependsOnCycle id (tied.dependsOnCycle isKept)
  rw [evaluationOrder, none, List.append_nil]
  exact tied.sorted_spec.2.1

end Graph

end Workflow
