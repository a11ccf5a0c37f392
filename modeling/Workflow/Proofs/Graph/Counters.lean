/-
This file proves that no counter falls below zero while the nodes are put in order.

Sorting notes for nodes that wait how many links into them are not passed, and forgets
nodes that are free. Here every node keeps a counter to the end, free nodes as well, and
counting down a counter that is zero already leaves no answer. Both answer the same: the
counter of a node is always the number of links into it from nodes that were not taken,
so whatever links run side by side, there is still something left to count down whenever
one of them is passed.
-/

import Workflow.Proofs.Graph.Order

namespace Workflow

/-- Nodes with their counters. -/
abbrev Counters := List (NodeId × Nat)

/-- Takes one from the counter of a node; the answer tells whether that leaves zero. There is no
answer if the counter is zero already. -/
def countDown (target : NodeId) : Counters → Option (Counters × Bool)
  | [] => some ([], false)
  | (id, count) :: rest =>
    if id = target then
      if count = 0 then none else some ((id, count - 1) :: rest, count = 1)
    else (countDown target rest).map fun next => ((id, count) :: next.1, next.2)

/-- Counts down for targets one after the other; the answer lists those whose counters became
zero. -/
def countDownAll : List NodeId → Counters → Option (Counters × List NodeId)
  | [], counters => some (counters, [])
  | target :: rest, counters => do
    let counted ← countDown target counters
    let others ← countDownAll rest counted.1
    some (others.1, if counted.2 then target :: others.2 else others.2)

/-- The counters that are not zero. -/
def Counters.waiting (counters : Counters) : Waiting := counters.filter fun entry => 0 < entry.2

theorem Counters.waiting_cons (id : NodeId) (count : Nat) (rest : Counters) :
    waiting ((id, count) :: rest) =
      if 0 < count then (id, count) :: rest.waiting else rest.waiting := by
  rw [waiting, List.filter_cons]
  simp only [decide_eq_true_eq]
  rfl

/-- Counting down to zero takes a counter from those that are not zero. -/
theorem length_countDown {target : NodeId} {counters : Counters} {next : Counters × Bool}
    (counted : countDown target counters = some next) :
    next.1.waiting.length + (if next.2 then 1 else 0) = counters.waiting.length := by
  induction counters generalizing next with
  | nil =>
    cases counted
    rfl
  | cons entry rest inductionHypothesis =>
    obtain ⟨id, count⟩ := entry
    rw [countDown] at counted
    split at counted
    · split at counted
      · cases counted
      · next several =>
        cases counted
        simp only [Counters.waiting_cons, if_pos (Nat.pos_of_ne_zero several), List.length_cons]
        by_cases last : count = 1
        · simp [last]
        · have more : 0 < count - 1 := by omega
          simp [last, more]
    · obtain ⟨later, isLater, rfl⟩ := Option.map_eq_some_iff.1 counted
      have lengths := inductionHypothesis isLater
      simp only [Counters.waiting_cons]
      split
      · simp only [List.length_cons]
        omega
      · exact lengths

theorem length_countDownAll {targets : List NodeId} {counters : Counters}
    {next : Counters × List NodeId} (counted : countDownAll targets counters = some next) :
    next.1.waiting.length + next.2.length = counters.waiting.length := by
  induction targets generalizing counters next with
  | nil =>
    cases counted
    rfl
  | cons target rest inductionHypothesis =>
    obtain ⟨one, isOne, several⟩ := Option.bind_eq_some_iff.1 counted
    obtain ⟨others, areOthers, isNext⟩ := Option.bind_eq_some_iff.1 several
    cases isNext
    have lengthOne := length_countDown isOne
    have lengthOthers := inductionHypothesis areOthers
    show others.1.waiting.length + (if one.2 then target :: others.2 else others.2).length = _
    split
    · next freed =>
      rw [if_pos freed] at lengthOne
      rw [List.length_cons]
      omega
    · next kept =>
      rw [if_neg kept] at lengthOne
      omega

namespace Graph

/-- Takes free nodes from a queue until it is empty, counting down for the targets of their links;
the answer lists the nodes taken. -/
def drainCounted (graph : Graph) (counters : Counters) : List NodeId → Option (List NodeId)
  | [] => some []
  | id :: queue =>
    match counted : countDownAll (graph.consumers id) counters with
    | none => none
    | some next =>
      have := length_countDownAll counted
      (drainCounted graph next.1 (queue ++ next.2)).map (id :: ·)
termination_by queue => counters.waiting.length + queue.length
decreasing_by simp only [List.length_append, List.length_cons]; omega

/-- The nodes that become free, in order, and the nodes that do not, if no counter falls below
zero. -/
def countedSort (graph : Graph) : Option (List NodeId × List NodeId) :=
  let counters := graph.nodeIds.map fun id => (id, graph.inDegree id)
  let queue := graph.nodeIds.filter fun id => graph.inDegree id = 0
  (graph.drainCounted counters queue).map fun order =>
    (order, graph.nodeIds.filter fun id => id ∉ order)

end Graph

/-! ### Counting down -/

/-- The counters of nodes for given amounts. -/
def tally (ids : List NodeId) (amount : NodeId → Nat) : Counters :=
  ids.map fun id => (id, amount id)

variable {ids : List NodeId} {amount : NodeId → Nat}

theorem tally_cons (id : NodeId) (rest : List NodeId) (amount : NodeId → Nat) :
    tally (id :: rest) amount = (id, amount id) :: tally rest amount := rfl

/-- A counter that is not zero is counted down just as a node that waits is passed. -/
theorem countDown_tally (target : NodeId) (distinct : ids.Nodup)
    (enough : target ∈ ids → 0 < amount target) :
    let left := tally ids fun id => amount id - if target = id then 1 else 0
    ∃ freed, countDown target (tally ids amount) = some (left, freed) ∧
      passLink target (tally ids amount).waiting = (left.waiting, freed) := by
  induction ids with
  | nil => exact ⟨false, rfl, rfl⟩
  | cons id rest inductionHypothesis =>
    obtain ⟨fresh, distinctRest⟩ := List.nodup_cons.1 distinct
    simp only [tally_cons]
    by_cases same : id = target
    · subst same
      have positive := enough List.mem_cons_self
      have others : tally rest (fun other => amount other - if id = other then 1 else 0) =
          tally rest amount := by
        refine List.map_congr_left fun other isOther => ?_
        have different : id ≠ other := fun isId => fresh (isId ▸ isOther)
        simp only [if_neg different, Nat.sub_zero]
      rw [others, if_pos rfl]
      refine ⟨amount id = 1, ?_, ?_⟩
      · rw [countDown, if_pos rfl, if_neg positive.ne']
      · simp only [Counters.waiting_cons, if_pos positive, passLink]
        by_cases last : amount id = 1
        · simp [last]
        · have more : 1 < amount id := by omega
          simp [last, Nat.not_le.2 more, Nat.sub_pos_of_lt more]
    · obtain ⟨freed, counted, passed⟩ := inductionHypothesis distinctRest fun member =>
        enough (List.mem_cons_of_mem id member)
      rw [if_neg (Ne.symm same), Nat.sub_zero]
      refine ⟨freed, ?_, ?_⟩
      · rw [countDown, if_neg same, counted]
        rfl
      · simp only [Counters.waiting_cons]
        split
        · rw [passLink, if_neg same, passed]
        · exact passed

/-- Where no counter is counted down more often than it allows, this goes as the links are
passed. -/
theorem countDownAll_tally (targets : List NodeId) (distinct : ids.Nodup)
    (enough : ∀ id ∈ ids, targets.count id ≤ amount id) :
    let left := tally ids fun id => amount id - targets.count id
    ∃ freed, countDownAll targets (tally ids amount) = some (left, freed) ∧
      passLinks targets (tally ids amount).waiting = (left.waiting, freed) := by
  induction targets generalizing amount with
  | nil => exact ⟨[], rfl, rfl⟩
  | cons target rest inductionHypothesis =>
    have counted (id : NodeId) : amount id - (if target = id then 1 else 0) - rest.count id =
        amount id - (target :: rest).count id := by
      simp only [List.count_cons, beq_iff_eq]
      omega
    obtain ⟨free, countedOne, passedOne⟩ := countDown_tally target distinct fun member => by
      have most := enough target member
      rw [List.count_cons_self] at most
      exact Nat.lt_of_lt_of_le (Nat.succ_pos _) most
    have enoughRest : ∀ id ∈ ids, rest.count id ≤ amount id - if target = id then 1 else 0 := by
      intro id member
      have most := enough id member
      simp only [List.count_cons, beq_iff_eq] at most
      omega
    obtain ⟨freed, countedRest, passedRest⟩ := inductionHypothesis enoughRest
    simp only [counted] at countedRest passedRest
    refine ⟨if free then target :: freed else freed, ?_, ?_⟩
    · rw [countDownAll, countedOne, Option.bind_eq_bind, Option.bind_some, countedRest]
      rfl
    · rw [passLinks, passedOne, passedRest]

namespace Graph

variable {graph : Graph} {passed queue : List NodeId}

/-! ### The order with counters -/

/-- Taking nodes from the queue never counts a counter down that is zero, and takes the same nodes
as the sorting without these counters. -/
theorem Pends.drainCounted
    (pends : graph.Pends passed (tally graph.nodeIds (graph.unpassed passed)).waiting queue)
    (tied : graph.Tied) :
    graph.drainCounted (tally graph.nodeIds (graph.unpassed passed)) queue =
      some (graph.drain (tally graph.nodeIds (graph.unpassed passed)).waiting queue).1 := by
  generalize isWaiting : (tally graph.nodeIds (graph.unpassed passed)).waiting = waiting at pends ⊢
  fun_induction Graph.drain graph waiting queue generalizing passed with
  | case1 => rw [Graph.drainCounted]
  | case2 waiting id queue taken _ rest =>
    rename_i inductionHypothesis
    subst isWaiting
    have fresh : id ∉ passed := fun member =>
      (List.nodup_cons.1 (List.perm_middle.nodup_iff.1 pends.distinct)).1
        (List.mem_append_left _ member)
    obtain ⟨freed, counted, isTaken⟩ := countDownAll_tally (graph.consumers id) tied.nodup_nodeIds
      fun other _ => (unpassed_cons_add_count fresh other).symm ▸ Nat.le_add_left _ _
    simp only [← unpassed_cons fresh] at counted isTaken
    have later := inductionHypothesis (congrArg Prod.fst isTaken).symm pends.pass
    rw [← show taken.2 = freed from congrArg Prod.snd isTaken] at counted
    rw [Graph.drainCounted]
    split
    · next isNone => cases counted.symm.trans isNone
    · next next isSome =>
      cases counted.symm.trans isSome
      rw [later]
      rfl

/-- The nodes that are kept out of the order are those that were not taken. -/
theorem Tied.filter_notMem_sorted (tied : graph.Tied) :
    (graph.nodeIds.filter fun id => id ∉ graph.sorted.1) = graph.sorted.2 := by
  obtain ⟨perm, -, -⟩ := tied.sorted_spec
  obtain ⟨-, -, apart⟩ := List.nodup_append.1 (perm.nodup_iff.2 tied.nodup_nodeIds)
  have noneTaken : (graph.sorted.1.filter fun id => id ∉ graph.sorted.1) = [] :=
    List.filter_eq_nil_iff.2 fun id isTaken => by simpa using isTaken
  have allKept : (graph.sorted.2.filter fun id => id ∉ graph.sorted.1) = graph.sorted.2 :=
    List.filter_eq_self.2 fun id isKept =>
      decide_eq_true fun isTaken => apart id isTaken id isKept rfl
  have sublist := (sublist_sorted graph).filter fun id => id ∉ graph.sorted.1
  have permFiltered := perm.filter fun id => id ∉ graph.sorted.1
  rw [List.filter_append, noneTaken, List.nil_append] at permFiltered
  exact (sublist.eq_of_length permFiltered.length_eq).symm.trans allKept

/-- Sorting never counts a counter down that is zero. -/
theorem Tied.countedSort_eq (tied : graph.Tied) : graph.countedSort = some graph.sorted := by
  have atStart : graph.inDegree = graph.unpassed [] := funext fun id => (graph.unpassed_nil id).symm
  have pends : graph.Pends [] (tally graph.nodeIds (graph.unpassed [])).waiting
      (graph.nodeIds.filter fun id => graph.inDegree id = 0) := atStart ▸ tied.pends
  have drained := pends.drainCounted tied
  rw [← atStart] at drained
  show (graph.drainCounted (tally graph.nodeIds graph.inDegree) _).map _ = _
  rw [drained]
  show some (graph.sorted.1, graph.nodeIds.filter fun id => id ∉ graph.sorted.1) = _
  rw [tied.filter_notMem_sorted]

end Graph

end Workflow
