/-
This file proves that the events of an operation and of the refresh after it tell what
the readiness of every node is.

A table of readiness knows for every node whether it and its chain are complete. The
events of an operation only take nodes off the table. What else they change they call
into question, and whatever is called into question is touched by the refresh, which
reports what it touches and leaves everything else as it is.
-/

import Mathlib.Logic.Function.Basic
import Workflow.Proofs.Graph.Report
import Workflow.Proofs.Graph.Roster

namespace Workflow

/-- For every node that is known, whether it is complete and whether its chain is. -/
abbrev ReadinessTable := NodeId → Option (Bool × Bool)

namespace ReadinessTable

/-- The table after an event. -/
def see (table : ReadinessTable) : Event → ReadinessTable
  | .readinessChanged id complete chainComplete =>
    Function.update table id (some (complete, chainComplete))
  | .nodeRemoved id => Function.update table id none
  | .graphCleared => fun _ => none
  | _ => table

/-- The table of someone who saw events from the start. -/
def of (events : List Event) : ReadinessTable := events.foldl see fun _ => none

/-- Only nodes on a roster are in the table. -/
def Within (table : ReadinessTable) (roster : Roster) : Prop :=
  ∀ id ∉ roster.nodes, table id = none

theorem see_of_limited {event : Event} (isChange : event.IsChange)
    (limited : event.refreshScope ≠ .everything) (table : ReadinessTable) :
    table.see event = table := by
  cases event with
  | nodeRemoved => exact absurd rfl limited
  | graphCleared => exact absurd rfl limited
  | readinessChanged => exact isChange.elim
  | _ => rfl

/-- Events that do not call everything into question leave the table as it is. -/
theorem foldl_see_of_limited {events : List Event} (changes : ∀ event ∈ events, event.IsChange)
    (limited : ∀ event ∈ events, event.refreshScope ≠ .everything) (table : ReadinessTable) :
    events.foldl see table = table :=
  foldl_of_unminded
    (fun event member => see_of_limited (changes event member) (limited event member)) table

theorem Within.see {table : ReadinessTable} {roster : Roster} (within : table.Within roster)
    {event : Event} (isChange : event.IsChange) :
    Within (table.see event) (roster.see event) := by
  cases event with
  | nodeCreated id =>
    exact fun other absent => within other fun old => absent (List.mem_append_left _ old)
  | nodeRemoved id =>
    intro other absent
    by_cases same : other = id
    · rw [same]
      exact Function.update_self ..
    · exact (Function.update_of_ne same ..).trans (within other fun old =>
        absent (List.mem_filter.2 ⟨old, decide_eq_true same⟩))
  | graphCleared => exact fun _ _ => rfl
  | readinessChanged => exact isChange.elim
  | _ => exact within

/-- Events that tell of changes take the nodes off the table that they take off the roster. -/
theorem Within.foldl_see {table : ReadinessTable} {roster : Roster} (within : table.Within roster)
    {events : List Event} (changes : ∀ event ∈ events, event.IsChange) :
    Within (events.foldl ReadinessTable.see table) (events.foldl Roster.see roster) := by
  induction events generalizing table roster with
  | nil => exact within
  | cons event rest inductionHypothesis =>
    obtain ⟨isChange, others⟩ := List.forall_mem_cons.1 changes
    exact inductionHypothesis (within.see isChange) others

end ReadinessTable

namespace Graph

/-- The readiness of the nodes of a graph. -/
def flags (graph : Graph) : ReadinessTable := fun id =>
  (graph.node? id).map fun node => (node.readiness.complete, node.readiness.chainComplete)

variable {graph before after : Graph} {id : NodeId}

theorem flags_eq_none (absent : id ∉ graph.nodeIds) : graph.flags id = none := by
  rw [flags, Option.not_isSome_iff_eq_none.1 (mt isSome_node?_iff.1 absent), Option.map_none]

theorem within_flags (graph : Graph) : graph.flags.Within graph.roster :=
  fun _ absent => flags_eq_none absent

theorem flags_congr (same : after.node? id = before.node? id) :
    after.flags id = before.flags id := by
  rw [flags, flags, same]

/-- Changes that leave readiness alone are not in the table. -/
theorem flags_modifyNode {change : Node → Node} (keeps : ∀ node, (change node).id = node.id)
    (readiness : ∀ node, (change node).readiness = node.readiness) :
    (graph.modifyNode id change).flags = graph.flags := by
  funext other
  rw [flags, flags, node?_modifyNode graph id other change keeps, Option.map_map]
  refine congrArg (Option.map · (graph.node? other)) (funext fun node => ?_)
  rw [Function.comp_apply]
  split
  · rw [readiness]
  · rfl

/-- The events about nodes put their readiness in the table. -/
theorem foldl_see_readinessEvents (graph : Graph) (ids : List NodeId) (table : ReadinessTable)
    (id : NodeId) :
    (graph.readinessEvents ids).foldl ReadinessTable.see table id =
      if id ∈ ids then (graph.flags id).or (table id) else table id := by
  induction ids generalizing table with
  | nil => rfl
  | cons first rest inductionHypothesis =>
    rw [readinessEvents, List.filterMap_cons]
    cases found : graph.node? first with
    | none =>
      have unknown : graph.flags first = none := by rw [flags, found, Option.map_none]
      refine (inductionHypothesis table).trans ?_
      by_cases same : id = first
      · simp [same, unknown]
      · simp [same]
    | some node =>
      refine (inductionHypothesis _).trans ?_
      by_cases same : id = first
      · simp [same, flags, found, ReadinessTable.see]
      · simp [same, ReadinessTable.see]

/-- No event calls the readiness of a node into question. -/
def Unquestioned (events : List Event) (id : NodeId) : Prop :=
  ∀ event ∈ events, event.refreshScope ≠ .everything ∧ event.refreshScope ≠ .downstreamOf id

/-- After the events of an operation only nodes are in the table, and it is right about those whose
readiness is not called into question. -/
theorem Told.foldl_see (told : Told before after) (reports : Reports before after)
    (tied : before.Tied) (drained : before.events = []) :
    (after.events.foldl ReadinessTable.see before.flags).Within after.roster ∧
      ∀ id ∈ after.nodeIds, Unquestioned after.events id →
        after.events.foldl ReadinessTable.see before.flags id = after.flags id := by
  obtain ⟨more, events, changes, leads, -⟩ := told
  rw [drained, List.nil_append] at events
  subst events
  refine ⟨leads ▸ before.within_flags.foldl_see changes, fun id isNode unquestioned => ?_⟩
  obtain ⟨_, events, agree⟩ := reports
  rw [drained, List.nil_append] at events
  subst events
  have limited : ∀ event ∈ after.events, event.refreshScope ≠ .everything :=
    fun event member => (unquestioned event member).1
  rw [ReadinessTable.foldl_see_of_limited changes limited]
  obtain ⟨node, found⟩ := Option.isSome_iff_exists.1 (isSome_node?_iff.2 isNode)
  obtain ⟨inNodes, rfl⟩ := mem_of_node? found
  obtain ⟨old, isOld, same, readiness, -⟩ := (agree limited).nodes node inNodes
    fun ⟨event, member, asked⟩ => (unquestioned event member).2 asked
  rw [flags, flags, found, same, node?_of_mem tied.nodesAscend isOld, Option.map_some,
    Option.map_some, readiness]

/-! ### What a refresh leaves as it is -/

/-- A refresh leaves the nodes as they are that it does not touch, and adds or takes away
nothing. -/
structure Refreshed (graph : Graph) (touched : List NodeId) (after : Graph) : Prop where
  kept : ∀ id ∉ touched, after.node? id = graph.node? id
  roster : after.roster = graph.roster

theorem refreshed_marks (graph : Graph) {marked asked : List NodeId} (within : marked ⊆ asked) :
    Refreshed graph asked ((graph.refreshComplete marked).refreshChains asked) := by
  have keepsOne (node : Node) :
      (if marked.contains node.id then node.remarked else node).id = node.id := by split <;> rfl
  have keepsOther := Node.id_rechained ((graph.refreshComplete marked).chainAnswers [] asked)
  refine ⟨fun id untouched => ?_, congrArg (Roster.mk · _) ?_⟩
  · rw [refreshChains_eq, node?_mapNodes _ _ keepsOther, refreshComplete_eq,
      node?_mapNodes _ _ keepsOne, ← refreshComplete_eq, Option.map_map]
    cases found : graph.node? id with
    | none => rfl
    | some node =>
      have same := (mem_of_node? found).2
      have unmarked : ¬ marked.contains node.id := fun contains =>
        untouched (same ▸ within (List.contains_iff_mem.1 contains))
      rw [Option.map_some, Function.comp_apply, if_neg unmarked,
        rechained_of_notMem (same ▸ untouched)]
  · exact (nodeIds_mapNodes _ _ keepsOther).trans (nodeIds_mapNodes _ _ keepsOne)

theorem refreshed_refreshAll (graph : Graph) :
    Refreshed graph graph.refreshAll.1 graph.refreshAll.2 :=
  refreshed_marks graph (List.Subset.refl _)

theorem mem_downstreamClosure_self (graph : Graph) (start : NodeId) :
    start ∈ graph.downstreamClosure start := mem_visit_of_mem (List.mem_singleton.2 rfl)

theorem refreshed_refreshFrom (graph : Graph) (start : NodeId) :
    Refreshed graph (graph.refreshFrom start).1 (graph.refreshFrom start).2 ∧
      (start ∈ graph.nodeIds → start ∈ (graph.refreshFrom start).1) := by
  rw [refreshFrom]
  split
  · refine ⟨refreshed_marks graph ?_, fun _ => mem_downstreamClosure_self graph start⟩
    exact List.cons_subset.2 ⟨mem_downstreamClosure_self graph start, List.nil_subset _⟩
  · next absent =>
    exact ⟨⟨fun _ _ => rfl, rfl⟩, fun isNode => absurd (isSome_node?_iff.2 isNode) absent⟩

/-- Refreshing from nodes one after the other touches each of them. -/
theorem refreshed_refreshEach (graph : Graph) (starts : List NodeId) :
    Refreshed graph (graph.refreshEach starts).1 (graph.refreshEach starts).2 ∧
      ∀ start ∈ starts, start ∈ graph.nodeIds → start ∈ (graph.refreshEach starts).1 := by
  suffices each : ∀ touched : List NodeId,
      let answer := starts.foldl
        (fun (answer : List NodeId × Graph) start =>
          (answer.1 ++ (answer.2.refreshFrom start).1.filter fun id => !answer.1.contains id,
            (answer.2.refreshFrom start).2)) (touched, graph)
      touched ⊆ answer.1 ∧ Refreshed graph answer.1 answer.2 ∧
        ∀ start ∈ starts, start ∈ graph.nodeIds → start ∈ answer.1 from (each []).2
  induction starts generalizing graph with
  | nil => exact fun touched => ⟨List.Subset.refl _, ⟨fun _ _ => rfl, rfl⟩,
      fun _ none => absurd none List.not_mem_nil⟩
  | cons first rest inductionHypothesis =>
    intro touched
    obtain ⟨refreshed, touchesFirst⟩ := refreshed_refreshFrom graph first
    have nodes : (graph.refreshFrom first).2.nodeIds = graph.nodeIds :=
      congrArg Roster.nodes refreshed.roster
    have listed : ∀ id ∈ (graph.refreshFrom first).1,
        id ∈ touched ++ (graph.refreshFrom first).1.filter fun id => !touched.contains id := by
      intro id member
      by_cases before : id ∈ touched
      · exact List.mem_append_left _ before
      · exact List.mem_append_right _ (List.mem_filter.2 ⟨member, by simpa using before⟩)
    obtain ⟨grows, others, touches⟩ := inductionHypothesis (graph.refreshFrom first).2
      (touched ++ (graph.refreshFrom first).1.filter fun id => !touched.contains id)
    refine ⟨List.Subset.trans (List.subset_append_left ..) grows, ⟨fun id untouched => ?_, ?_⟩, ?_⟩
    · exact (others.kept id untouched).trans (refreshed.kept id fun member =>
        untouched (grows (listed id member)))
    · exact others.roster.trans refreshed.roster
    · intro start member isNode
      rcases List.mem_cons.1 member with rfl | later
      · exact grows (listed start (touchesFirst isNode))
      · exact touches start later (nodes ▸ isNode)

end Graph

end Workflow
