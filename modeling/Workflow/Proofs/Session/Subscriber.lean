/-
This file proves that whoever sees all events of a session knows what is in it.

An operation publishes what its graph recorded and then the readiness of all nodes that
the refresh touched. What the graph recorded keeps up the roster of nodes and links,
and takes nodes off the table of readiness; the refresh touches every node whose
readiness is called into question, so the table is right about all nodes in the end.
A document that is read is not told node by node; it clears the table, and the
readiness of every node follows.
-/

import Workflow.Proofs.Graph.Flags
import Workflow.Proofs.Session.Run

namespace Workflow

namespace Graph

variable {graph : Graph}

/-- Readiness is not on the roster. -/
theorem see_of_mem_readinessEvents {ids : List NodeId} {event : Event}
    (member : event ∈ graph.readinessEvents ids) (roster : Roster) : roster.see event = roster := by
  obtain ⟨id, -, isEvent⟩ := List.mem_filterMap.1 member
  obtain ⟨node, -, rfl⟩ := Option.map_eq_some_iff.1 isEvent
  rfl

/-- Every node is touched that the events of a graph call into question. -/
def Answers (graph : Graph) (touched : List NodeId) : Prop :=
  ∀ id ∈ graph.nodeIds, id ∉ touched → Unquestioned graph.events id

theorem answers_nodeIds (graph : Graph) : graph.Answers graph.nodeIds :=
  fun _ isNode untouched => absurd isNode untouched

theorem answers_refreshEach {starts : List NodeId}
    (isStarts : refreshStarts graph.events = some starts) :
    graph.Answers (graph.takeEvents.2.refreshEach starts).1 := by
  obtain ⟨limited, members⟩ := refreshStarts_spec isStarts
  intro id isNode untouched event member
  refine ⟨limited event member, fun asks => untouched ?_⟩
  exact (refreshed_refreshEach graph.takeEvents.2 starts).2 id
    ((members id).2 ⟨event, member, asks⟩) isNode

end Graph

namespace Session

open Workflow.Graph

variable {session next : Session}

/-- A graph is committed as it is if it has recorded nothing. Otherwise it is refreshed where its
events call readiness into question, and what was touched is published after them. -/
theorem commitGraph_cases (session : Session) (graph : Graph) :
    (graph.events = [] ∧ session.commitGraph graph = { session with graph := graph }) ∨
      ∃ touched refreshed, Refreshed graph touched refreshed ∧ graph.Answers touched ∧
        (session.commitGraph graph).graph = refreshed ∧
        (session.commitGraph graph).published =
          session.published ++ (graph.events ++ refreshed.readinessEvents touched) := by
  obtain ⟨empty, same⟩ | ⟨answer, ⟨-, rfl⟩ | ⟨starts, isStarts, rfl⟩, same⟩ :=
    session.commitGraph_ways graph
  · exact Or.inl ⟨empty, same⟩
  · have refreshed := refreshed_refreshAll graph.takeEvents.2
    exact Or.inr ⟨_, _, ⟨refreshed.kept, refreshed.roster⟩, graph.answers_nodeIds,
      congrArg Session.graph same, congrArg Session.published same⟩
  · have refreshed := (refreshed_refreshEach graph.takeEvents.2 starts).1
    exact Or.inr ⟨_, _, ⟨refreshed.kept, refreshed.roster⟩, answers_refreshEach isStarts,
      congrArg Session.graph same, congrArg Session.published same⟩

/-! ### What operations publish -/

/-- An event of the registry tells nothing about the graph. -/
def IsSchemaEvent : Event → Prop
  | .schemaRegistered .. | .schemaRemoved _ => True
  | _ => False

/-- What an operation does to a session and publishes, unless it reads a document. -/
inductive Publishes (session : Session) : Session → Prop
  | quiet (next : Session) (events : List Event) (schema : ∀ event ∈ events, IsSchemaEvent event)
      (published : next.published = session.published ++ events)
      (flags : next.graph.flags = session.graph.flags)
      (roster : next.graph.roster = session.graph.roster) : Publishes session next
  | commit (graph : Graph) (told : Told session.graph graph)
      (reports : Reports session.graph graph) : Publishes session (session.commitGraph graph)

/-- A subscriber who saw all events knows the readiness of the nodes of a session. -/
def TableSeen (session : Session) : Prop :=
  ReadinessTable.of session.published = session.graph.flags

/-- A subscriber who saw all events knows the nodes and links of a session, and never knew of a link
without its ends. -/
def RosterSeen (session : Session) : Prop :=
  Roster.of session.published = session.graph.roster ∧
    Roster.StaysClosed {} session.published

theorem IsSchemaEvent.see {event : Event} (isSchema : IsSchemaEvent event) :
    (∀ table : ReadinessTable, table.see event = table) ∧
      ∀ roster : Roster, roster.see event = roster := by
  cases event with
  | schemaRegistered => exact ⟨fun _ => rfl, fun _ => rfl⟩
  | schemaRemoved => exact ⟨fun _ => rfl, fun _ => rfl⟩
  | _ => exact isSchema.elim

theorem tableSeen_commitGraph (kept : session.Kept) (seen : session.TableSeen) {graph : Graph}
    (told : Told session.graph graph) (reports : Reports session.graph graph) :
    (session.commitGraph graph).TableSeen := by
  obtain ⟨within, right⟩ := told.foldl_see reports kept.tied kept.drained
  rw [TableSeen, ReadinessTable.of] at seen ⊢
  obtain ⟨empty, same⟩ | ⟨touched, refreshed, isRefreshed, answers, isGraph, published⟩ :=
    commitGraph_cases session graph
  · rw [same]
    refine seen.trans (funext fun id => ?_)
    rw [empty] at within right
    by_cases isNode : id ∈ graph.nodeIds
    · exact right id isNode fun event none => absurd none List.not_mem_nil
    · exact (within id isNode).trans (flags_eq_none isNode).symm
  · rw [isGraph, published, List.foldl_append, seen, List.foldl_append]
    funext id
    have nodes : refreshed.nodeIds = graph.nodeIds := congrArg Roster.nodes isRefreshed.roster
    rw [foldl_see_readinessEvents]
    by_cases isNode : id ∈ graph.nodeIds
    · split
      · obtain ⟨node, found⟩ :=
          Option.isSome_iff_exists.1 (isSome_node?_iff.2 (nodes ▸ isNode : id ∈ refreshed.nodeIds))
        rw [flags, found, Option.map_some, Option.some_or]
      · next untouched =>
        rw [right id isNode (answers id isNode untouched),
          flags_congr (isRefreshed.kept id untouched)]
    · have absent : refreshed.flags id = none := flags_eq_none (nodes ▸ isNode)
      rw [absent, Option.none_or, within id isNode, ite_self]

theorem rosterSeen_commitGraph (kept : session.Kept) (seen : session.RosterSeen) {graph : Graph}
    (told : Told session.graph graph) : (session.commitGraph graph).RosterSeen := by
  obtain ⟨isRoster, closed⟩ := seen
  obtain ⟨more, events, -, leads, staysClosed⟩ := told
  rw [kept.drained, List.nil_append] at events
  subst events
  obtain ⟨empty, same⟩ | ⟨touched, refreshed, isRefreshed, -, isGraph, published⟩ :=
    commitGraph_cases session graph
  · rw [empty] at leads
    rw [same]
    exact ⟨isRoster.trans leads, closed⟩
  · have readiness : ∀ event ∈ refreshed.readinessEvents touched,
        ∀ roster : Roster, roster.see event = roster :=
      fun event member => see_of_mem_readinessEvents member
    have closedAfter : graph.roster.Closed := by
      rw [← leads]
      exact staysClosed _ (List.prefix_refl _)
    rw [RosterSeen, isGraph, published, isRefreshed.roster]
    refine ⟨?_, closed.append ?_⟩
    · rw [Roster.of, List.foldl_append, List.foldl_append, ← Roster.of, isRoster, leads,
        foldl_of_unminded readiness]
    · rw [← Roster.of, isRoster]
      refine staysClosed.append ?_
      rw [leads]
      exact Roster.staysClosed_of_unminded readiness closedAfter

namespace Publishes

theorem tableSeen (publishes : Publishes session next) (kept : session.Kept)
    (seen : session.TableSeen) : next.TableSeen := by
  cases publishes with
  | quiet next events schema published flags =>
    rw [TableSeen, ReadinessTable.of] at seen ⊢
    rw [published, List.foldl_append, seen, flags,
      foldl_of_unminded fun event member => (schema event member).see.1]
  | commit graph told reports => exact tableSeen_commitGraph kept seen told reports

theorem rosterSeen (publishes : Publishes session next) (kept : session.Kept)
    (seen : session.RosterSeen) : next.RosterSeen := by
  cases publishes with
  | quiet next events schema published flags roster =>
    obtain ⟨isRoster, closed⟩ := seen
    have unminded : ∀ event ∈ events, ∀ roster : Roster, roster.see event = roster :=
      fun event member => (schema event member).see.2
    rw [RosterSeen, published, roster]
    refine ⟨?_, closed.append (Roster.staysClosed_of_unminded unminded ?_)⟩
    · rw [Roster.of, List.foldl_append, ← Roster.of, isRoster,
        foldl_of_unminded unminded]
    · exact closed _ (List.prefix_refl _)
  | commit graph told => exact rosterSeen_commitGraph kept seen told

end Publishes

/-! ### Operations -/

/-- The operation reads a document. -/
def Operation.IsImport : Operation → Prop
  | .importDocument .. => True
  | _ => False

/-- What is to be committed has recorded what became of nodes and links. -/
theorem Drafts.told {operation : Operation} {graph : Graph}
    (drafts : session.Drafts operation graph) (kept : session.Kept) : Told session.graph graph := by
  have tied := kept.tied
  have tiedAfter : graph.Tied := (drafts.reported kept).1.tied tied
  cases drafts with
  | @createNode reference modelRef model fragment isFound isModel =>
    exact told_createNode tied modelRef model fragment tiedAfter
  | createPrimitive kind value => exact told_createPrimitive tied kind value tiedAfter
  | removeNode success => exact told_removeNode tied tiedAfter success
  | connect success => exact told_connect tied tiedAfter success
  | disconnect success => exact told_disconnect tied success
  | setInput success => exact told_setInput tied tiedAfter success
  | setPrimitive success => exact told_setPrimitive tied tiedAfter success
  | setPosition success => exact told_setPosition tied tiedAfter success
  | addKey success => exact told_addKey tied tiedAfter success
  | removeKey success => exact told_removeKey tied tiedAfter success
  | renameKey success => exact told_renameKey tied tiedAfter success

/-- Every operation that does not read a document publishes what it does. -/
theorem publishes_perform (kept : session.Kept) (operation : Operation)
    (noImport : ¬ operation.IsImport) : Publishes session (session.perform operation) := by
  have performs := session.performs operation
  generalize session.perform operation = next at performs ⊢
  cases performs with
  | nothing =>
    exact .quiet _ [] (fun _ none => absurd none List.not_mem_nil) (List.append_nil _).symm rfl rfl
  | draft drafts => exact .commit _ (drafts.told kept) (drafts.reported kept).2
  | registerSchema name source =>
    refine .quiet _ [.schemaRegistered name (Schema.parse source).models.entries.length] ?_ rfl rfl
      rfl
    exact List.forall_mem_singleton.2 trivial
  | removeSchema name =>
    exact .quiet _ [.schemaRemoved name] (List.forall_mem_singleton.2 trivial) rfl rfl rfl
  | setPreviewOnly success =>
    obtain ⟨-, rfl⟩ := setPreviewOnly_cases success
    refine .quiet _ [] (fun _ none => absurd none List.not_mem_nil) (List.append_nil _).symm
      (flags_modifyNode ?_ ?_) (roster_modifyNode ?_)
    all_goals exact fun _ => rfl
  | importDocument => exact absurd trivial noImport
  | reseed seed =>
    exact .quiet _ [] (fun _ none => absurd none List.not_mem_nil) (List.append_nil _).symm rfl rfl

/-- Reading a document clears the table, and then the readiness of every node is published. -/
theorem tableSeen_importDocument (session : Session) (document : Document)
    (options : ImportOptions) : (session.importDocument document options).2.TableSeen := by
  let imported := (session.graph.importDocument session.registry document options).2
  have isRefreshed := refreshed_refreshAll imported.takeEvents.2
  have nodes : imported.takeEvents.2.refreshAll.2.nodeIds = imported.takeEvents.2.nodeIds :=
    congrArg Roster.nodes isRefreshed.roster
  rw [TableSeen, ReadinessTable.of]
  show (session.published ++ (_ :: _ :: imported.takeEvents.2.refreshAll.2.readinessEvents _)).foldl
    ReadinessTable.see _ = imported.takeEvents.2.refreshAll.2.flags
  rw [List.foldl_append, List.foldl_cons, List.foldl_cons]
  funext id
  rw [foldl_see_readinessEvents]
  split
  · exact Option.or_none
  · next untouched => exact (flags_eq_none (nodes ▸ untouched)).symm

theorem tableSeen_perform (kept : session.Kept) (seen : session.TableSeen) (operation : Operation) :
    (session.perform operation).TableSeen := by
  by_cases isImport : operation.IsImport
  · cases operation with
    | importDocument document options => exact tableSeen_importDocument session document options
    | _ => exact isImport.elim
  · exact (publishes_perform kept operation isImport).tableSeen kept seen

theorem tableSeen_run (resolution : Resolution) (operations : List Operation) :
    (run resolution operations).TableSeen := by
  refine (List.foldlRecOn operations perform
    (motive := fun session => session.Kept ∧ session.TableSeen)
    ⟨kept_start resolution, rfl⟩ fun session both operation _ => ?_).2
  exact ⟨(step_perform both.1 operation).kept both.1, tableSeen_perform both.1 both.2 operation⟩

theorem rosterSeen_run (resolution : Resolution) {operations : List Operation}
    (noImport : ∀ operation ∈ operations, ¬ operation.IsImport) :
    (run resolution operations).RosterSeen := by
  have start : RosterSeen { registry := { resolution := resolution } } :=
    ⟨rfl, Roster.staysClosed_nil fun _ _ _ none => absurd none List.not_mem_nil⟩
  refine (List.foldlRecOn operations perform
    (motive := fun session => session.Kept ∧ session.RosterSeen)
    ⟨kept_start resolution, start⟩ fun session both operation member => ?_).2
  have publishes := publishes_perform both.1 operation (noImport operation member)
  exact ⟨(step_perform both.1 operation).kept both.1, publishes.rosterSeen both.1 both.2⟩

/-- Whatever was done to a session, no event waits in its graph, and the table of readiness of a
subscriber from the start holds all nodes of the graph, each as it is marked there, and nothing
else. Unless documents were read, the subscriber also knows the nodes and the links with what they
join, and has never known of a link without knowing of the nodes it joins. -/
theorem subscriber_run (resolution : Resolution) (operations : List Operation) :
    let session := run resolution operations
    let stream := session.eventsSince 0
    session.graph.events = [] ∧
    (∀ id, ReadinessTable.of stream id = (session.graph.node? id).map fun node =>
      (node.readiness.complete, node.readiness.chainComplete)) ∧
    ((∀ operation ∈ operations, ¬ operation.IsImport) →
      (Roster.of stream).nodes = session.graph.nodes.map Node.id ∧
      (Roster.of stream).links =
        session.graph.links.map (fun link => (link.id, link.origin, link.target)) ∧
      ∀ seen, seen <+: stream → ∀ link origin target,
        (link, origin, target) ∈ (Roster.of seen).links →
          origin ∈ (Roster.of seen).nodes ∧ target ∈ (Roster.of seen).nodes) := by
  intro session stream
  refine ⟨(kept_run resolution operations).drained, fun id => ?_, fun noImport => ?_⟩
  · exact congrFun (tableSeen_run resolution operations) id
  · obtain ⟨isRoster, closed⟩ := rosterSeen_run resolution noImport
    exact ⟨congrArg Roster.nodes isRoster, congrArg Roster.links isRoster, closed⟩

end Session

end Workflow
