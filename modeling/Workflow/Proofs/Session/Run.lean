/-
This file runs sequences of operations on an empty session.

Whatever an operation of a session does, it does one of three things: it leaves the
graph as it is, it commits an edited graph whose events report what became of it, or
it puts an edited graph in place whose readiness is up to date already. Each of them
leaves a graph that is tied and current, without pending events.
-/

import Workflow.Proofs.Graph.Report
import Workflow.Proofs.Registry

namespace Workflow

/-! ### Starts -/

theorem refreshStarts_concat (events : List Event) (event : Event) :
    refreshStarts (events ++ [event]) =
      match event.refreshScope with
      | .everything => none
      | .nothing => refreshStarts events
      | .downstreamOf id => (refreshStarts events).map fun ids =>
        if ids.contains id then ids else ids ++ [id] := List.foldl_concat ..

/-- The starts are the nodes that events ask for, if none calls everything into question. -/
theorem refreshStarts_spec {events : List Event} {starts : List NodeId}
    (isStarts : refreshStarts events = some starts) :
    (∀ event ∈ events, event.refreshScope ≠ .everything) ∧
      ∀ id, id ∈ starts ↔ ∃ event ∈ events, event.refreshScope = .downstreamOf id := by
  induction events using List.reverseRecOn generalizing starts with
  | nil =>
    cases isStarts
    exact ⟨fun event member => absurd member List.not_mem_nil, fun id => by simp⟩
  | append_singleton events event inductionHypothesis =>
    rw [refreshStarts_concat] at isStarts
    split at isStarts
    · cases isStarts
    · next nothing =>
      obtain ⟨limited, members⟩ := inductionHypothesis isStarts
      refine ⟨fun other member => ?_, fun id => ?_⟩
      · rcases List.mem_append.1 member with old | last
        · exact limited other old
        · rw [List.mem_singleton.1 last, nothing]
          exact nofun
      · simp [members id, or_and_right, exists_or, nothing]
    · next start downstream =>
      obtain ⟨others, isOthers, rfl⟩ := Option.map_eq_some_iff.1 isStarts
      obtain ⟨limited, members⟩ := inductionHypothesis isOthers
      have added (id : NodeId) :
          id ∈ (if others.contains start then others else others ++ [start]) ↔
            id ∈ others ∨ id = start := by
        split
        · next listed =>
          refine ⟨Or.inl, fun either => either.elim (fun old => old) ?_⟩
          rintro rfl
          exact List.contains_iff_mem.1 listed
        · rw [List.mem_append, List.mem_singleton]
      refine ⟨fun other member => ?_, fun id => ?_⟩
      · rcases List.mem_append.1 member with old | last
        · exact limited other old
        · rw [List.mem_singleton.1 last, downstream]
          exact nofun
      · rw [added, members id]
        simp [or_and_right, exists_or, downstream, eq_comm]

namespace Graph

theorem events_refreshFrom (graph : Graph) (start : NodeId) :
    (graph.refreshFrom start).2.events = graph.events := by
  rw [refreshFrom]
  split <;> rfl

theorem events_refreshEach (graph : Graph) (starts : List NodeId) :
    (graph.refreshEach starts).2.events = graph.events :=
  refreshEach_induction (motive := fun other => other.events = graph.events)
    (fun other start same => (events_refreshFrom other start).trans same) rfl starts

theorem edits_refreshEach {made : Blueprint → Prop} {retags : Prop} (graph : Graph)
    (starts : List NodeId) : Edits made retags graph (graph.refreshEach starts).2 :=
  refreshEach_induction (fun other start edits => edits.trans (edits_refreshFrom other start)) .refl
    starts

end Graph

/-- The blueprints that nodes can be made from with a registry. -/
def Registry.Makes (registry : Registry) (blueprint : Blueprint) : Prop :=
  (∃ modelRef model, '.' ∈ modelRef.toList ∧ registry.model? modelRef = some model ∧
    blueprint = .ofModel modelRef model) ∨ ∃ kind, blueprint = .ofKind kind

theorem Registry.Makes.sound {registry : Registry} (isRead : registry.IsRead)
    {blueprint : Blueprint} (makes : registry.Makes blueprint) : blueprint.Sound := by
  obtain ⟨modelRef, model, -, isModel, rfl⟩ | ⟨kind, rfl⟩ := makes
  · exact (isRead.isDeclared isModel).sound modelRef
  · exact Blueprint.sound_ofKind kind

namespace Session

open Workflow.Graph

/-! ### What a session keeps -/

/-- A session between operations. -/
structure Kept (session : Session) : Prop where
  tied : session.graph.Tied
  drained : session.graph.events = []
  current : session.graph.Current
  registry : session.registry.IsRead

/-- What an operation may do to a session. -/
inductive Step (session : Session) : Session → Prop
  | keep (registry : Registry) (isRead : session.registry.IsRead → registry.IsRead)
      (published : List Event) :
      Step session { session with registry := registry, published := published }
  | commit (graph : Graph) (edits : Edits session.registry.Makes False session.graph graph)
      (reports : Reports session.graph graph) : Step session (session.commitGraph graph)
  | replace (graph : Graph) (edits : Edits session.registry.Makes False session.graph graph)
      (drained : graph.events = []) (current : graph.Current) (published : List Event) :
      Step session { session with graph := graph, published := published }

variable {session next : Session}

/-- A graph that has recorded nothing is committed as it is. Any other is refreshed, and what the
refresh touched is published after its events. -/
theorem commitGraph_ways (session : Session) (graph : Graph) :
    (graph.events = [] ∧ session.commitGraph graph = { session with graph := graph }) ∨
      ∃ answer : List NodeId × Graph,
        ((refreshStarts graph.events = none ∧ answer = graph.takeEvents.2.refreshAll) ∨
          ∃ starts, refreshStarts graph.events = some starts ∧
            answer = graph.takeEvents.2.refreshEach starts) ∧
        session.commitGraph graph = { session with graph := answer.2 }.publish
          (graph.events ++ answer.2.readinessEvents answer.1) := by
  rw [commitGraph, commit]
  dsimp only [takeEvents]
  split
  · next empty => exact Or.inl ⟨List.isEmpty_iff.1 empty, rfl⟩
  · refine Or.inr ?_
    cases isStarts : refreshStarts graph.events with
    | none => exact ⟨_, Or.inl ⟨rfl, rfl⟩, rfl⟩
    | some starts => exact ⟨_, Or.inr ⟨starts, rfl, rfl⟩, rfl⟩

theorem registry_commitGraph (session : Session) (graph : Graph) :
    (session.commitGraph graph).registry = session.registry := by
  obtain ⟨-, same⟩ | ⟨answer, -, same⟩ := session.commitGraph_ways graph
  · rw [same]
  · rw [same]
    rfl

/-- The graph is committed as it is if nothing happened to it, and refreshed otherwise. -/
theorem graph_commitGraph (session : Session) (graph : Graph) :
    (graph.events = [] ∧ (session.commitGraph graph).graph = graph) ∨
      (refreshStarts graph.events = none ∧
        (session.commitGraph graph).graph = graph.takeEvents.2.refreshAll.2) ∨
      ∃ starts, refreshStarts graph.events = some starts ∧
        (session.commitGraph graph).graph = (graph.takeEvents.2.refreshEach starts).2 := by
  obtain ⟨empty, same⟩ | ⟨answer, ⟨isNone, rfl⟩ | ⟨starts, isStarts, rfl⟩, same⟩ :=
    session.commitGraph_ways graph
  · exact Or.inl ⟨empty, congrArg Session.graph same⟩
  · exact Or.inr (Or.inl ⟨isNone, congrArg Session.graph same⟩)
  · exact Or.inr (Or.inr ⟨starts, isStarts, congrArg Session.graph same⟩)

theorem edits_commitGraph {made : Blueprint → Prop} {retags : Prop} (session : Session)
    (graph : Graph) : Edits made retags graph (session.commitGraph graph).graph := by
  have drains : Edits made retags graph graph.takeEvents.2 := edits_takeEvents graph
  obtain ⟨-, same⟩ | ⟨-, same⟩ | ⟨starts, -, same⟩ := graph_commitGraph session graph
  · rw [same]
  · rw [same]
    exact drains.trans (edits_refreshAll _)
  · rw [same]
    exact drains.trans (edits_refreshEach _ starts)

/-- Committing a graph changes nothing in it but marks of readiness, and takes its events. -/
theorem unmarked_commitGraph (session : Session) (graph : Graph) :
    (session.commitGraph graph).graph.unmarked = graph.unmarked := by
  obtain ⟨-, same⟩ | ⟨-, same⟩ | ⟨starts, -, same⟩ := graph_commitGraph session graph
  · rw [same]
  · rw [same]
    exact unmarked_refreshAll _
  · rw [same]
    exact unmarked_refreshEach _ starts

/-- Where nothing is reported, readiness is as up to date as before. -/
theorem current_of_drained (kept : session.Kept) {graph : Graph} (tied : graph.Tied)
    (reports : Reports session.graph graph) (drained : graph.events = []) : graph.Current := by
  obtain ⟨more, events, agree⟩ := reports
  rw [kept.drained, List.nil_append, drained] at events
  subst events
  refine ((agree nofun).mono fun id asked => ?_).settled kept.tied tied kept.current
  obtain ⟨event, member, -⟩ := asked
  exact absurd member List.not_mem_nil

/-- Committing a graph whose events report what became of it brings its readiness up to date. -/
theorem current_commitGraph (kept : session.Kept) {graph : Graph} (tied : graph.Tied)
    (reports : Reports session.graph graph) : (session.commitGraph graph).graph.Current := by
  have drained : graph.takeEvents.2.Tied := tied.relabel _ _ _ _
  obtain ⟨empty, same⟩ | ⟨-, same⟩ | ⟨starts, isStarts, same⟩ := graph_commitGraph session graph
  · rw [same]
    exact current_of_drained kept tied reports empty
  · rw [same]
    exact current_refreshAll drained
  · rw [same]
    obtain ⟨more, events, agree⟩ := reports
    rw [kept.drained, List.nil_append] at events
    subst events
    obtain ⟨limited, members⟩ := refreshStarts_spec isStarts
    have agrees : Agree (· ∈ starts) session.graph graph :=
      (agree limited).mono fun id asked => (members id).2 asked
    have unreported : Agree (· ∈ starts) session.graph graph.takeEvents.2 :=
      ⟨agrees.nodes, agrees.feeds⟩
    exact (unreported.settled kept.tied drained kept.current).refreshEach drained

theorem drained_commitGraph (session : Session) (graph : Graph) :
    (session.commitGraph graph).graph.events = [] := by
  obtain ⟨empty, same⟩ | ⟨-, same⟩ | ⟨starts, -, same⟩ := graph_commitGraph session graph
  · rw [same, empty]
  · rw [same]
    rfl
  · rw [same, events_refreshEach]
    rfl

namespace Step

/-- What a step does to the graph is made of elementary changes. -/
theorem edits (step : Step session next) :
    Edits session.registry.Makes False session.graph next.graph := by
  cases step with
  | keep => exact .refl
  | commit graph edits reports => exact edits.trans (edits_commitGraph session graph)
  | replace graph edits => exact edits

theorem kept (step : Step session next) (kept : session.Kept) : next.Kept := by
  cases step with
  | keep registry isRead => exact ⟨kept.tied, kept.drained, kept.current, isRead kept.registry⟩
  | commit graph edits reports =>
    refine ⟨?_, drained_commitGraph session graph,
      current_commitGraph kept (edits.tied kept.tied) reports, ?_⟩
    · have commits : Edits session.registry.Makes False graph _ := edits_commitGraph session graph
      exact commits.tied (edits.tied kept.tied)
    · rw [registry_commitGraph]
      exact kept.registry
  | replace graph edits drained current =>
    exact ⟨edits.tied kept.tied, drained, current, kept.registry⟩

end Step

/-! ### Operations -/

/-- What callers may do to a session. -/
inductive Operation where
  | registerSchema (name source : String)
  | removeSchema (name : String)
  | createNode (reference : String) (fragment : Object)
  | createPrimitive (kind : NativeKind) (value : Json)
  | removeNode (id : NodeId)
  | connect (origin : NodeId) (originSlot : Nat) (target : NodeId) (targetSlot : Nat)
  | disconnect (id : LinkId)
  | setInput (id : NodeId) (slot : Nat) (value : Json)
  | setPrimitive (id : NodeId) (value : Json)
  | setPosition (id : NodeId) (position : Point)
  | setPreviewOnly (id : NodeId) (previewOnly : Bool)
  | addKey (id : NodeId) (field key : String)
  | removeKey (id : NodeId) (field key : String)
  | renameKey (id : NodeId) (field key newKey : String)
  | importDocument (document : Document) (options : ImportOptions)
  | reseed (seed : Seed)

/-- The session after an operation; one that fails changes nothing. -/
def perform (session : Session) : Operation → Session
  | .registerSchema name source => (session.registerSchema name source).2
  | .removeSchema name => (session.removeSchema name).getD session
  | .createNode reference fragment =>
    ((session.createNode reference fragment).map Prod.snd).getD session
  | .createPrimitive kind value => (session.createPrimitive kind value).2
  | .removeNode id => ((session.removeNode id).map Prod.snd).getD session
  | .connect origin originSlot target targetSlot =>
    ((session.connect origin originSlot target targetSlot).toOption.map Prod.snd).getD session
  | .disconnect id => ((session.disconnect id).map Prod.snd).getD session
  | .setInput id slot value => (session.setInput id slot value).getD session
  | .setPrimitive id value => (session.setPrimitive id value).getD session
  | .setPosition id position => (session.setPosition id position).getD session
  | .setPreviewOnly id previewOnly => (session.setPreviewOnly id previewOnly).getD session
  | .addKey id field key => ((session.addKey id field key).toOption.map Prod.snd).getD session
  | .removeKey id field key => (session.removeKey id field key).toOption.getD session
  | .renameKey id field key newKey =>
    (session.renameKey id field key newKey).toOption.getD session
  | .importDocument document options => (session.importDocument document options).2
  | .reseed seed => session.seeded seed

/-- The session after operations on an empty one, whose registry resolves types in a given way. -/
def run (resolution : Resolution) (operations : List Operation) : Session :=
  operations.foldl perform { registry := { resolution := resolution } }

/-! ### What comes of operations -/

/-- What an operation that succeeds makes of the graph, for the session to commit. -/
inductive Drafts (session : Session) : Operation → Graph → Prop
  | createNode {reference modelRef : String} {model : Model} (fragment : Object)
      (isFound : (session.registry.qualified? reference).or
        (session.registry.resolve? reference) = some modelRef)
      (isModel : session.registry.model? modelRef = some model) :
      Drafts session (.createNode reference fragment)
        (session.graph.createNode modelRef model fragment).2
  | createPrimitive (kind : NativeKind) (value : Json) :
      Drafts session (.createPrimitive kind value) (session.graph.createPrimitive kind value).2
  | removeNode {id : NodeId} {node : Node} {graph : Graph}
      (success : session.graph.removeNode id = some (node, graph)) :
      Drafts session (.removeNode id) graph
  | connect {origin target : NodeId} {originSlot targetSlot : Nat} {link : LinkId} {graph : Graph}
      (success : session.graph.connect origin originSlot target targetSlot = .ok (link, graph)) :
      Drafts session (.connect origin originSlot target targetSlot) graph
  | disconnect {id : LinkId} {link : Link} {graph : Graph}
      (success : session.graph.disconnect id = some (link, graph)) :
      Drafts session (.disconnect id) graph
  | setInput {id : NodeId} {slot : Nat} {value : Json} {graph : Graph}
      (success : session.graph.setInput id slot value = some graph) :
      Drafts session (.setInput id slot value) graph
  | setPrimitive {id : NodeId} {value : Json} {graph : Graph}
      (success : session.graph.setPrimitive id value = some graph) :
      Drafts session (.setPrimitive id value) graph
  | setPosition {id : NodeId} {position : Point} {graph : Graph}
      (success : session.graph.setPosition id position = some graph) :
      Drafts session (.setPosition id position) graph
  | addKey {id : NodeId} {field key : String} {place : Nat} {graph : Graph}
      (success : session.graph.addKey id field key = .ok (place, graph)) :
      Drafts session (.addKey id field key) graph
  | removeKey {id : NodeId} {field key : String} {graph : Graph}
      (success : session.graph.removeKey id field key = .ok graph) :
      Drafts session (.removeKey id field key) graph
  | renameKey {id : NodeId} {field key newKey : String} {graph : Graph}
      (success : session.graph.renameKey id field key newKey = .ok graph) :
      Drafts session (.renameKey id field key newKey) graph

/-- What comes of an operation: nothing, a graph that is committed, or a change that needs no
commit. -/
inductive Performs (session : Session) : Operation → Session → Prop
  | nothing (operation : Operation) : Performs session operation session
  | draft {operation : Operation} {graph : Graph} (drafts : session.Drafts operation graph) :
      Performs session operation (session.commitGraph graph)
  | registerSchema (name source : String) :
      Performs session (.registerSchema name source) (session.registerSchema name source).2
  | removeSchema (name : String) :
      Performs session (.removeSchema name)
        ({ session with registry := session.registry.remove name }.publish [.schemaRemoved name])
  | setPreviewOnly {id : NodeId} {previewOnly : Bool} {graph : Graph}
      (success : session.graph.setPreviewOnly id previewOnly = some graph) :
      Performs session (.setPreviewOnly id previewOnly) { session with graph := graph }
  | importDocument (document : Document) (options : ImportOptions) :
      Performs session (.importDocument document options)
        (session.importDocument document options).2
  | reseed (seed : Seed) : Performs session (.reseed seed) (session.seeded seed)

theorem performs_getD {operation : Operation} {result : Option Session}
    (each : ∀ next, result = some next → session.Performs operation next) :
    session.Performs operation (result.getD session) := by
  cases result with
  | none => exact .nothing operation
  | some next => exact each next rfl

/-- An operation that commits the graph that it makes. -/
theorem performs_map {operation : Operation} {result : Option Graph}
    (each : ∀ graph, result = some graph → session.Drafts operation graph) :
    session.Performs operation ((result.map session.commitGraph).getD session) := by
  refine performs_getD fun next found => ?_
  obtain ⟨graph, success, rfl⟩ := Option.map_eq_some_iff.1 found
  exact .draft (each graph success)

theorem eq_ok_of_map {Problem Answer Other : Type} {result : Except Problem Answer}
    {change : Answer → Other} {other : Other}
    (success : (result.map change).toOption = some other) :
    ∃ answer, result = .ok answer ∧ change answer = other := by
  cases result with
  | error problem => cases success
  | ok answer =>
    cases success
    exact ⟨answer, rfl, rfl⟩

/-- What comes of every operation. -/
theorem performs (session : Session) (operation : Operation) :
    session.Performs operation (session.perform operation) := by
  cases operation with
  | registerSchema name source => exact .registerSchema name source
  | removeSchema name =>
    refine performs_getD fun next removed => ?_
    rw [removeSchema] at removed
    split at removed <;> cases removed
    exact .removeSchema name
  | createNode reference fragment =>
    refine performs_getD fun next answered => ?_
    obtain ⟨answer, created, rfl⟩ := Option.map_eq_some_iff.1 answered
    obtain ⟨modelRef, isFound, made⟩ := Option.bind_eq_some_iff.1 created
    obtain ⟨model, isModel, rfl⟩ := Option.map_eq_some_iff.1 made
    exact .draft (.createNode fragment isFound isModel)
  | createPrimitive kind value => exact .draft (.createPrimitive kind value)
  | removeNode id =>
    refine performs_getD fun next answered => ?_
    obtain ⟨answer, removed, rfl⟩ := Option.map_eq_some_iff.1 answered
    obtain ⟨⟨node, graph⟩, success, rfl⟩ := Option.map_eq_some_iff.1 removed
    exact .draft (.removeNode success)
  | connect origin originSlot target targetSlot =>
    refine performs_getD fun next answered => ?_
    obtain ⟨answer, connected, rfl⟩ := Option.map_eq_some_iff.1 answered
    obtain ⟨⟨link, graph⟩, success, rfl⟩ := eq_ok_of_map connected
    exact .draft (.connect success)
  | disconnect id =>
    refine performs_getD fun next answered => ?_
    obtain ⟨answer, removed, rfl⟩ := Option.map_eq_some_iff.1 answered
    obtain ⟨⟨link, graph⟩, success, rfl⟩ := Option.map_eq_some_iff.1 removed
    exact .draft (.disconnect success)
  | setInput id slot value => exact performs_map fun _ success => .setInput success
  | setPrimitive id value => exact performs_map fun _ success => .setPrimitive success
  | setPosition id position => exact performs_map fun _ success => .setPosition success
  | setPreviewOnly id previewOnly =>
    refine performs_getD fun next marked => ?_
    obtain ⟨graph, success, rfl⟩ := Option.map_eq_some_iff.1 marked
    exact .setPreviewOnly success
  | addKey id field key =>
    refine performs_getD fun next answered => ?_
    obtain ⟨answer, added, rfl⟩ := Option.map_eq_some_iff.1 answered
    obtain ⟨⟨place, graph⟩, success, rfl⟩ := eq_ok_of_map added
    exact .draft (.addKey success)
  | removeKey id field key =>
    refine performs_getD fun next removed => ?_
    obtain ⟨graph, success, rfl⟩ := eq_ok_of_map removed
    exact .draft (.removeKey success)
  | renameKey id field key newKey =>
    refine performs_getD fun next renamed => ?_
    obtain ⟨graph, success, rfl⟩ := eq_ok_of_map renamed
    exact .draft (.renameKey success)
  | importDocument document options => exact .importDocument document options
  | reseed seed => exact .reseed seed

/-! ### Steps of operations -/

/-- What is to be committed is made of elementary changes that are reported. -/
theorem Drafts.reported {operation : Operation} {graph : Graph}
    (drafts : session.Drafts operation graph) (kept : session.Kept) :
    Edits session.registry.Makes False session.graph graph ∧ Reports session.graph graph := by
  have tied := kept.tied
  cases drafts with
  | @createNode reference modelRef model fragment isFound isModel =>
    have dotted : '.' ∈ modelRef.toList := by
      rcases Option.or_eq_some_iff.1 isFound with isQualified | ⟨-, isResolved⟩
      · exact Registry.dot_mem_of_qualified? isQualified
      · exact Registry.dot_mem_of_resolve? isResolved
    have makes : session.registry.Makes (.ofModel modelRef model) :=
      Or.inl ⟨modelRef, model, dotted, isModel, rfl⟩
    exact ⟨edits_createNode makes (makes.sound kept.registry) fragment,
      reports_createNode modelRef model fragment⟩
  | createPrimitive kind value =>
    exact ⟨edits_createPrimitive (Or.inr ⟨kind, rfl⟩) value, reports_createPrimitive kind value⟩
  | removeNode success => exact ⟨edits_removeNode tied success, reports_removeNode tied success⟩
  | connect success => exact ⟨edits_connect success, reports_connect success⟩
  | disconnect success => exact ⟨edits_disconnect tied success, reports_disconnect tied success⟩
  | setInput success => exact ⟨edits_setInput success, reports_setInput success⟩
  | setPrimitive success => exact ⟨edits_setPrimitive tied success, reports_setPrimitive success⟩
  | setPosition success => exact ⟨edits_setPosition success, reports_setPosition success⟩
  | addKey success => exact ⟨edits_addKey tied success, reports_addKey success⟩
  | removeKey success => exact ⟨edits_removeKey tied success, reports_removeKey tied success⟩
  | renameKey success => exact ⟨edits_renameKey tied success, reports_renameKey success⟩

/-- Every operation makes a step. -/
theorem step_perform (kept : session.Kept) (operation : Operation) :
    Step session (session.perform operation) := by
  have tied := kept.tied
  have performs := session.performs operation
  generalize session.perform operation = next at performs ⊢
  cases performs with
  | nothing => exact .keep session.registry id session.published
  | draft drafts =>
    obtain ⟨edits, reports⟩ := drafts.reported kept
    exact .commit _ edits reports
  | registerSchema name source => exact .keep _ (fun isRead => isRead.register name source) _
  | removeSchema name => exact .keep _ (fun isRead => isRead.remove name) _
  | @setPreviewOnly id previewOnly graph success =>
    have edits : Edits session.registry.Makes False session.graph graph :=
      edits_setPreviewOnly success
    have drained : graph.events = [] := (events_setPreviewOnly success).trans kept.drained
    exact .replace graph edits drained
      (current_of_drained kept (edits.tied tied) (reports_setPreviewOnly success) drained) _
  | importDocument document options =>
    have imported : Edits session.registry.Makes False session.graph
        (session.graph.importDocument session.registry document options).2 :=
      edits_importDocument
        (fun _ modelRef model isResolved isModel =>
          Or.inl ⟨modelRef, model, Registry.dot_mem_of_resolve? isResolved, isModel, rfl⟩)
        (fun kind => Or.inr ⟨kind, rfl⟩) (fun blueprint makes => makes.sound kept.registry)
        session.graph document options
    have drains : Edits session.registry.Makes False session.graph _ :=
      imported.trans (edits_takeEvents _)
    exact .replace _ (drains.trans (edits_refreshAll _)) rfl
      (current_refreshAll (drains.tied tied)) _
  | reseed seed =>
    have edits : Edits session.registry.Makes False session.graph
        { session.graph with seed := seed } := .single (.relabel _ seed _ _ _)
    have agree : Agree (fun _ => False) session.graph { session.graph with seed := seed } :=
      ⟨fun node member _ => ⟨node, member, rfl, rfl, rfl⟩, fun _ _ _ => Iff.rfl⟩
    exact .replace _ edits kept.drained
      (current_of_drained kept (edits.tied tied) (.of_agree agree rfl) kept.drained) _

theorem kept_start (resolution : Resolution) :
    Kept { registry := { resolution := resolution } } where
  tied := .empty
  drained := rfl
  current := ⟨fun _ member => absurd member List.not_mem_nil,
    fun _ member => absurd member List.not_mem_nil⟩
  registry := Registry.isRead_empty resolution

/-- Sessions that operations lead to are kept in order. -/
theorem kept_run (resolution : Resolution) (operations : List Operation) :
    (run resolution operations).Kept := by
  refine List.foldlRecOn operations perform (kept_start resolution)
    fun session kept operation _ => ?_
  exact (step_perform kept operation).kept kept

/-! ### Readiness -/

/-- Whatever was done to a session, every node knows which of its required fields are missing, and
its chain is marked complete exactly if nothing is missing on any node that links lead from to it.
Refreshing all nodes would change nothing. -/
theorem readiness_run (resolution : Resolution) (operations : List Operation) :
    let graph := (run resolution operations).graph
    (∀ node ∈ graph.nodes,
      node.readiness.missing = node.missingFields ∧
      (node.readiness.complete = true ↔ node.missingFields = []) ∧
      (node.readiness.chainComplete = true ↔
        ∀ other ∈ graph.nodes, graph.Reaches other.id node.id → other.missingFields = [])) ∧
    graph.refreshAll.2 = graph := by
  have kept := kept_run resolution operations
  refine ⟨fun node member => ?_, kept.current.refreshAll_eq kept.tied⟩
  obtain ⟨complete, missing⟩ := kept.current.own node member List.not_mem_nil
  refine ⟨missing, ?_, ?_⟩
  · rw [complete, Node.isComplete, List.isEmpty_iff]
  · refine (kept.current.chains node member fun _ waits => absurd waits List.not_mem_nil).trans ?_
    simp only [ChainComplete, Node.isComplete, List.isEmpty_iff]

end Session

end Workflow
