/-
This file holds editing sessions: a registry and a graph whose readiness is kept
current.

After every change the events of the graph are taken, the readiness they call into
question is refreshed, and the events are published, followed by the readiness of
every node that was refreshed. A session remembers what it published, so a
subscription is a place in that list.
-/

import Workflow.Document.Export
import Workflow.Document.Import
import Workflow.Graph.Preview
import Workflow.Graph.Readiness

namespace Workflow

/-- An editing session. -/
structure Session where
  registry : Registry := {}
  graph : Graph := {}
  /-- Every event published so far. -/
  published : List Event := []

/-- The nodes that several events ask to refresh: all of them, or those downstream of some, each
named once. -/
def refreshStarts (events : List Event) : Option (List NodeId) :=
  events.foldl
    (fun starts event =>
      match event.refreshScope with
      | .everything => none
      | .nothing => starts
      | .downstreamOf id => starts.map fun ids => if ids.contains id then ids else ids ++ [id])
    (some [])

/-- The graph refreshed downstream of nodes, one after the other, and all nodes touched in order. -/
def Graph.refreshEach (graph : Graph) (starts : List NodeId) : List NodeId × Graph :=
  starts.foldl
    (fun (touched, graph) start =>
      let (ids, refreshed) := graph.refreshFrom start
      (touched ++ ids.filter fun id => !touched.contains id, refreshed))
    ([], graph)

/-- The events that report the readiness of nodes. -/
def Graph.readinessEvents (graph : Graph) (ids : List NodeId) : List Event :=
  ids.filterMap fun id =>
    (graph.node? id).map fun node =>
      .readinessChanged id node.readiness.complete node.readiness.chainComplete

namespace Session

/-- The session with another seed for the identifiers minted from now on. -/
def seeded (session : Session) (seed : Seed) : Session :=
  { session with graph := { session.graph with seed := seed } }

/-- The session with more events published. -/
def publish (session : Session) (events : List Event) : Session :=
  { session with published := session.published ++ events }

/-- The session with the pending events of its graph dealt with. -/
def commit (session : Session) : Session :=
  let (events, graph) := session.graph.takeEvents
  if events.isEmpty then session
  else
    let (touched, refreshed) :=
      match refreshStarts events with
      | none => graph.refreshAll
      | some starts => graph.refreshEach starts
    { session with graph := refreshed }.publish (events ++ refreshed.readinessEvents touched)

/-- The session with another graph, whose pending events are dealt with. -/
def commitGraph (session : Session) (graph : Graph) : Session :=
  { session with graph := graph }.commit

/-- Registers the schema of a source; the answer is how many models it declares. -/
def registerSchema (session : Session) (name source : String) : Nat × Session :=
  let schema := Schema.parse source
  let count := schema.models.entries.length
  let registered := { session with registry := session.registry.register name schema }
  (count, registered.publish [.schemaRegistered name count])

/-- Removes a schema; nodes made from it stay. -/
def removeSchema (session : Session) (name : String) : Option Session :=
  if session.registry.schemas.contains name then
    let removed := { session with registry := session.registry.remove name }
    some (removed.publish [.schemaRemoved name])
  else none

/-- Adds a node of a model given by qualified name, bare name or document type. -/
def createNode (session : Session) (reference : String) (fragment : Object) :
    Option (NodeId × Session) :=
  let registry := session.registry
  ((registry.qualified? reference).or (registry.resolve? reference)).bind fun qualified =>
    (registry.model? qualified).map fun model =>
      let (id, graph) := session.graph.createNode qualified model fragment
      (id, session.commitGraph graph)

/-- Adds a primitive node. -/
def createPrimitive (session : Session) (kind : NativeKind) (value : Json) : NodeId × Session :=
  let (id, graph) := session.graph.createPrimitive kind value
  (id, session.commitGraph graph)

/-- Removes a node with its links. -/
def removeNode (session : Session) (id : NodeId) : Option (Node × Session) :=
  (session.graph.removeNode id).map fun (node, graph) => (node, session.commitGraph graph)

/-- Links an output to an input. -/
def connect (session : Session) (origin : NodeId) (originSlot : Nat) (target : NodeId)
    (targetSlot : Nat) : Except ConnectError (LinkId × Session) :=
  (session.graph.connect origin originSlot target targetSlot).map
    fun (id, graph) => (id, session.commitGraph graph)

/-- Removes a link. -/
def disconnect (session : Session) (id : LinkId) : Option (Link × Session) :=
  (session.graph.disconnect id).map fun (link, graph) => (link, session.commitGraph graph)

/-- Edits the native value of an input. -/
def setInput (session : Session) (id : NodeId) (slot : Nat) (value : Json) : Option Session :=
  (session.graph.setInput id slot value).map session.commitGraph

/-- Replaces the value of a primitive node. -/
def setPrimitive (session : Session) (id : NodeId) (value : Json) : Option Session :=
  (session.graph.setPrimitive id value).map session.commitGraph

/-- Moves a node. -/
def setPosition (session : Session) (id : NodeId) (position : Point) : Option Session :=
  (session.graph.setPosition id position).map session.commitGraph

/-- Marks a node as left out of documents, or takes the mark away. -/
def setPreviewOnly (session : Session) (id : NodeId) (previewOnly : Bool) : Option Session :=
  (session.graph.setPreviewOnly id previewOnly).map fun graph => { session with graph := graph }

/-- Adds a key to a field; the answer is the place of its slot. -/
def addKey (session : Session) (id : NodeId) (field key : String) :
    Except SlotEditError (Nat × Session) :=
  (session.graph.addKey id field key).map fun (place, graph) => (place, session.commitGraph graph)

/-- Removes a key of a field. -/
def removeKey (session : Session) (id : NodeId) (field key : String) :
    Except SlotEditError Session :=
  (session.graph.removeKey id field key).map session.commitGraph

/-- Changes a key of a field. -/
def renameKey (session : Session) (id : NodeId) (field key newKey : String) :
    Except SlotEditError Session :=
  (session.graph.renameKey id field key newKey).map session.commitGraph

/-- The document of the graph. -/
def toDocument (session : Session) (withLayout : Bool) : Document :=
  session.graph.toDocument withLayout

/-- Replaces the graph by a document. Instead of the events of nodes and links, that the graph was
cleared and a document imported is published, and then the readiness of every node. -/
def importDocument (session : Session) (document : Document) (options : ImportOptions) :
    ImportReport × Session :=
  let (report, graph) := session.graph.importDocument session.registry document options
  let (touched, refreshed) := graph.takeEvents.2.refreshAll
  let replaced := { session with graph := refreshed }
  (report, replaced.publish
    (.graphCleared :: .documentImported report.nodes report.links ::
      refreshed.readinessEvents touched))

/-- The readiness of a node. -/
def readiness? (session : Session) (id : NodeId) : Option Readiness :=
  (session.graph.node? id).map Node.readiness

/-- Whether every required field of a node is filled. -/
def isComplete (session : Session) (id : NodeId) : Bool :=
  (session.readiness? id).any Readiness.complete

/-- Whether a node and everything it depends on is complete. -/
def isChainComplete (session : Session) (id : NodeId) : Bool :=
  (session.readiness? id).any Readiness.chainComplete

/-- Runs a preview of the graph that passes values on. -/
def preview (session : Session) : Outputs := session.graph.preview {}

/-- How many events were published so far; a subscriber that starts now sees those after them. -/
def position (session : Session) : Nat := session.published.length

/-- The events published since a position. -/
def eventsSince (session : Session) (position : Nat) : List Event :=
  session.published.drop position

end Session

end Workflow
