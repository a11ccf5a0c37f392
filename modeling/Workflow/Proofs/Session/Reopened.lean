/-
This file proves that what a session exports, with its layout, is opened again by a
session with the same registry as what it was.

Nodes match in the order of the document and links in their own order, and so does
the readiness of the nodes, which the importing session brings up to date by itself.
Beside what a document needs to be read again without loss, no node may be left out
of documents, and no field of a model may have a name that documents keep for
themselves.
-/

import Workflow.Proofs.Document.Matched
import Workflow.Proofs.Session.RoundTrip

namespace Workflow.History

open Workflow.Graph

/-- Whatever was done to a session: if the document types of the nodes lead back to what the nodes
were created from, no node is left out, and no field but the type tag has a reserved name, then a
session with the same registry reads the document, without anything being skipped, as a graph that
matches. -/
theorem reopened_run (resolution : Resolution) (operations : List Session.Operation) :
    let history := run resolution operations
    let graph := history.session.graph
    (∀ node ∈ graph.documentNodes, history.Leads node) →
    (∀ node ∈ graph.nodes, node.previewOnly = false) →
    (∀ node ∈ graph.nodes, ∀ model, history.models node.id = some model → model.Unreserved) →
    ∀ (options : ImportOptions) (other : Session), options.layout = true →
      other.registry = history.session.registry →
      let reopened := other.importDocument (history.session.toDocument true) options
      reopened.1.isClean = true ∧ graph.Matches reopened.2.graph := by
  intro history graph leads shown free options other layout sameRegistry reopened
  have kept : history.session.Kept := by
    rw [session_run]
    exact Session.kept_run resolution operations
  have knows : ∀ node ∈ graph.documentNodes, history.Knows node := fun node member =>
    knows_run resolution operations node (documentNodes_subset member)
  have unreserved : ∀ node ∈ graph.documentNodes, node.Unreserved := by
    intro node member
    obtain ⟨kind, fits⟩ | ⟨model, isModel, -, -, fits, -⟩ := knows node member
    · exact fits.unreserved_ofKind
    · exact fits.unreserved_ofModel (free node (documentNodes_subset member) model isModel)
  have described : ∀ node ∈ graph.documentNodes, ∃ blueprint,
      node.Described history.session.registry true blueprint := fun node member =>
    (leads node member).described (knows node member) (unreserved node member).keys
  have clean := (toDocument_importDocument kept.registry kept.tied described layout other.graph).1
  have matched := matches_importDocument kept.registry kept.tied kept.current shown described
    unreserved layout other.graph
  rw [← sameRegistry] at clean matched
  exact ⟨clean, matched⟩

/-- The session is opened again by another one that has its registry. -/
theorem reopened_router :
    let history := run {} router
    let graph := history.session.graph
    let other : Session := { registry := history.session.registry }
    let reopened := other.importDocument (history.session.toDocument true) {}
    (∀ node ∈ graph.documentNodes, history.Leads node) ∧
    (∀ node ∈ graph.nodes, node.previewOnly = false) ∧
    (∀ node ∈ graph.nodes, ∀ model, history.models node.id = some model → model.Unreserved) ∧
    reopened.1.isClean = true ∧ graph.Matches reopened.2.graph := by
  intro history graph other reopened
  have leads : ∀ node ∈ graph.documentNodes, history.Leads node := fun node member =>
    leads_router (documentNodes_subset member)
  have shown : ∀ node ∈ graph.nodes, node.previewOnly = false := fun node isNode =>
    (checked_router node isNode).2.2.1
  have free : ∀ node ∈ graph.nodes, ∀ model, history.models node.id = some model →
      model.Unreserved := fun node isNode model isModel =>
    (checked_router node isNode).2.2.2 model ((models_router isNode).symm.trans isModel)
  exact ⟨leads, shown, free, reopened_run {} router leads shown free {} other rfl rfl⟩

end Workflow.History
