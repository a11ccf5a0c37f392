/-
This file proves that a document which was written for a graph, and read into any
graph, is written again as it was.

The nodes are restored, every edge makes its link again, and inputs are linked only
where inputs of the original were; so the same values are hidden by links.
-/

import Workflow.Proofs.Document.Edges
import Workflow.Proofs.Document.Shown
import Workflow.Proofs.Registry

namespace Workflow.Graph

variable {registry : Registry} {withLayout : Bool} {base : Nat} {originals : List Node}
  {graph imported : Graph}

/-! ### Writing what was read -/

/-- Nodes made for entries are all written, in the order of the entries. -/
theorem Renews.documentNodes_eq (renews : graph.Renews registry withLayout base originals) :
    graph.documentNodes = graph.nodes := by
  refine documentNodes_eq_nodes (fun node member => ?_) fun place node isNode => ?_
  · obtain ⟨place, isNode⟩ := List.mem_iff_getElem?.1 member
    obtain ⟨_, -, renewed⟩ := renews.exists_original isNode
    exact renewed.shown
  · obtain ⟨_, -, renewed⟩ := renews.exists_original isNode
    exact renewed.order

/-- An input that is linked again was linked in the original. -/
theorem Renews.exists_linked (renews : imported.Renews registry withLayout base graph.documentNodes)
    (tied : graph.Tied) (shows : imported.Shows imported.nodes (graph.toDocument withLayout).edges)
    {place : Nat} {before after : Node} (isBefore : graph.documentNodes[place]? = some before)
    (isAfter : imported.nodes[place]? = some after) {slot : InputSlot}
    (isInput : slot ∈ after.inputs) (isLinked : slot.link.isSome) :
    ∃ old ∈ before.inputs, old.info = slot.info ∧ old.link.isSome := by
  have renewed := renews.each place before after isBefore isAfter
  obtain ⟨blueprint, described, restores⟩ := renewed.restores
  obtain ⟨spot, atSlot⟩ := List.mem_iff_getElem?.1 isInput
  obtain ⟨entry, isEntry, rfl, name⟩ := (shows.linked_iff isAfter isInput).1 isLinked
  rw [tied.edges_eq] at isEntry
  obtain ⟨stored, isStored, wasEdge⟩ := List.mem_filterMap.1 isEntry
  obtain ⟨_, target, _, old, joins, -, linked, -, -⟩ :=
    tied.edge_cases documentNodes_subset isStored wasEdge
  obtain rfl := Option.some.inj (joins.isTarget.symm.trans isBefore)
  refine ⟨old, joins.isInput, ?_, linked ▸ rfl⟩
  obtain ⟨other, isOther⟩ := List.mem_iff_getElem?.1
    (restores.slots .input old.info (List.mem_map_of_mem joins.isInput))
  have isSlot := Node.getElem?_slots_input atSlot
  have same := (restores.fits.place_eq_of_internalName described.sound isSlot isOther
    (name.symm.trans joins.targetSlot.symm)).2
  rw [← same, isSlot] at isOther
  exact (Option.some.inj isOther).symm

/-- Nodes made for entries have the same entries, if inputs are linked only where they were. -/
theorem Renews.map_entry (renews : imported.Renews registry withLayout base graph.documentNodes)
    (linked : ∀ (place : Nat) (before after : Node), graph.documentNodes[place]? = some before →
      imported.nodes[place]? = some after → ∀ slot ∈ after.inputs, slot.link.isSome →
        ∃ old ∈ before.inputs, old.info = slot.info ∧ old.link.isSome) :
    (imported.nodes.map fun node => node.entry withLayout) =
      graph.documentNodes.map fun node => node.entry withLayout := by
  refine List.ext_getElem (by rw [List.length_map, List.length_map, renews.length]) ?_
  intro place inRange inRange'
  rw [List.length_map] at inRange inRange'
  rw [List.getElem_map, List.getElem_map]
  have isAfter := List.getElem?_eq_getElem inRange
  have isBefore := List.getElem?_eq_getElem inRange'
  obtain ⟨blueprint, described, restores⟩ := (renews.each place _ _ isBefore isAfter).restores
  exact restores.entry_eq described.sound described.parted described.fits described.tagged
    fun slot isInput _ isLinked => linked place _ _ isBefore isAfter slot isInput isLinked

/-! ### Reading what was written -/

/-- The graph that the nodes of a document are read into. -/
def emptied (graph : Graph) (document : Document) : Graph :=
  { graph.clear with kind := some document.kind, metadata := document.metadata }

theorem tied_emptied (graph : Graph) (document : Document) : (graph.emptied document).Tied :=
  Tied.clear.relabel _ _ _ _

section Reading

variable (isRead : registry.IsRead) (tied : graph.Tied)
  (described : ∀ node ∈ graph.documentNodes, ∃ blueprint,
    node.Described registry withLayout blueprint)
  {options : ImportOptions} (layout : options.layout = withLayout) (other : Graph)

include isRead tied described layout

/-- What is there once the document of a graph was read. -/
theorem exists_importing : ∃ (base : Nat) (start importing : Importing),
    importing.HasEdges registry withLayout base graph.documentNodes start
      (graph.toDocument withLayout).edges ∧
    start.report = { nodes := graph.documentNodes.length } ∧
    start.graph.kind = some (graph.toDocument withLayout).kind ∧
    start.graph.metadata = (graph.toDocument withLayout).metadata ∧
    other.importDocument registry (graph.toDocument withLayout) options =
      (importing.report, importing.graph) := by
  have tiedStart := tied_emptied other (graph.toDocument withLayout)
  have hasNodes := Importing.hasNodes_foldl (other.emptied (graph.toDocument withLayout)) rfl layout
    (options.columnsFor (graph.toDocument withLayout).nodes.length) described
  have nodes : Edits Blueprint.Sound True _ _ := edits_foldl Importing.graph
    (fun importing entry _ => edits_addEntry
      (fun _ modelRef _ _ found => (isRead.isDeclared found).sound modelRef) Blueprint.sound_ofKind
      (fun _ sound => sound) importing options
      (options.columnsFor (graph.toDocument withLayout).nodes.length) entry)
    (graph.toDocument withLayout).nodes { graph := other.emptied (graph.toDocument withLayout) }
    tiedStart
  have fitted : ∀ node ∈ graph.documentNodes, ∃ blueprint : Blueprint,
      blueprint.Sound ∧ node.Fits blueprint := fun node member =>
    (described node member).imp fun _ known => ⟨known.sound, known.fits⟩
  have hasEdges := Importing.HasEdges.foldl
    ⟨hasNodes.renews, nodes.tied tiedStart, by rw [hasNodes.links]; rfl, rfl, rfl, rfl, rfl⟩
    (graph.toDocument withLayout).edges hasNodes.created ?_ ?_
  · exact ⟨_, _, _, hasEdges, hasNodes.report, hasNodes.kind, hasNodes.metadata, rfl⟩
  · intro entry member
    rw [tied.edges_eq] at member
    obtain ⟨link, isLink, isEdge⟩ := List.mem_filterMap.1 member
    obtain ⟨origin, target, output, input, joins, types, -⟩ :=
      tied.edge_cases documentNodes_subset isLink isEdge
    exact ⟨origin, target, output, input, joins, types⟩
  · rw [tied.edges_eq]
    exact tied.pairwise_edges fitted

/-- The document of a tied graph whose nodes are described well enough is read without loss, and
written again as it was. -/
theorem toDocument_importDocument :
    (other.importDocument registry (graph.toDocument withLayout) options).1.isClean = true ∧
    (other.importDocument registry (graph.toDocument withLayout) options).2.toDocument withLayout =
      graph.toDocument withLayout := by
  obtain ⟨base, start, importing, has, report, kind, metadata, isImported⟩ :=
    exists_importing isRead tied described layout other
  rw [isImported]
  constructor
  · rw [has.report, report]
    rfl
  · have shown := has.renews.documentNodes_eq
    have nodes : (importing.graph.toDocument withLayout).nodes =
        (graph.toDocument withLayout).nodes := by
      refine (congrArg (List.map fun node => node.entry withLayout) shown).trans ?_
      refine has.renews.map_entry fun place before after isBefore isAfter slot =>
        has.renews.exists_linked tied (has.renews.shows has.tied has.links) isBefore isAfter
    have edges : (importing.graph.toDocument withLayout).edges =
        (graph.toDocument withLayout).edges := by
      have listed := congrArg (List.filterMap id) has.links
      rw [List.filterMap_map, List.filterMap_map] at listed
      rw [has.tied.edges_eq, shown]
      exact listed.trans List.filterMap_some
    have kindBack : importing.graph.kind = some (graph.toDocument withLayout).kind :=
      has.kind.trans kind
    calc importing.graph.toDocument withLayout
        = ⟨importing.graph.kind.getD defaultDocumentType,
            (importing.graph.toDocument withLayout).nodes,
            (importing.graph.toDocument withLayout).edges, importing.graph.metadata⟩ := rfl
      _ = ⟨(graph.toDocument withLayout).kind, (graph.toDocument withLayout).nodes,
            (graph.toDocument withLayout).edges, (graph.toDocument withLayout).metadata⟩ := by
          rw [kindBack, nodes, edges, has.metadata, metadata, Option.getD_some]
      _ = graph.toDocument withLayout := rfl

end Reading

end Workflow.Graph
