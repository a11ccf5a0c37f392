/-
This file makes the nodes of a document again.

Every entry makes one node, under the next id and at the place of the entry, and the
node restores the one that the entry was written for. Nothing is skipped, because a
node that is described well enough has a type that leads to what it was made from.
-/

import Workflow.Proofs.Document.Restored

namespace Workflow

/-- If the type leads to a model, an entry is read as a node of that model. -/
theorem Graph.instantiate_entry {registry : Registry} {node : Node} {name : String} {model : Model}
    (notPrimitive : NativeKind.ofPrimitiveTag node.documentType = none)
    (resolved : registry.resolve? node.documentType = some name)
    (held : registry.model? name = some model) (withLayout : Bool) (graph : Graph) :
    graph.instantiate registry (node.entry withLayout) =
      some (graph.createNode name model (node.entry withLayout).fields) := by
  rw [instantiate, show (node.entry withLayout).type = node.documentType from rfl, notPrimitive]
  dsimp only
  rw [resolved]
  dsimp only
  rw [held]
  rfl

/-- A node whose entry leads a registry to what the node was made from. -/
structure Node.Described (registry : Registry) (withLayout : Bool) (blueprint : Blueprint)
    (node : Node) : Prop where
  sound : blueprint.Sound
  parted : blueprint.Parted
  fits : node.Fits blueprint
  tagged : node.Tagged blueprint
  keysFree : ∀ direction, ∀ name ∈ blueprint.names (.keys direction), name ∉ reservedFields
  again : ∀ graph : Graph, ∃ make : NodeId → Node,
    graph.instantiate registry (node.entry withLayout) = some (graph.addNode make) ∧
    (make ⟨graph.nextNode⟩).id = ⟨graph.nextNode⟩ ∧
    (make ⟨graph.nextNode⟩).Remade blueprint (node.entry withLayout).fields

/-- The node made for the entry of another one at a place of a document. -/
structure Node.Renews (registry : Registry) (withLayout : Bool) (base place : Nat)
    (before after : Node) : Prop where
  id : after.id = ⟨base + place⟩
  order : after.order = some place
  shown : after.previewOnly = false
  restores : ∃ blueprint, before.Described registry withLayout blueprint ∧
    before.Restores blueprint withLayout after

/-- The nodes of a graph are those made for the entries of others. -/
structure Graph.Renews (registry : Registry) (withLayout : Bool) (base : Nat)
    (originals : List Node) (graph : Graph) : Prop where
  length : graph.nodes.length = originals.length
  each : ∀ (place : Nat) (before after : Node), originals[place]? = some before →
    graph.nodes[place]? = some after → before.Renews registry withLayout base place after

variable {registry : Registry} {withLayout : Bool} {base : Nat} {originals : List Node}

/-! ### One node -/

/-- A node described well enough is renewed by its entry. -/
theorem Node.Described.renews {blueprint : Blueprint} {before made : Node}
    (described : before.Described registry withLayout blueprint)
    (remade : made.Remade blueprint (before.entry withLayout).fields) {options : ImportOptions}
    (layout : options.layout = withLayout) (grid : Point) {place : Nat}
    (id : made.id = ⟨base + place⟩) :
    before.Renews registry withLayout base place
      (made.applyEntry options grid place (before.entry withLayout)) := by
  have edited := made.applyEntry_eq (remade.fits.plainDistinct described.sound) options grid place
    (ascending_fields before withLayout).nodup
  refine ⟨?_, ?_, ?_, blueprint, described, ?_⟩
  · rw [edited]
    exact id
  · rw [edited]
  · rw [edited]
    exact remade.shown
  · exact restores_applyEntry described.sound described.parted described.fits described.keysFree
      remade options layout grid place

theorem Node.Renews.of_unlinked {place : Nat} {before after other : Node}
    (renews : before.Renews registry withLayout base place after)
    (same : other.unlinked = after.unlinked) :
    before.Renews registry withLayout base place other where
  id := (congrArg Node.id same :).trans renews.id
  order := (congrArg Node.order same :).trans renews.order
  shown := (congrArg Node.previewOnly same :).trans renews.shown
  restores := renews.restores.imp fun _ restored => ⟨restored.1, restored.2.of_unlinked same⟩

namespace Graph

/-! ### All nodes -/

theorem Renews.of_unlinked {graph other : Graph}
    (renews : graph.Renews registry withLayout base originals)
    (same : other.nodes.map Node.unlinked = graph.nodes.map Node.unlinked) :
    other.Renews registry withLayout base originals where
  length := by
    rw [← renews.length, ← List.length_map Node.unlinked, same, List.length_map]
  each place before after isBefore isAfter := by
    have listed := congrArg (·[place]?) same
    simp only [List.getElem?_map, isAfter, Option.map_some] at listed
    obtain ⟨old, isOld, isSame⟩ := Option.map_eq_some_iff.1 listed.symm
    exact (renews.each place before old isBefore isOld).of_unlinked isSame.symm

theorem Renews.exists_node {graph : Graph}
    (renews : graph.Renews registry withLayout base originals) {place : Nat} {before : Node}
    (isBefore : originals[place]? = some before) : ∃ after, graph.nodes[place]? = some after ∧
      before.Renews registry withLayout base place after := by
  have inRange : place < graph.nodes.length := by
    rw [renews.length]
    exact (List.getElem?_eq_some_iff.1 isBefore).1
  exact ⟨_, List.getElem?_eq_getElem inRange,
    renews.each place before _ isBefore (List.getElem?_eq_getElem inRange)⟩

theorem Renews.exists_original {graph : Graph}
    (renews : graph.Renews registry withLayout base originals) {place : Nat} {after : Node}
    (isAfter : graph.nodes[place]? = some after) : ∃ before, originals[place]? = some before ∧
      before.Renews registry withLayout base place after := by
  have inRange : place < originals.length := by
    rw [← renews.length]
    exact (List.getElem?_eq_some_iff.1 isAfter).1
  exact ⟨_, List.getElem?_eq_getElem inRange,
    renews.each place _ after (List.getElem?_eq_getElem inRange) isAfter⟩

/-- A place of the nodes is known from the id. -/
theorem Renews.findIdx?_eq {graph : Graph}
    (renews : graph.Renews registry withLayout base originals) {place : Nat}
    (inRange : place < graph.nodes.length) :
    graph.nodes.findIdx? (fun node => node.id = ⟨base + place⟩) = some place := by
  have id (spot : Nat) (inRange : spot < graph.nodes.length) :
      graph.nodes[spot].id = ⟨base + spot⟩ := by
    obtain ⟨before, -, renewed⟩ := renews.exists_original (List.getElem?_eq_getElem inRange)
    exact renewed.id
  rw [List.findIdx?_eq_some_iff_getElem]
  refine ⟨inRange, by simp [id place inRange], fun earlier less => ?_⟩
  rw [id earlier (less.trans inRange)]
  simp [Nat.ne_of_lt less]

/-- A new node may be changed at once, and the others stay as they are. -/
theorem nodes_modifyNode_addNode {graph : Graph} {make : NodeId → Node}
    (fresh : (make ⟨graph.nextNode⟩).id = ⟨graph.nextNode⟩)
    (apart : ∀ node ∈ graph.nodes, node.id ≠ ⟨graph.nextNode⟩) (change : Node → Node) :
    ((graph.addNode make).2.modifyNode ⟨graph.nextNode⟩ change).nodes =
      graph.nodes ++ [change (make ⟨graph.nextNode⟩)] := by
  show (graph.nodes ++ [make ⟨graph.nextNode⟩]).map _ = _
  rw [List.map_append, List.map_singleton, if_pos fresh]
  refine congrArg (· ++ _) ((List.map_congr_left fun node member => ?_).trans (List.map_id _))
  exact if_neg (apart node member)

end Graph

/-- The next id is not that of a node. -/
theorem Graph.Renews.id_ne {graph : Graph}
    (renews : graph.Renews registry withLayout base originals) {node : Node}
    (member : node ∈ graph.nodes) : node.id ≠ ⟨base + originals.length⟩ := by
  intro same
  obtain ⟨place, isNode⟩ := List.mem_iff_getElem?.1 member
  obtain ⟨before, isBefore, renewed⟩ := renews.exists_original isNode
  have inRange := (List.getElem?_eq_some_iff.1 isBefore).1
  rw [renewed.id, NodeId.mk.injEq] at same
  omega

theorem Graph.Renews.concat {graph after : Graph}
    (renews : graph.Renews registry withLayout base originals) {node made : Node}
    (nodes : after.nodes = graph.nodes ++ [made])
    (last : node.Renews registry withLayout base originals.length made) :
    after.Renews registry withLayout base (originals ++ [node]) := by
  refine ⟨?_, fun place old new isOld isNew => ?_⟩
  · rw [nodes, List.length_append, List.length_append, renews.length]
    rfl
  · rw [nodes] at isNew
    rw [List.getElem?_append] at isOld isNew
    rw [renews.length] at isNew
    split at isOld
    · next inRange =>
      rw [if_pos inRange] at isNew
      exact renews.each place old new isOld isNew
    · next beyond =>
      rw [if_neg beyond] at isNew
      obtain ⟨alone, -⟩ := List.getElem?_eq_some_iff.1 isOld
      obtain rfl : place = originals.length := by
        rw [List.length_singleton] at alone
        omega
      rw [Nat.sub_self] at isOld isNew
      cases isOld
      cases isNew
      exact last

/-! ### Reading the entries -/

/-- What is there once the entries of some nodes were read. -/
structure Importing.HasNodes (registry : Registry) (withLayout : Bool) (start : Graph)
    (originals : List Node) (importing : Importing) : Prop where
  renews : importing.graph.Renews registry withLayout start.nextNode originals
  nextNode : importing.graph.nextNode = start.nextNode + originals.length
  created : importing.created =
    (List.range originals.length).map fun place => some ⟨start.nextNode + place⟩
  report : importing.report = { nodes := originals.length }
  links : importing.graph.links = start.links
  kind : importing.graph.kind = start.kind
  metadata : importing.graph.metadata = start.metadata

open Workflow.Graph in
/-- Reading one more entry. -/
theorem Importing.HasNodes.addNode {start : Graph} {importing : Importing}
    (has : importing.HasNodes registry withLayout start originals) {node : Node}
    {blueprint : Blueprint} (described : node.Described registry withLayout blueprint)
    {options : ImportOptions} (layout : options.layout = withLayout) (columns : Nat) :
    (importing.addNode registry options columns (node.entry withLayout)).HasNodes registry
      withLayout start (originals ++ [node]) := by
  obtain ⟨make, isMade, fresh, remade⟩ := described.again importing.graph
  have index : importing.created.length = originals.length := by
    rw [has.created, List.length_map, List.length_range]
  have apart : ∀ other ∈ importing.graph.nodes, other.id ≠ ⟨importing.graph.nextNode⟩ := by
    intro other member
    rw [has.nextNode]
    exact has.renews.id_ne member
  have id : (make ⟨importing.graph.nextNode⟩).id = ⟨start.nextNode + originals.length⟩ := by
    rw [fresh, has.nextNode]
  have added : importing.addNode registry options columns (node.entry withLayout) =
      { graph := (importing.graph.addNode make).2.modifyNode ⟨importing.graph.nextNode⟩ fun made =>
          made.applyEntry options (options.gridPoint columns originals.length) originals.length
            (node.entry withLayout)
        created := importing.created ++ [some ⟨importing.graph.nextNode⟩]
        report := { importing.report with nodes := importing.report.nodes + 1 } } := by
    rw [Importing.addNode, isMade, index]
    rfl
  have nodes := nodes_modifyNode_addNode fresh apart fun made =>
    made.applyEntry options (options.gridPoint columns originals.length) originals.length
      (node.entry withLayout)
  rw [added]
  refine ⟨has.renews.concat nodes (described.renews remade layout _ id), ?_, ?_, ?_, has.links,
    has.kind, has.metadata⟩
  · show importing.graph.nextNode + 1 = _
    rw [has.nextNode, List.length_append]
    rfl
  · show importing.created ++ [some _] = _
    rw [has.created, has.nextNode, List.length_append, List.length_singleton, List.range_succ,
      List.map_append]
    rfl
  · show { importing.report with nodes := importing.report.nodes + 1 } = _
    rw [has.report, List.length_append]
    rfl

/-- Every entry of nodes that are described makes its node. -/
theorem Importing.hasNodes_foldl (start : Graph) (empty : start.nodes = [])
    {options : ImportOptions} (layout : options.layout = withLayout) (columns : Nat)
    (described : ∀ node ∈ originals, ∃ blueprint, node.Described registry withLayout blueprint) :
    ((originals.map fun node => node.entry withLayout).foldl
      (Importing.addNode registry options columns) { graph := start }).HasNodes registry
        withLayout start originals := by
  induction originals using List.reverseRecOn with
  | nil =>
    refine ⟨⟨congrArg List.length empty, fun place before after isBefore _ => ?_⟩, rfl, rfl, rfl,
      rfl, rfl, rfl⟩
    rw [List.getElem?_nil] at isBefore
    cases isBefore
  | append_singleton originals node inductionHypothesis =>
    obtain ⟨blueprint, isDescribed⟩ := described node (List.mem_append_right _ List.mem_cons_self)
    have has := inductionHypothesis fun other member =>
      described other (List.mem_append_left _ member)
    rw [List.map_append, List.foldl_append]
    exact has.addNode isDescribed layout columns

end Workflow
