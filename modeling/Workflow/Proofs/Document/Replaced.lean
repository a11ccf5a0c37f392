/-
This file proves that an import replaces everything.

The same document is read into two graphs side by side. Nodes are made of the same
models and entries, slots are found in the same places, and an edge is skipped in one
graph if it is skipped in the other. So what comes out is the same but for the ids,
which go on from where the counters of the graphs stood, and for the identifiers that
are minted for notes. What the graphs held before plays no part in it.
-/

import Workflow.Proofs.Document.Accounts
import Workflow.Proofs.Graph.Renaming
import Workflow.Proofs.Graph.Run
import Workflow.Proofs.Node.Names

namespace Workflow

/-! ### Reports with renamed ids -/

def EdgeProblem.renamed (ids : Renaming) : EdgeProblem → EdgeProblem
  | refused error => refused (error.renamed ids)
  | problem => problem

def ImportReport.renamed (ids : Renaming) (report : ImportReport) : ImportReport :=
  { report with
    skippedEdges := report.skippedEdges.map fun skipped => (skipped.1, skipped.2.renamed ids) }

/-! ### Nodes made alike -/

namespace Node

variable {ids : Renaming} {seed other : Seed} {node copy : Node}

namespace Mirrors

variable (mirrors : node.Mirrors ids seed other copy)

include mirrors

theorem slotNamed?_eq (direction : Direction) (name : String) :
    copy.slotNamed? direction name = node.slotNamed? direction name := by
  rw [slotNamed?, slotNamed?, mirrors.slots_eq]

theorem slotShown?_eq (direction : Direction) (name : String) :
    copy.slotShown? direction name = node.slotShown? direction name := by
  rw [slotShown?, slotShown?, shownNames_eq, shownNames_eq, mirrors.slots_eq]

theorem keyedName?_eq (direction : Direction) (name : String) :
    copy.keyedName? direction name = node.keyedName? direction name := by
  rw [keyedName?, keyedName?, mirrors.multiSlots_eq]

theorem setNative (entry : String × Json) :
    (node.setNative entry).Mirrors ids seed other (copy.setNative entry) := by
  rw [Node.setNative, Node.setNative, inputFor?, inputFor?, mirrors.slots_eq]
  split
  · exact mirrors
  · exact mirrors.reviseInput _ fun _ => rfl

theorem applyEntry (options : ImportOptions) (grid : Point) (index : Nat) (entry : NodeEntry) :
    (node.applyEntry options grid index entry).Mirrors ids seed other
      (copy.applyEntry options grid index entry) := by
  refine List.foldl_rel ?_ fun entry _ _ _ mirrors => mirrors.setNative entry
  cases entry.appearance with
  | none =>
    exact mirrors.map (fun node => { node with order := some index, position := grid }) rfl rfl
      fun _ => rfl
  | some appearance =>
    exact mirrors.map
      (fun node => { node with
        order := some index
        position := if options.layout then appearance.position.getD grid else grid
        size := if options.layout then appearance.size.getD node.size else node.size
        title := appearance.title
        displayName := appearance.name
        color := appearance.color
        extra := appearance.others }) rfl rfl fun _ => rfl

omit mirrors in
/-- A note of a field is given by the entry, or minted for both nodes. -/
theorem noteGiven (model : Model) (fragment : Object) (place : Nat) (name : String) :
    Option.Rel (fun value twin => NotesMatch seed other node.id copy.id (name, value) (name, twin))
      (noteGiven seed model fragment node place name)
      (noteGiven other model fragment copy place name) := by
  rw [Workflow.noteGiven, Workflow.noteGiven]
  cases Object.get? fragment name with
  | some value => exact .some (.same _)
  | none =>
    rw [Option.none_or, Option.none_or, annotationStart.eq_def, annotationStart.eq_def]
    split
    · rw [runFactory, runFactory]
      split
      · exact .some (.minted name place)
      · exact .none
    · exact .none

/-- Expanding one more field. -/
theorem expandField (model : Model) (fragment : Object) (entry : (Field × Role) × Nat) :
    (node.expandField seed model fragment entry).Mirrors ids seed other
      (copy.expandField other model fragment entry) := by
  obtain ⟨entry, place⟩ := entry
  have notes : List.Forall₂ (NotesMatch seed other node.id copy.id)
      (node.expandField seed model fragment (entry, place)).annotations.entries
      (copy.expandField other model fragment (entry, place)).annotations.entries := by
    rw [annotations_expandField, annotations_expandField]
    split
    · have given : Option.Rel _ (Workflow.noteGiven seed model fragment node place entry.1.name)
        (Workflow.noteGiven other model fragment copy place entry.1.name) := noteGiven ..
      generalize Workflow.noteGiven seed model fragment node place entry.1.name = value,
        Workflow.noteGiven other model fragment copy place entry.1.name = twin at given
      cases given with
      | none => exact mirrors.notes
      | some matched =>
        refine OrderedMap.forall₂_insert (fun _ _ matched => ?_) mirrors.notes matched
        cases matched <;> rfl
    · exact mirrors.notes
  have inputs (keys : List String) : (inputsOfField model keys entry).map (InputSlot.renamed ids) =
      inputsOfField model keys entry := List.map_map
  have outputs (keys : List String) :
      ((slotsOfField .output keys entry).map OutputSlot.ofInfo).map (OutputSlot.renamed ids) =
        (slotsOfField .output keys entry).map OutputSlot.ofInfo := List.map_map
  have rest := mirrors.rest
  rw [expandField_eq, expandField_eq] at notes ⊢
  generalize copy.annotations = held at rest
  subst rest
  refine ⟨?_, notes⟩
  simp only [renamed, List.map_append, List.length_map, inputs, outputs]

end Mirrors

/-- Nodes that one model makes from one entry. -/
theorem mirrors_ofModel {id twin : NodeId} (isTwin : ids.node id = twin) (modelRef : String)
    (model : Model) (fragment : Object) :
    (ofModel seed id modelRef model fragment).Mirrors ids seed other
      (ofModel other twin modelRef model fragment) := by
  refine List.foldl_rel ?_ fun entry _ _ _ mirrors => mirrors.expandField model fragment entry
  subst isTwin
  exact ⟨rfl, .nil⟩

end Node

/-- The nodes of an entry in two graphs. -/
theorem Registry.mirrors_of_maker? {registry : Registry} {entry : NodeEntry}
    {make : Seed → NodeId → Node} (isMaker : registry.maker? entry = some make) {ids : Renaming}
    {id twin : NodeId} (isTwin : ids.node id = twin) (seed other : Seed) :
    (make seed id).Mirrors ids seed other (make other twin) := by
  rw [maker?] at isMaker
  split at isMaker
  · cases isMaker
    subst isTwin
    exact ⟨rfl, .nil⟩
  · obtain ⟨modelRef, -, isMade⟩ := Option.bind_eq_some_iff.1 isMaker
    obtain ⟨model, -, rfl⟩ := Option.map_eq_some_iff.1 isMade
    exact Node.mirrors_ofModel isTwin modelRef model entry.fields

/-! ### Edges side by side -/

namespace Graph.Parallel

variable {start other graph copy : Graph} (parallel : Parallel start other graph copy)

include parallel

theorem resolveSlot {id : NodeId} (isNew : start.nextNode ≤ id.number) (direction : Direction)
    (name : String) : Option.Rel (SamePlace start other) (graph.resolveSlot id direction name)
      (copy.resolveSlot ((Renaming.between start other).node id) direction name) := by
  have found := parallel.node? isNew
  rw [Graph.resolveSlot, Graph.resolveSlot]
  generalize graph.node? id = held, copy.node? _ = twin at found
  cases found with
  | none => exact .none
  | @some node twin mirrors =>
    dsimp only
    rw [mirrors.slotNamed?_eq, mirrors.slotShown?_eq, mirrors.keyedName?_eq, mirrors.slots_eq]
    split
    · exact .some ⟨rfl, parallel⟩
    · split
      · exact parallel.addKey isNew _ _
      · split <;> split
        · exact .some ⟨rfl, parallel⟩
        · exact .none
        · exact .some ⟨rfl, parallel⟩
        · exact .none

/-- An edge is skipped in both graphs for the same reason, or linked in both. -/
theorem linkEdge {created : List (Option NodeId)}
    (areNew : ∀ id, some id ∈ created → start.nextNode ≤ id.number) (edge : EdgeEntry) :
    let ids := Renaming.between start other
    let made := graph.linkEdge created edge
    let twin := copy.linkEdge (created.map (Option.map ids.node)) edge
    Parallel start other made.1 twin.1 ∧
      ((∃ problem, made.2 = .error problem ∧ twin.2 = .error (problem.renamed ids)) ∨
        ∃ id, start.nextLink ≤ id.number ∧ made.2 = .ok id ∧ twin.2 = .ok (ids.link id)) := by
  intro ids made twin
  have owner (place : Nat) : ((created.map (Option.map ids.node))[place]?).join =
      ((created[place]?).join).map ids.node := by
    rw [List.getElem?_map]
    rcases created[place]? with _ | _ | id <;> rfl
  have isNew {place : Nat} {id : NodeId} (isOwner : (created[place]?).join = some id) :
      start.nextNode ≤ id.number :=
    areNew id (List.mem_of_getElem? (Option.join_eq_some_iff.1 isOwner))
  simp only [made, twin, Graph.linkEdge, owner]
  rcases isSource : (created[edge.source]?).join with _ | source
  · exact ⟨parallel, Or.inl ⟨_, rfl, rfl⟩⟩
  rcases isTarget : (created[edge.target]?).join with _ | target
  · exact ⟨parallel, Or.inl ⟨_, rfl, rfl⟩⟩
  have outputs := parallel.resolveSlot (isNew isSource) .output edge.sourceSlot
  dsimp only [Option.map_some]
  generalize graph.resolveSlot source .output edge.sourceSlot = found,
    copy.resolveSlot _ .output edge.sourceSlot = copied at outputs
  cases outputs with
  | none => exact ⟨parallel, Or.inl ⟨_, rfl, rfl⟩⟩
  | @some found copied same =>
  obtain ⟨_, withOutput⟩ := found
  obtain ⟨originSlot, copyOutput⟩ := copied
  obtain ⟨rfl, parallel⟩ := same
  have inputs := parallel.resolveSlot (isNew isTarget) .input edge.targetSlot
  dsimp only at inputs ⊢
  generalize withOutput.resolveSlot target .input edge.targetSlot = found,
    copyOutput.resolveSlot _ .input edge.targetSlot = copied at inputs
  cases inputs with
  | none => exact ⟨parallel, Or.inl ⟨_, rfl, rfl⟩⟩
  | @some found copied same =>
  obtain ⟨_, withInput⟩ := found
  obtain ⟨targetSlot, copyInput⟩ := copied
  obtain ⟨rfl, parallel⟩ := same
  dsimp only at parallel ⊢
  obtain ⟨problem, refused, alsoRefused⟩ | ⟨linked, alsoLinked⟩ :=
    parallel.connect (isNew isSource) (isNew isTarget) originSlot targetSlot
  · rw [refused, alsoRefused]
    exact ⟨parallel, Or.inl ⟨_, rfl, rfl⟩⟩
  · rw [linked, alsoLinked]
    exact ⟨parallel.addLink (isNew isSource) (isNew isTarget) originSlot targetSlot,
      Or.inr ⟨⟨withInput.nextLink⟩, parallel.newLink_next, rfl,
        congrArg Except.ok parallel.link_next.symm⟩⟩

end Graph.Parallel

namespace Importing

/-- A document that is read into two graphs so far. -/
structure Parallel (start other : Graph) (importing copy : Importing) : Prop where
  graph : Graph.Parallel start other importing.graph copy.graph
  created : copy.created = importing.created.map (Option.map (Renaming.between start other).node)
  areNew : ∀ id, some id ∈ importing.created → start.nextNode ≤ id.number
  report : copy.report = importing.report.renamed (.between start other)

namespace Parallel

variable {start other : Graph} {importing copy : Importing}
  (parallel : Parallel start other importing copy)

include parallel

theorem addNode (registry : Registry) (options : ImportOptions) (columns : Nat)
    (entry : NodeEntry) :
    Parallel start other (importing.addNode registry options columns entry)
      (copy.addNode registry options columns entry) := by
  have length : copy.created.length = importing.created.length := by
    rw [parallel.created, List.length_map]
  rw [Importing.addNode, Importing.addNode, Graph.instantiate_eq, Graph.instantiate_eq, length]
  cases isMaker : registry.maker? entry with
  | none =>
    refine ⟨parallel.graph, ?_, fun id member => ?_, ?_⟩
    · show _ = (importing.created ++ [none]).map _
      rw [List.map_append, ← parallel.created]
      rfl
    · rcases List.mem_append.1 member with early | isLast
      · exact parallel.areNew id early
      · cases List.mem_singleton.1 isLast
    · show ({ copy.report with skippedNodes := _ } : ImportReport) = _
      rw [parallel.report]
      rfl
  | some make =>
    have isNext := parallel.graph.node_next
    have made := (parallel.graph.addNode (Registry.id_of_maker? isMaker _ _)
      (Registry.mirrors_of_maker? isMaker isNext _ _)).modifyNode parallel.graph.newNode_next
        (fun node => (congrArg NodeHead.id (node.head_applyEntry options _ _ entry) :))
        fun _ _ mirrors => mirrors.applyEntry options
          (options.gridPoint columns importing.created.length) importing.created.length entry
    rw [isNext] at made
    refine ⟨made, ?_, fun id member => ?_, ?_⟩
    · show copy.created ++ [some ⟨copy.graph.nextNode⟩] = (importing.created ++ [some _]).map _
      rw [List.map_append, ← parallel.created, ← isNext]
      rfl
    · rcases List.mem_append.1 member with early | isLast
      · exact parallel.areNew id early
      · cases List.mem_singleton.1 isLast
        exact parallel.graph.newNode_next
    · show ({ copy.report with nodes := copy.report.nodes + 1 } : ImportReport) = _
      rw [parallel.report]
      rfl

theorem addEdge (entry : EdgeEntry × Nat) :
    Parallel start other (importing.addEdge entry) (copy.addEdge entry) := by
  obtain ⟨edge, index⟩ := entry
  obtain ⟨linked, outcome⟩ := parallel.graph.linkEdge parallel.areNew edge
  rw [← parallel.created] at linked outcome
  rcases isMade : importing.graph.linkEdge importing.created edge with ⟨graph, made⟩
  rcases isTwin : copy.graph.linkEdge copy.created edge with ⟨copied, twin⟩
  rw [isMade, isTwin] at linked outcome
  obtain ⟨problem, rfl, rfl⟩ | ⟨id, isNew, rfl, rfl⟩ := outcome
  · rw [addEdge_of_error index isMade, addEdge_of_error index isTwin]
    refine ⟨linked, parallel.created, parallel.areNew, ?_⟩
    rw [parallel.report]
    simp only [ImportReport.renamed, List.map_append, List.map_singleton]
  · rw [addEdge_of_ok index isMade, addEdge_of_ok index isTwin]
    refine ⟨linked.modifyLink isNew (fun _ => rfl) fun _ => rfl, parallel.created,
      parallel.areNew, ?_⟩
    rw [parallel.report]
    rfl

end Parallel

end Importing

/-! ### The whole document -/

/-- A graph that holds what a document made and nothing of what was there before. -/
structure Document.Replaces (document : Document) (registry : Registry) (before after : Graph) :
    Prop where
  kind : after.kind = some document.kind
  metadata : after.metadata = document.metadata
  nodes : ∀ node ∈ after.nodes, node.id ∉ before.nodeIds
  links : ∀ link ∈ after.links, ∀ old ∈ before.links, link.id ≠ old.id
  /-- Nodes have the slots of models that the entries of the document lead to. -/
  made : ∀ node ∈ after.nodes, node.MadeFor registry document.nodes
  ends : ∀ link ∈ after.links, ∀ direction, ∃ port, after.endPort? link direction = some port
  references : ∀ node ∈ after.nodes, ∀ direction, ∀ port ∈ node.ports direction,
    ∀ id ∈ port.links, ∃ link ∈ after.links, link.id = id

namespace Graph

theorem parallel_importDocument (graph other : Graph) (registry : Registry) (document : Document)
    (options : ImportOptions) :
    Importing.Parallel (graph.emptied document) (other.emptied document)
      (graph.importing registry document options document.edges.length)
      (other.importing registry document options document.edges.length) := by
  refine List.foldl_rel ?_ fun entry _ _ _ parallel => parallel.addEdge entry
  refine List.foldl_rel ?_ fun entry _ _ _ parallel =>
    parallel.addNode registry options (options.columnsFor document.nodes.length) entry
  exact ⟨.empty rfl rfl rfl rfl rfl rfl, rfl, fun _ member => absurd member List.not_mem_nil, rfl⟩

/-- Whatever two graphs held before, a document makes the same of both but for ids and minted
identifiers, and nothing of what they held is left. -/
theorem replaces_run (operations others : List Operation) (resolution : Resolution)
    (changes : List Registry.Change) (document : Document) (options : ImportOptions) :
    let registry := Registry.run resolution changes
    let first := (run operations).importDocument registry document options
    let second := (run others).importDocument registry document options
    (∃ ids : Renaming, ids.Ascends first.2 ∧ first.2.Mirrors ids second.2 ∧
        second.1 = first.1.renamed ids) ∧
      document.Replaces registry (run operations) first.2 := by
  intro registry first second
  have orderly := Registry.orderly_run resolution changes
  have tied := tied_run operations
  have parallel := parallel_importDocument (run operations) (run others) registry document options
  have edges : ((run operations).importing registry document options
    document.edges.length).EdgesRead _ _ := edgesRead_importing orderly (Nat.le_refl _)
  have isFirst : first = _ := importDocument_eq (run operations) registry document options
  have isSecond : second = _ := importDocument_eq (run others) registry document options
  rw [isFirst, isSecond]
  refine ⟨⟨_, parallel.graph.ascends, parallel.graph.mirrors, parallel.report⟩,
    parallel.graph.kind, parallel.graph.metadata, fun node member isOld => ?_,
    fun link member old isOld same => ?_,
    fun node member => madeFor_importing orderly (Nat.le_refl _) member,
    fun link member direction => edges.tied.exists_endPort member direction,
    fun node member direction port isPort id refers => ?_⟩
  · -- Ids that were used are below the counters, which an import goes on from.
    exact Nat.not_lt.2 (parallel.graph.newNodes node member) (tied.nodesCounted _ isOld)
  · have counted := tied.linksCounted old isOld
    rw [← same] at counted
    exact Nat.not_lt.2 (parallel.graph.newLinks link member) counted
  · obtain ⟨place, atPlace⟩ := List.mem_iff_getElem?.1 isPort
    obtain ⟨link, isLink, same, -⟩ := edges.tied.exists_link member atPlace refers
    exact ⟨link, isLink, same⟩

end Graph

end Workflow
