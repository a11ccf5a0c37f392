/-
This file says when the edges of a document keep the names of their slots.

If nothing of a document is skipped, every edge makes a link, and the document that is
written at once has an edge for every link again. An end keeps the name of its slot
but for two cases: the name is that of a field with keys which has keys once all edges
are read, so that its placeholder is called by the first of them; or the name leads to
a slot that is only shown under it.
-/

import Workflow.Proofs.Document.Accounts
import Workflow.Proofs.Graph.Growth

namespace Workflow

/-! ### Ends of edges -/

/-- The place of the entry at an end of an edge. -/
def EdgeEntry.place (edge : EdgeEntry) : Direction → Nat
  | .input => edge.target
  | .output => edge.source

/-- The name of the slot at an end of an edge. -/
def EdgeEntry.slotName (edge : EdgeEntry) : Direction → String
  | .input => edge.targetSlot
  | .output => edge.sourceSlot

/-- The edges name slots that the nodes at their ends may have. -/
def Document.NamesSlots (document : Document) (registry : Registry) : Prop :=
  ∀ edge ∈ document.edges, ∀ direction, ∃ entry blueprint,
    document.nodes[edge.place direction]? = some entry ∧
    registry.blueprint? entry.type = some blueprint ∧
    blueprint.Names direction (edge.slotName direction)

/-- An edge that was read in a graph, and how it is written later: it has the same ends and carries
the same, and a slot keeps its name unless the field of this name has keys by then, or the name led
to a slot that is only shown under it. -/
structure EdgeEntry.Rewritten (before after : Graph) (edge written : EdgeEntry) : Prop where
  places : ∀ direction, written.place direction = edge.place direction
  isLoop : written.isLoop = edge.isLoop
  data : written.data = edge.data
  extra : written.extra = edge.extra
  slots : ∀ direction, ∃ old last,
    before.nodes[edge.place direction]? = some old ∧
    after.nodes[edge.place direction]? = some last ∧
    (written.slotName direction = edge.slotName direction ↔
      ¬ last.HasKeys direction (edge.slotName direction) ∧
        ¬ old.Misleads direction (edge.slotName direction))

namespace Blueprint.Names

variable {blueprint : Blueprint} {direction : Direction} {fields : List (String × Role)}
  (known : (blueprint.fields.map fun entry => (entry.1.name, entry.2)) = fields) {name : String}

include known

/-- The name of a field may be used if the field is among those that are known. -/
theorem of_field (isMulti : Bool) (listed : (name, direction.role isMulti) ∈ fields) :
    blueprint.Names direction name := by
  rw [← known] at listed
  obtain ⟨entry, isField, same⟩ := List.mem_map.1 listed
  obtain ⟨rfl, role⟩ := Prod.mk.inj same
  exact .field isField isMulti role

theorem of_key {key : String} (listed : (name, direction.keyedRole) ∈ fields) (named : key ≠ "")
    (trimmed : trimKey key = key) : blueprint.Names direction (name ++ "." ++ key) := by
  rw [← known] at listed
  obtain ⟨entry, isField, same⟩ := List.mem_map.1 listed
  obtain ⟨rfl, role⟩ := Prod.mk.inj same
  exact .key isField role named trimmed

end Blueprint.Names

/-- The ends of an edge are those of the link that it was written for. -/
theorem Graph.edge_ends {nodes : List Node} {link : Link} {written : EdgeEntry}
    (isEdge : Graph.edge nodes link = some written) (direction : Direction) :
    ∃ node info, nodes[written.place direction]? = some node ∧
      node.id = (link.endAt direction).1 ∧
      (node.slots direction)[(link.endAt direction).2]? = some info ∧
      info.internalName = written.slotName direction := by
  obtain ⟨origin, target, output, input, joins, originId, targetId, isOutput, isInput⟩ :=
    edge_cases isEdge
  cases direction with
  | output =>
    exact ⟨origin, output.info, joins.isOrigin, originId, Node.getElem?_slots_output isOutput,
      joins.sourceSlot⟩
  | input =>
    exact ⟨target, input.info, joins.isTarget, targetId, Node.getElem?_slots_input isInput,
      joins.targetSlot⟩

/-- The nodes at the ends of a link were made for the entries at the places of the edge. -/
theorem Link.Joins.owner {place? : NodeId → Option Nat} {edge : EdgeEntry} {link : Link}
    (joins : link.Joins place? edge) (direction : Direction) :
    place? (link.endAt direction).1 = some (edge.place direction) := by
  cases direction with
  | output => exact joins.source
  | input => exact joins.target

/-- Edges that were skipped stay in the report. -/
theorem Importing.skippedEdges_foldl_addEdge (importing : Importing)
    (entries : List (EdgeEntry × Nat)) :
    importing.report.skippedEdges <+:
      (entries.foldl Importing.addEdge importing).report.skippedEdges := by
  refine List.foldlRecOn
    (motive := fun later => importing.report.skippedEdges <+: later.report.skippedEdges)
    entries Importing.addEdge List.prefix_rfl fun later earlier entry _ => earlier.trans ?_
  rw [Importing.addEdge]
  split
  · exact List.prefix_append _ _
  · exact List.prefix_rfl

namespace Graph

/-! ### One edge -/

/-- What reading an edge comes to that is not skipped: a link is added, and it can be said of both
of its ends whether they have the names of the edge later. -/
structure ReadsEdge (before after : Graph) (edge : EdgeEntry) (link : Link) : Prop where
  links : after.links = before.links ++ [link]
  grows : before.Grows after
  ends : ∀ direction node blueprint, before.node? (link.endAt direction).1 = some node →
    blueprint.Sound → node.Fits blueprint →
    blueprint.Names direction (edge.slotName direction) →
    ∀ final last, after.Grows final → final.node? (link.endAt direction).1 = some last →
      last.Fits blueprint → ∃ info, (last.slots direction)[(link.endAt direction).2]? = some info ∧
        (info.internalName = edge.slotName direction ↔
          ¬ last.HasKeys direction (edge.slotName direction) ∧
            ¬ node.Misleads direction (edge.slotName direction))

theorem readsEdge_linkEdge {graph linked : Graph} (tied : graph.Tied)
    {created : List (Option NodeId)} {edge : EdgeEntry} {id : LinkId}
    (isLinked : graph.linkEdge created edge = (linked, .ok id))
    (known : ∀ direction id, (created[edge.place direction]?).join = some id →
      ∃ node blueprint, graph.node? id = some node ∧ blueprint.Sound ∧ node.Fits blueprint ∧
        blueprint.Names direction (edge.slotName direction)) :
    ∃ link, graph.ReadsEdge (linked.modifyLink id fun link =>
      { link with isLoop := edge.isLoop, data := edge.data, extra := edge.extra }) edge link := by
  obtain ⟨source, target, originSlot, withOutput, targetSlot, withInput, isSource, isTarget,
    isOutput, isInput, isConnected⟩ := linkEdge_cases isLinked
  obtain ⟨added, -⟩ := connect_cases isConnected
  obtain rfl : id = ⟨withInput.nextLink⟩ := congrArg Prod.fst added
  obtain rfl : linked = (withInput.addLink source originSlot target targetSlot).2 :=
    congrArg Prod.snd added
  obtain ⟨origin, originBlueprint, isOrigin, originSound, originFits, originNames⟩ :=
    known .output source isSource
  obtain ⟨consumer, blueprint, isConsumer, sound, fits, names⟩ := known .input target isTarget
  have output : Edits (fun _ => False) False graph withOutput := edits_resolveSlot tied isOutput
  have input : Edits (fun _ => False) False withOutput withInput :=
    edits_resolveSlot (output.tied tied) isInput
  obtain ⟨between, isBetween, sameSlots⟩ :=
    slots_resolveSlot originSound originFits isOrigin originNames isOutput isConsumer
      (show Direction.input ≠ Direction.output by decide)
  have outputGrows := grows_resolveSlot originSound originFits isOrigin originNames isOutput
  have inputGrows := grows_resolveSlot sound (output.fits tied isConsumer isBetween fits)
    isBetween names isInput
  have linkGrows : withInput.Grows
      ((withInput.addLink source originSlot target targetSlot).2.modifyLink ⟨withInput.nextLink⟩
        fun link => { link with isLoop := edge.isLoop, data := edge.data, extra := edge.extra }) :=
    grows_of_unlinked (withInput.unlinked_addLink source originSlot target targetSlot)
  have same := (sameButSlots_resolveSlot isOutput).trans (sameButSlots_resolveSlot isInput)
  have links := links_modifyLink_addLink (input.tied (output.tied tied)) source originSlot target
    targetSlot fun link =>
      { link with isLoop := edge.isLoop, data := edge.data, extra := edge.extra }
  rw [same.links] at links
  refine ⟨_, links, outputGrows.trans (inputGrows.trans linkGrows), fun direction => ?_⟩
  cases direction with
  | output =>
    intro node blueprint isNode sound fits names final last grows isLast fitsLast
    exact internalName_resolveSlot sound fits isNode names isOutput
      (inputGrows.trans (linkGrows.trans grows)) isLast fitsLast
  | input =>
    intro node blueprint isNode sound fits names final last grows isLast fitsLast
    obtain rfl := Option.some.inj (isConsumer.symm.trans isNode)
    have misleads : between.Misleads .input (edge.slotName .input) ↔
        consumer.Misleads .input (edge.slotName .input) := by
      rw [Node.Misleads, Node.Misleads, sameSlots]
    rw [← misleads]
    exact internalName_resolveSlot sound (output.fits tied isConsumer isBetween fits) isBetween
      names isInput (linkGrows.trans grows) isLast fitsLast

/-! ### Edges one after the other -/

section Reading

variable {graph : Graph} {registry : Registry} {document : Document} {options : ImportOptions}
  (orderly : registry.Orderly)

include orderly

/-- The node at an end of an edge fits what its entry says, and the edge names a slot of it. -/
theorem exists_named {count : Nat} (inRange : count ≤ document.edges.length)
    (named : document.NamesSlots registry) {edge : EdgeEntry} (member : edge ∈ document.edges)
    {direction : Direction} {id : NodeId}
    (isOwner : (graph.importing registry document options 0).graph.place? id =
      some (edge.place direction)) :
    ∃ node entry blueprint,
      (graph.importing registry document options count).graph.node? id = some node ∧
      node.order = some (edge.place direction) ∧
      document.nodes[edge.place direction]? = some entry ∧
      registry.blueprint? entry.type = some blueprint ∧ blueprint.Sound ∧
      node.Fits blueprint ∧ blueprint.Names direction (edge.slotName direction) := by
  have edges : (graph.importing registry document options count).EdgesRead _ _ :=
    edgesRead_importing orderly inRange
  rw [← place?_congr edges.heads] at isOwner
  obtain ⟨node, isNode, order⟩ := Option.bind_eq_some_iff.1 isOwner
  obtain ⟨-, place, entry, blueprint, isOrder, isEntry, isBlueprint, sound, fits⟩ :=
    madeFor_importing orderly inRange (mem_of_node? isNode).1
  obtain rfl : edge.place direction = place := Option.some.inj (order.symm.trans isOrder)
  obtain ⟨other, _, isOther, sameBlueprint, names⟩ := named edge member direction
  obtain rfl := Option.some.inj (isEntry.symm.trans isOther)
  obtain rfl := Option.some.inj (isBlueprint.symm.trans sameBlueprint)
  exact ⟨node, entry, blueprint, isNode, order, isEntry, isBlueprint, sound, fits, names⟩

/-- If no entry is skipped, nodes are at the places of their entries. -/
theorem orders_importing (clean : (graph.importing registry document options
      document.edges.length).report.skippedNodes = []) {count : Nat}
    (inRange : count ≤ document.edges.length) {place : Nat} {node : Node}
    (isNode : (graph.importing registry document options count).graph.nodes[place]? = some node) :
    node.order = some place := by
  have nodes : (graph.importing registry document options 0).NodesRead _ _ :=
    nodesRead_importing orderly
  have last : (graph.importing registry document options document.edges.length).EdgesRead _ _ :=
    edgesRead_importing orderly (Nat.le_refl _)
  have edges : (graph.importing registry document options count).EdgesRead _ _ :=
    edgesRead_importing orderly inRange
  have accounts := nodes.accounts
  rw [← edges.orders_eq, ← last.skippedNodes, clean] at accounts
  obtain ⟨entry, -, order⟩ := accounts.exists_item (List.getElem?_map.trans (congrArg _ isNode))
  exact order

omit orderly in
/-- If no edge is skipped in the end, none was skipped before. -/
theorem skippedEdges_importing
    (clean : (graph.importing registry document options
      document.edges.length).report.skippedEdges = []) (count : Nat) :
    (graph.importing registry document options count).report.skippedEdges = [] := by
  have rest : graph.importing registry document options document.edges.length =
      (document.edges.zipIdx.drop count).foldl Importing.addEdge
        (graph.importing registry document options count) := by
    rw [importing, importing, ← List.foldl_append, List.take_append_drop,
      List.take_of_length_le (Nat.le_of_eq List.length_zipIdx)]
  have kept := (graph.importing registry document options count).skippedEdges_foldl_addEdge
    (document.edges.zipIdx.drop count)
  rw [← rest, clean] at kept
  exact List.prefix_nil.1 kept

variable (clean : (graph.importing registry document options
    document.edges.length).report.skippedEdges = [])
  (named : document.NamesSlots registry)

include clean named

/-- If nothing is skipped, every edge makes a link. -/
theorem readsEdge_importing {place : Nat} {edge : EdgeEntry}
    (isEdge : document.edges[place]? = some edge) :
    ∃ link, (graph.importing registry document options place).graph.ReadsEdge
      (graph.importing registry document options (place + 1)).graph edge link := by
  have inRange := (List.getElem?_eq_some_iff.1 isEdge).1
  have nodes : (graph.importing registry document options 0).NodesRead _ _ :=
    nodesRead_importing orderly
  have edges : (graph.importing registry document options place).EdgesRead _ _ :=
    edgesRead_importing orderly (Nat.le_of_lt inRange)
  have cleanNext := skippedEdges_importing clean (place + 1)
  rw [importing_succ graph registry options isEdge] at cleanNext ⊢
  rcases isOutcome : (graph.importing registry document options place).graph.linkEdge
    (graph.importing registry document options place).created edge with ⟨linked, outcome⟩
  cases outcome with
  | error problem =>
    rw [Importing.addEdge_of_error _ isOutcome] at cleanNext
    exact absurd cleanNext (List.append_ne_nil_of_right_ne_nil _ (List.cons_ne_nil _ _))
  | ok id =>
    rw [Importing.addEdge_of_ok _ isOutcome]
    refine readsEdge_linkEdge edges.tied isOutcome fun direction id isOwner => ?_
    rw [edges.created] at isOwner
    obtain ⟨node, -, blueprint, isNode, -, -, -, known⟩ := exists_named orderly
      (Nat.le_of_lt inRange) named (List.mem_of_getElem? isEdge) (nodes.owners _ id isOwner)
    exact ⟨node, blueprint, isNode, known⟩

/-- What was read stays while the edges are read that are left. -/
theorem stays_importing {place count : Nat} (later : place ≤ count)
    (inRange : count ≤ document.edges.length) :
    (graph.importing registry document options place).graph.links <+:
        (graph.importing registry document options count).graph.links ∧
      (graph.importing registry document options place).graph.Grows
        (graph.importing registry document options count).graph := by
  induction count, later using Nat.le_induction with
  | base => exact ⟨List.prefix_rfl, .refl _⟩
  | succ count _ inductionHypothesis =>
    obtain ⟨links, grows⟩ := inductionHypothesis (Nat.le_of_succ_le inRange)
    obtain ⟨link, reads⟩ := readsEdge_importing orderly clean named
      (List.getElem?_eq_getElem inRange)
    refine ⟨links.trans ?_, grows.trans reads.grows⟩
    rw [reads.links]
    exact List.prefix_append _ _

/-- The link of an edge is at its place among all links. -/
theorem exists_link_importing {place : Nat} {edge : EdgeEntry}
    (isEdge : document.edges[place]? = some edge) :
    ∃ link,
      (graph.importing registry document options document.edges.length).graph.links[place]? =
        some link ∧
      link.Joins (graph.importing registry document options 0).graph.place? edge ∧
      (graph.importing registry document options place).graph.ReadsEdge
        (graph.importing registry document options (place + 1)).graph edge link ∧
      (graph.importing registry document options (place + 1)).graph.Grows
        (graph.importing registry document options document.edges.length).graph := by
  have inRange := (List.getElem?_eq_some_iff.1 isEdge).1
  have early : (graph.importing registry document options place).EdgesRead _ _ :=
    edgesRead_importing orderly (Nat.le_of_lt inRange)
  have last : (graph.importing registry document options document.edges.length).EdgesRead _ _ :=
    edgesRead_importing orderly (Nat.le_refl _)
  obtain ⟨link, reads⟩ := readsEdge_importing orderly clean named isEdge
  obtain ⟨⟨rest, whole⟩, grows⟩ :=
    stays_importing orderly clean named (Nat.succ_le_of_lt inRange) (Nat.le_refl _)
  -- Nothing was skipped before, so there are as many links as edges were read.
  have earlier : (graph.importing registry document options place).graph.links.length = place := by
    have count := early.accounts.count
    rw [skippedEdges_importing clean, List.length_take_of_le (Nat.le_of_lt inRange)] at count
    exact count
  have isLink : (graph.importing registry document options
      document.edges.length).graph.links[place]? = some link := by
    rw [← whole, reads.links, List.append_assoc,
      List.getElem?_append_right (Nat.le_of_eq earlier), earlier, Nat.sub_self]
    rfl
  have accounts := last.accounts
  rw [clean, List.take_length] at accounts
  obtain ⟨_, isOther, joins⟩ := accounts.exists_item isLink
  obtain rfl := Option.some.inj (isEdge.symm.trans isOther)
  exact ⟨link, isLink, joins, reads, grows⟩

variable (cleanNodes : (graph.importing registry document options
    document.edges.length).report.skippedNodes = [])

include cleanNodes

omit clean named in
/-- All nodes are written as they stand. -/
theorem documentNodes_importing :
    (graph.importing registry document options document.edges.length).graph.documentNodes =
      (graph.importing registry document options document.edges.length).graph.nodes :=
  documentNodes_eq_nodes
    (fun _ member => (madeFor_importing orderly (Nat.le_refl _) member).shown)
    fun _ _ isNode => orders_importing orderly cleanNodes (Nat.le_refl _) isNode

omit clean named in
/-- All links are written. -/
theorem shows_importing (withLayout : Bool) :
    (graph.importing registry document options document.edges.length).graph.Shows
      (graph.importing registry document options document.edges.length).graph.nodes
      ((graph.importing registry document options document.edges.length).graph.toDocument
        withLayout).edges := by
  have last : (graph.importing registry document options document.edges.length).EdgesRead _ _ :=
    edgesRead_importing orderly (Nat.le_refl _)
  rw [← documentNodes_importing orderly cleanNodes]
  refine shows_toDocument last.tied
    (fun _ member => (madeFor_importing orderly (Nat.le_refl _) member).shown) withLayout
    fun node member => ?_
  obtain ⟨-, _, _, blueprint, -, -, -, sound, fits⟩ :=
    madeFor_importing orderly (Nat.le_refl _) (documentNodes_subset member)
  exact ⟨blueprint, sound, fits⟩

/-- An edge is written in its place. -/
theorem rewritten_importing (withLayout : Bool) {place : Nat} {edge written : EdgeEntry}
    (isEdge : document.edges[place]? = some edge)
    (isWritten : ((graph.importing registry document options document.edges.length).graph.toDocument
      withLayout).edges[place]? = some written) :
    edge.Rewritten (graph.importing registry document options place).graph
      (graph.importing registry document options document.edges.length).graph written := by
  have inRange := (List.getElem?_eq_some_iff.1 isEdge).1
  have member := List.mem_of_getElem? isEdge
  have last : (graph.importing registry document options document.edges.length).EdgesRead _ _ :=
    edgesRead_importing orderly (Nat.le_refl _)
  obtain ⟨link, isLink, joins, reads, grows⟩ := exists_link_importing orderly clean named isEdge
  have isEdgeOf : Graph.edge
      (graph.importing registry document options document.edges.length).graph.nodes link =
        some written := by
    have listed := congrArg (fun edges => edges[place]?)
      (shows_importing orderly cleanNodes withLayout).links
    rw [List.getElem?_map, List.getElem?_map, isLink, isWritten] at listed
    exact Option.some.inj listed
  obtain ⟨isLoop, data, extra⟩ := labels_of_edge isEdgeOf
  have places (direction) : written.place direction = edge.place direction := by
    obtain ⟨node, _, isNode, isEnd, -⟩ := edge_ends isEdgeOf direction
    have owner := joins.owner direction
    rw [← place?_congr last.heads, ← isEnd, place?_of_mem last.tied (List.mem_of_getElem? isNode),
      orders_importing orderly cleanNodes (Nat.le_refl _) isNode] at owner
    exact Option.some.inj owner
  refine ⟨places, isLoop.trans joins.isLoop, data.trans joins.data, extra.trans joins.extra,
    fun direction => ?_⟩
  obtain ⟨final, info, isFinal, isEnd, isSlot, isName⟩ := edge_ends isEdgeOf direction
  obtain ⟨node, entry, blueprint, isNode, order, isEntry, isBlueprint, sound, fits, names⟩ :=
    exists_named orderly (Nat.le_of_lt inRange) named member (joins.owner direction)
  obtain ⟨other, _, _, isOther, -, sameEntry, sameBlueprint, -, fitsFinal, -⟩ :=
    exists_named orderly (Nat.le_refl document.edges.length) named member (joins.owner direction)
  obtain rfl := Option.some.inj (isEntry.symm.trans sameEntry)
  obtain rfl := Option.some.inj (isBlueprint.symm.trans sameBlueprint)
  have isLast := node?_of_mem last.tied.nodesAscend (List.mem_of_getElem? isFinal)
  rw [isEnd] at isLast
  obtain rfl := Option.some.inj (isLast.symm.trans isOther)
  obtain ⟨_, isInfo, named⟩ :=
    reads.ends direction node blueprint isNode sound fits names _ final grows isLast fitsFinal
  obtain rfl := Option.some.inj (isSlot.symm.trans isInfo)
  rw [places direction] at isFinal
  -- A node stands at the place that it was made for, also when the edge was read.
  obtain ⟨place, isOld⟩ := List.mem_iff_getElem?.1 (mem_of_node? isNode).1
  have isPlace := orders_importing orderly cleanNodes (Nat.le_of_lt inRange) isOld
  rw [order] at isPlace
  obtain rfl := Option.some.inj isPlace
  exact ⟨node, final, isOld, isFinal, isName ▸ named⟩

end Reading

/-- If an import skips nothing, all nodes and links are written as they stand. -/
theorem edges_eq_importDocument {graph : Graph} {resolution : Resolution}
    {changes : List Registry.Change} {document : Document} {options : ImportOptions}
    (clean : (graph.importDocument (Registry.run resolution changes) document
      options).1.isClean = true) (withLayout : Bool) :
    ((graph.importDocument (Registry.run resolution changes) document options).2.toDocument
        withLayout).edges =
      (graph.importDocument (Registry.run resolution changes) document options).2.links.filterMap
        (edge (graph.importDocument (Registry.run resolution changes) document
          options).2.nodes) := by
  have orderly := Registry.orderly_run resolution changes
  rw [importDocument_eq] at clean ⊢
  have last : (graph.importing (Registry.run resolution changes) document options
      document.edges.length).EdgesRead _ _ := edgesRead_importing orderly (Nat.le_refl _)
  have cleanNodes := List.isEmpty_iff.1 (Bool.and_eq_true_iff.1 clean).1
  refine (last.tied.edges_eq withLayout).trans ?_
  rw [documentNodes_importing orderly cleanNodes]

/-- If an import skips nothing and edges name slots that nodes may have, the document that is
written after it has the same edges in the same order, but for the names of placeholders of fields
that got keys, and of slots that were found because they are shown under another name. -/
theorem edges_importDocument (graph : Graph) (resolution : Resolution)
    (changes : List Registry.Change) (document : Document) (options : ImportOptions)
    (withLayout : Bool)
    (clean : (graph.importDocument (Registry.run resolution changes) document
      options).1.isClean = true)
    (named : document.NamesSlots (Registry.run resolution changes)) :
    ((graph.importDocument (Registry.run resolution changes) document options).2.toDocument
        withLayout).edges.length = document.edges.length ∧
      ∀ (place : Nat) edge, document.edges[place]? = some edge → ∃ written,
        ((graph.importDocument (Registry.run resolution changes) document options).2.toDocument
          withLayout).edges[place]? = some written ∧
        edge.Rewritten
          (graph.importing (Registry.run resolution changes) document options place).graph
          (graph.importDocument (Registry.run resolution changes) document options).2 written := by
  have orderly := Registry.orderly_run resolution changes
  rw [importDocument_eq] at clean ⊢
  rw [ImportReport.isClean, Bool.and_eq_true, List.isEmpty_iff, List.isEmpty_iff] at clean
  obtain ⟨cleanNodes, clean⟩ := clean
  have last : (graph.importing (Registry.run resolution changes) document options
      document.edges.length).EdgesRead _ _ := edgesRead_importing orderly (Nat.le_refl _)
  have count := last.accounts.count
  rw [clean, List.take_length] at count
  have length := congrArg List.length (shows_importing orderly cleanNodes withLayout).links
  rw [List.length_map, List.length_map] at length
  refine ⟨length.symm.trans count, fun place edge isEdge => ?_⟩
  have inRange := (List.getElem?_eq_some_iff.1 isEdge).1
  have isWritten := List.getElem?_eq_getElem (lt_of_lt_of_eq inRange (count.symm.trans length))
  exact ⟨_, isWritten,
    rewritten_importing orderly clean named cleanNodes withLayout isEdge isWritten⟩

/-- A schema with a model whose inputs and outputs have keys. The inputs are shown under what could
be the name of one of them. -/
def routes : List Registry.Change :=
  [.register "flow"
    ("class Step(BaseModel):\n" ++
      "    outs: Annotated[Dict[str, int], FieldRole.MULTI_OUTPUT] = None\n" ++
      "    parts: Annotated[Dict[str, int], FieldRole.MULTI_INPUT] = Field(title=\"parts.b\")\n")]

/-- The first edge names an output that the second one gives a key, and an input that is only shown
under this name. -/
def routed : Document where
  nodes := [{ type := "Step" }, { type := "Step" }, { type := "Step" }]
  edges :=
    [{ source := 0, target := 1, sourceSlot := "outs", targetSlot := "parts.b" },
      { source := 0, target := 2, sourceSlot := "outs.x", targetSlot := "parts.a" }]

/-- What reading the edges comes to, and the fields that they name. -/
theorem reading_routed :
    (importDocument {} (Registry.run {} routes) routed {}).1.isClean = true ∧
    (((importDocument {} (Registry.run {} routes) routed {}).2.links.filterMap
      (edge (importDocument {} (Registry.run {} routes) routed {}).2.nodes)).map
        fun edge => (edge.sourceSlot, edge.targetSlot)) =
          [("outs.x", "parts"), ("outs.x", "parts.a")] ∧
    (((Registry.run {} routes).blueprint? "Step").map fun blueprint =>
      blueprint.fields.map fun entry => (entry.1.name, entry.2)) =
        some [("outs", .multiOutput), ("parts", .multiInput)] := by
  decide +kernel

theorem namesSlots_routed : routed.NamesSlots (Registry.run {} routes) := by
  obtain ⟨blueprint, isBlueprint, fields⟩ := Option.map_eq_some_iff.1 reading_routed.2.2
  have keyed {direction : Direction} {name key : String} :=
    @Blueprint.Names.of_key blueprint direction _ fields name key
  intro edge member direction
  rcases List.mem_cons.1 member with rfl | member
  · cases direction with
    | output => exact ⟨_, blueprint, rfl, isBlueprint, .of_field fields true (by decide)⟩
    | input =>
      exact ⟨_, blueprint, rfl, isBlueprint,
        @keyed _ "parts" "b" (by decide) (by decide) (by decide)⟩
  · rcases List.mem_singleton.1 member with rfl
    cases direction with
    | output =>
      exact ⟨_, blueprint, rfl, isBlueprint,
        @keyed _ "outs" "x" (by decide) (by decide) (by decide)⟩
    | input =>
      exact ⟨_, blueprint, rfl, isBlueprint,
        @keyed _ "parts" "a" (by decide) (by decide) (by decide)⟩

/-- The edges that are written do not have the names of the slots that were read. -/
theorem edges_renamed :
    (importDocument {} (Registry.run {} routes) routed {}).1.isClean = true ∧
      routed.NamesSlots (Registry.run {} routes) ∧
      ((importDocument {} (Registry.run {} routes) routed {}).2.toDocument true).edges ≠
        routed.edges := by
  refine ⟨reading_routed.1, namesSlots_routed, fun same => ?_⟩
  have names := reading_routed.2.1
  rw [← edges_eq_importDocument reading_routed.1 true, same] at names
  exact absurd names (by decide)

/-- Both edges are written in their places. -/
theorem edges_routed :
    (importDocument {} (Registry.run {} routes) routed {}).1.isClean = true ∧
      routed.NamesSlots (Registry.run {} routes) ∧
      ((importDocument {} (Registry.run {} routes) routed {}).2.toDocument true).edges.length = 2 ∧
      ∀ (place : Nat) edge, routed.edges[place]? = some edge → ∃ written,
        ((importDocument {} (Registry.run {} routes) routed {}).2.toDocument true).edges[place]? =
          some written ∧
        edge.Rewritten (importing {} (Registry.run {} routes) routed {} place).graph
          (importDocument {} (Registry.run {} routes) routed {}).2 written :=
  ⟨reading_routed.1, namesSlots_routed,
    edges_importDocument {} {} routes routed {} true reading_routed.1 namesSlots_routed⟩

end Graph

end Workflow
