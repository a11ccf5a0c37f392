/-
This file proves that an import accounts for all of a document.

Entries and edges are gone through in order, and each of them is either listed in the
report as skipped or makes one node or one link. So the nodes come in the order of
their entries and the links in the order of their edges, and what is skipped leaves
holes in neither. An entry is skipped if its type is unknown, and the link of an edge
joins the nodes that were made for the entries at both of its places.
-/

import Workflow.Proofs.Document.Skipped
import Workflow.Proofs.Registry.Lookup

namespace Workflow

/-! ### Items that are skipped or make something -/

section Items

variable {Item Made : Type} {makes : Item × Nat → Made → Prop} {items : List Item}
  {skipped : List Nat} {made : List Made}

/-- The items whose places are not skipped, with their places. -/
def unskipped (skipped : List Nat) (items : List Item) : List (Item × Nat) :=
  items.zipIdx.filter fun entry => entry.2 ∉ skipped

theorem unskipped_concat (inRange : ∀ place ∈ skipped, place < items.length) (item : Item) :
    unskipped skipped (items ++ [item]) = unskipped skipped items ++ [(item, items.length)] := by
  have beyond : items.length ∉ skipped := fun member => Nat.lt_irrefl _ (inRange _ member)
  rw [unskipped, List.zipIdx_append, List.filter_append, List.zipIdx_singleton, Nat.zero_add,
    List.filter_cons_of_pos (by simpa using beyond)]
  rfl

theorem unskipped_skip (skipped : List Nat) (items : List Item) (item : Item) :
    unskipped (skipped ++ [items.length]) (items ++ [item]) = unskipped skipped items := by
  rw [unskipped, List.zipIdx_append, List.filter_append, List.zipIdx_singleton, Nat.zero_add,
    List.filter_cons_of_neg (by simp), List.filter_nil, List.append_nil]
  refine List.filter_congr fun entry member => ?_
  have before : entry.2 ≠ items.length := Nat.ne_of_lt (List.snd_lt_of_mem_zipIdx member)
  simp [before]

/-- Items in order of which some are skipped, while each of the others makes one thing. -/
structure Accounts (makes : Item × Nat → Made → Prop) (items : List Item) (skipped : List Nat)
    (made : List Made) : Prop where
  ascend : skipped.Pairwise (· < ·)
  inRange : ∀ place ∈ skipped, place < items.length
  count : made.length + skipped.length = items.length
  each : List.Forall₂ makes (unskipped skipped items) made

namespace Accounts

theorem nil : Accounts makes [] [] [] :=
  ⟨List.Pairwise.nil, fun _ member => absurd member List.not_mem_nil, rfl, List.Forall₂.nil⟩

theorem skip (accounts : Accounts makes items skipped made) (item : Item) :
    Accounts makes (items ++ [item]) (skipped ++ [items.length]) made where
  ascend := List.pairwise_append.2 ⟨accounts.ascend, List.pairwise_singleton _ _,
    fun place member last isLast => by
      rw [List.mem_singleton.1 isLast]
      exact accounts.inRange place member⟩
  inRange place member := by
    rw [List.length_append, List.length_singleton]
    rcases List.mem_append.1 member with early | last
    · exact Nat.lt_succ_of_lt (accounts.inRange place early)
    · rw [List.mem_singleton.1 last]
      exact Nat.lt_succ_self _
  count := by
    rw [List.length_append, List.length_append, ← Nat.add_assoc, accounts.count]
    rfl
  each := by
    rw [unskipped_skip]
    exact accounts.each

theorem make (accounts : Accounts makes items skipped made) {item : Item} {one : Made}
    (isMade : makes (item, items.length) one) :
    Accounts makes (items ++ [item]) skipped (made ++ [one]) where
  ascend := accounts.ascend
  inRange place member := by
    rw [List.length_append]
    exact Nat.lt_add_right _ (accounts.inRange place member)
  count := by
    rw [List.length_append, List.length_append, Nat.add_right_comm, accounts.count]
    rfl
  each := by
    rw [unskipped_concat accounts.inRange]
    exact List.rel_append accounts.each (.cons isMade .nil)

/-- If nothing is skipped, every item makes what is at its place. -/
theorem exists_item (accounts : Accounts makes items [] made) {place : Nat} {one : Made}
    (isMade : made[place]? = some one) :
    ∃ item, items[place]? = some item ∧ makes (item, place) one := by
  have whole : unskipped [] items = items.zipIdx := List.filter_eq_self.2 fun _ _ => by simp
  obtain ⟨inRange, rfl⟩ := List.getElem?_eq_some_iff.1 isMade
  have each := accounts.each
  rw [whole] at each
  have length := each.length_eq
  rw [List.length_zipIdx] at length
  have inItems : place < items.length := by omega
  have pair := each.get (by rw [List.length_zipIdx]; exact inItems) inRange
  rw [List.get_eq_getElem, List.get_eq_getElem, List.getElem_zipIdx, Nat.zero_add] at pair
  exact ⟨_, List.getElem?_eq_getElem inItems, pair⟩

end Accounts

end Items

/-! ### Nodes made for entries -/

namespace Registry

/-- What makes the node of an entry under a seed and an id, if the type is known. -/
def maker? (registry : Registry) (entry : NodeEntry) : Option (Seed → NodeId → Node) :=
  match NativeKind.ofPrimitiveTag entry.type with
  | some kind =>
    some fun _ id =>
      Node.primitive id kind ((Object.get? entry.fields primitiveValueField).getD .null)
  | none =>
    (registry.resolve? entry.type).bind fun modelRef =>
      (registry.model? modelRef).map fun model seed id =>
        Node.ofModel seed id modelRef model entry.fields

/-- What the node of an entry is made from, if the type is known. -/
def blueprint? (registry : Registry) (type : String) : Option Blueprint :=
  match NativeKind.ofPrimitiveTag type with
  | some kind => some (.ofKind kind)
  | none =>
    (registry.resolve? type).bind fun modelRef =>
      (registry.model? modelRef).map (.ofModel modelRef)

/-- Whether a type is one of those reserved for primitive nodes or leads to a model. -/
def knows (registry : Registry) (type : String) : Bool :=
  (NativeKind.ofPrimitiveTag type).isSome || (registry.resolve? type).isSome

variable {registry : Registry} {entry : NodeEntry} {make : Seed → NodeId → Node}

theorem Orderly.isSome_maker? (orderly : registry.Orderly) (entry : NodeEntry) :
    (registry.maker? entry).isSome = registry.knows entry.type := by
  rw [maker?, knows]
  cases NativeKind.ofPrimitiveTag entry.type with
  | some kind => rfl
  | none =>
    cases isResolved : registry.resolve? entry.type with
    | none => rfl
    | some modelRef =>
      rw [Option.bind_some, Option.isSome_map, orderly.isSome_model?_of_resolve? isResolved]
      rfl

theorem id_of_maker? (isMaker : registry.maker? entry = some make) (seed : Seed) (id : NodeId) :
    (make seed id).id = id := by
  rw [maker?] at isMaker
  split at isMaker
  · cases isMaker
    rfl
  · obtain ⟨modelRef, -, isMade⟩ := Option.bind_eq_some_iff.1 isMaker
    obtain ⟨model, -, rfl⟩ := Option.map_eq_some_iff.1 isMade
    exact (congrArg Node.id (Node.bare_ofModel seed id modelRef model entry.fields) :)

/-- The node of an entry fits what it is made from. -/
theorem IsRead.exists_blueprint (isRead : registry.IsRead)
    (isMaker : registry.maker? entry = some make) :
    ∃ blueprint, registry.blueprint? entry.type = some blueprint ∧ blueprint.Sound ∧
      ∀ seed id, (make seed id).Fits blueprint ∧ (make seed id).previewOnly = false := by
  rw [maker?] at isMaker
  rw [blueprint?]
  split at isMaker
  · next kind _ =>
    cases isMaker
    exact ⟨_, rfl, Blueprint.sound_ofKind kind, fun _ id => ⟨Node.fits_primitive id kind _, rfl⟩⟩
  · obtain ⟨modelRef, isResolved, isMade⟩ := Option.bind_eq_some_iff.1 isMaker
    obtain ⟨model, isModel, rfl⟩ := Option.map_eq_some_iff.1 isMade
    have sound := (isRead.isDeclared isModel).sound modelRef
    refine ⟨_, by rw [isResolved, Option.bind_some, isModel]; rfl, sound, fun seed id => ?_⟩
    have bare := Node.bare_ofModel seed id modelRef model entry.fields
    exact ⟨(Node.made_ofModel sound seed id entry.fields).fits (congrArg Node.modelRef bare :),
      (congrArg Node.previewOnly bare :)⟩

end Registry

/-- A node that was made for one of some entries. -/
structure Node.MadeFor (registry : Registry) (entries : List NodeEntry) (node : Node) : Prop where
  shown : node.previewOnly = false
  fits : ∃ place entry blueprint, node.order = some place ∧ entries[place]? = some entry ∧
    registry.blueprint? entry.type = some blueprint ∧ blueprint.Sound ∧ node.Fits blueprint

theorem Node.MadeFor.append {registry : Registry} {entries : List NodeEntry} {node : Node}
    (madeFor : node.MadeFor registry entries) (more : List NodeEntry) :
    node.MadeFor registry (entries ++ more) := by
  obtain ⟨shown, place, entry, blueprint, order, isEntry, known⟩ := madeFor
  have inRange := (List.getElem?_eq_some_iff.1 isEntry).1
  refine ⟨shown, place, entry, blueprint, order, ?_, known⟩
  rw [List.getElem?_append_left inRange, isEntry]

/-- What tells where a node comes from, and whether documents leave it out. -/
structure NodeHead where
  id : NodeId
  order : Option Nat
  previewOnly : Bool

def Node.head (node : Node) : NodeHead := ⟨node.id, node.order, node.previewOnly⟩

namespace Graph

theorem instantiate_eq (graph : Graph) (registry : Registry) (entry : NodeEntry) :
    graph.instantiate registry entry =
      (registry.maker? entry).map fun make => graph.addNode (make graph.seed) := by
  rw [instantiate, Registry.maker?]
  cases NativeKind.ofPrimitiveTag entry.type with
  | some kind => rfl
  | none =>
    cases registry.resolve? entry.type with
    | none => rfl
    | some modelRef =>
      rw [Option.bind_some, Option.map_map]
      rfl

/-- The nodes by their ids and the places of their entries. -/
def heads (graph : Graph) : List NodeHead := graph.nodes.map Node.head

/-- The place of the entry that a node was made for. -/
def place? (graph : Graph) (id : NodeId) : Option Nat := (graph.node? id).bind Node.order

variable {graph after : Graph}

theorem place?_of_mem (tied : graph.Tied) {node : Node} (member : node ∈ graph.nodes) :
    graph.place? node.id = node.order := by
  rw [place?, node?_of_mem tied.nodesAscend member]
  rfl

theorem place?_eq (graph : Graph) (id : NodeId) :
    graph.place? id = (graph.heads.find? fun head => head.id = id).bind NodeHead.order := by
  rw [place?, heads, List.find?_map, Option.bind_map]
  rfl

/-- Nodes with the same heads are found at the same places. -/
theorem place?_congr (same : after.heads = graph.heads) : after.place? = graph.place? := by
  funext id
  rw [place?_eq, place?_eq, same]

theorem SameButSlots.heads_eq (same : graph.SameButSlots after) : after.heads = graph.heads := by
  have heads := congrArg (List.map Node.head) same.nodes
  rw [List.map_map, List.map_map] at heads
  exact heads

theorem heads_of_unlinked
    (same : after.nodes.map Node.unlinked = graph.nodes.map Node.unlinked) :
    after.heads = graph.heads := by
  have heads := congrArg (List.map Node.head) same
  rw [List.map_map, List.map_map] at heads
  exact heads

end Graph

theorem Node.head_applyEntry (node : Node) (options : ImportOptions) (grid : Point) (index : Nat)
    (entry : NodeEntry) :
    (node.applyEntry options grid index entry).head = ⟨node.id, some index, node.previewOnly⟩ := by
  refine List.foldlRecOn (motive := fun drawn : Node => drawn.head = ⟨node.id, some index, _⟩)
    entry.fields Node.setNative ?_ fun drawn placed field _ => ?_
  · cases entry.appearance <;> rfl
  · rw [Node.setNative]
    split <;> exact placed

/-- The node that is made for an entry at the end of others. -/
theorem Registry.IsRead.madeFor {registry : Registry} (isRead : registry.IsRead)
    {entry : NodeEntry} {make : Seed → NodeId → Node} (isMaker : registry.maker? entry = some make)
    (options : ImportOptions) (grid : Point) (entries : List NodeEntry) (seed : Seed)
    (id : NodeId) :
    ((make seed id).applyEntry options grid entries.length entry).MadeFor registry
      (entries ++ [entry]) := by
  obtain ⟨blueprint, isBlueprint, sound, made⟩ := isRead.exists_blueprint isMaker
  obtain ⟨fits, shown⟩ := made seed id
  have head := (make seed id).head_applyEntry options grid entries.length entry
  have revises : (make seed id).Revises True _ :=
    (make seed id).revises_applyEntry options grid entries.length entry
  exact ⟨(congrArg NodeHead.previewOnly head).trans shown, entries.length, entry, blueprint,
    congrArg NodeHead.order head, List.getElem?_concat_length, isBlueprint, sound,
    revises.fits blueprint fits⟩

namespace Importing

variable {registry : Registry}

/-- The types that are unknown, with their places. -/
def strangers (registry : Registry) (entries : List NodeEntry) : List (Nat × String) :=
  (entries.zipIdx.filter fun entry => !registry.knows entry.1.type).map fun entry =>
    (entry.2, entry.1.type)

theorem strangers_concat (registry : Registry) (entries : List NodeEntry) (entry : NodeEntry) :
    strangers registry (entries ++ [entry]) =
      strangers registry entries ++
        if registry.knows entry.type then [] else [(entries.length, entry.type)] := by
  rw [strangers, List.zipIdx_append, List.filter_append, List.map_append, List.zipIdx_singleton,
    Nat.zero_add, List.filter_singleton]
  refine congrArg (_ ++ ·) ?_
  cases registry.knows entry.type <;> rfl

/-- What is there once some entries were read. -/
structure NodesRead (importing : Importing) (registry : Registry) (entries : List NodeEntry) :
    Prop where
  tied : importing.graph.Tied
  created : importing.created.length = entries.length
  nodes : importing.report.nodes = importing.graph.nodes.length
  skipped : importing.report.skippedNodes = strangers registry entries
  accounts : Accounts (fun entry order => order = some entry.2) entries
    (importing.report.skippedNodes.map Prod.fst) (importing.graph.nodes.map Node.order)
  madeFor : ∀ node ∈ importing.graph.nodes, node.MadeFor registry entries
  /-- A node is found for the entry that it was made for. -/
  owners : ∀ place id, (importing.created[place]?).join = some id →
    importing.graph.place? id = some place
  links : importing.graph.links = []
  edges : importing.report.links = 0 ∧ importing.report.skippedEdges = []

variable {entries : List NodeEntry} {importing : Importing} {entry : NodeEntry}

/-- The owner of a place among one more is an earlier one or the last. -/
theorem owner_concat {created : List (Option NodeId)} {last : Option NodeId} {place : Nat}
    {id : NodeId} (isOwner : ((created ++ [last])[place]?).join = some id) :
    (created[place]?).join = some id ∨ place = created.length ∧ last = some id := by
  rw [List.getElem?_append] at isOwner
  split at isOwner
  · exact Or.inl isOwner
  · rw [List.getElem?_singleton] at isOwner
    split at isOwner
    · exact Or.inr ⟨by omega, isOwner⟩
    · cases isOwner

/-- An entry whose type is unknown is skipped. -/
theorem NodesRead.skip (read : importing.NodesRead registry entries)
    (unknown : registry.knows entry.type = false) :
    ({ importing with
      created := importing.created ++ [none]
      report := { importing.report with
        skippedNodes := importing.report.skippedNodes ++ [(entries.length, entry.type)] } } :
      Importing).NodesRead registry (entries ++ [entry]) where
  tied := read.tied
  created := by
    rw [List.length_append, read.created, List.length_append]
    rfl
  nodes := read.nodes
  skipped := by
    rw [strangers_concat, unknown, read.skipped]
    rfl
  accounts := by
    rw [List.map_append]
    exact read.accounts.skip entry
  madeFor node member := (read.madeFor node member).append [entry]
  owners place id isOwner := by
    obtain early | ⟨-, isLast⟩ := owner_concat isOwner
    · exact read.owners place id early
    · cases isLast
  links := read.links
  edges := read.edges

/-- An entry whose type is known makes a node. -/
theorem NodesRead.make (read : importing.NodesRead registry entries)
    (known : registry.knows entry.type = true) {graph : Graph} {node : Node}
    (tied : graph.Tied) (nodes : graph.nodes = importing.graph.nodes ++ [node])
    (order : node.order = some entries.length)
    (madeFor : node.MadeFor registry (entries ++ [entry]))
    (links : graph.links = importing.graph.links) :
    ({ graph := graph
       created := importing.created ++ [some node.id]
       report := { importing.report with nodes := importing.report.nodes + 1 } } :
      Importing).NodesRead registry (entries ++ [entry]) where
  tied := tied
  created := by
    rw [List.length_append, read.created, List.length_append]
    rfl
  nodes := by
    rw [nodes, List.length_append, read.nodes]
    rfl
  skipped := by
    rw [strangers_concat, known, read.skipped]
    exact (List.append_nil _).symm
  accounts := by
    rw [nodes, List.map_append]
    exact read.accounts.make order
  madeFor other member := by
    rw [nodes] at member
    rcases List.mem_append.1 member with old | isLast
    · exact (read.madeFor other old).append [entry]
    · rw [List.mem_singleton.1 isLast]
      exact madeFor
  owners place id isOwner := by
    obtain early | ⟨rfl, isLast⟩ := owner_concat isOwner
    · obtain ⟨owner, isNode, placed⟩ := Option.bind_eq_some_iff.1 (read.owners place id early)
      rw [Graph.place?, Graph.node?, nodes, List.find?_append, ← Graph.node?, isNode]
      exact placed
    · cases isLast
      have member : node ∈ graph.nodes := by
        rw [nodes]
        exact List.mem_append_right _ List.mem_cons_self
      rw [Graph.place?_of_mem tied member, order, read.created]
  links := links.trans read.links
  edges := read.edges

/-- Reading one more entry. -/
theorem NodesRead.addNode (orderly : registry.Orderly)
    (read : importing.NodesRead registry entries) (options : ImportOptions) (columns : Nat)
    (entry : NodeEntry) :
    (importing.addNode registry options columns entry).NodesRead registry
      (entries ++ [entry]) := by
  have edits : Graph.Edits Blueprint.Sound True importing.graph
      (importing.addNode registry options columns entry).graph :=
    Graph.edits_addEntry
      (fun _ modelRef _ _ found => (orderly.isRead.isDeclared found).sound modelRef)
      Blueprint.sound_ofKind (fun _ sound => sound) importing options columns entry
  have tied := edits.tied read.tied
  have known := orderly.isSome_maker? entry
  rw [Importing.addNode, read.created, Graph.instantiate_eq] at tied ⊢
  cases isMaker : registry.maker? entry with
  | none =>
    rw [isMaker] at known
    exact read.skip known.symm
  | some make =>
    rw [isMaker] at known tied
    have fresh : (make importing.graph.seed ⟨importing.graph.nextNode⟩).id =
      ⟨importing.graph.nextNode⟩ := Registry.id_of_maker? isMaker _ _
    have apart : ∀ node ∈ importing.graph.nodes, node.id ≠ ⟨importing.graph.nextNode⟩ := by
      intro node member same
      have counted := read.tied.nodesCounted _ (List.mem_map_of_mem member)
      rw [same] at counted
      exact Nat.lt_irrefl _ counted
    let grid := options.gridPoint columns entries.length
    let node := (make importing.graph.seed ⟨importing.graph.nextNode⟩).applyEntry options grid
      entries.length entry
    have nodes : _ = importing.graph.nodes ++ [node] := Graph.nodes_modifyNode_addNode fresh apart
      fun made => made.applyEntry options grid entries.length entry
    have head : node.head = _ := Node.head_applyEntry ..
    have id : node.id = ⟨importing.graph.nextNode⟩ := (congrArg NodeHead.id head).trans fresh
    have made := read.make known.symm tied nodes (congrArg NodeHead.order head)
      (orderly.isRead.madeFor isMaker options grid entries _ _) rfl
    rw [id] at made
    exact made

/-- Reading all entries. -/
theorem nodesRead_foldl (orderly : registry.Orderly) {start : Graph} (tied : start.Tied)
    (empty : start.nodes = []) (unlinked : start.links = []) (options : ImportOptions)
    (columns : Nat) (entries : List NodeEntry) :
    (entries.foldl (Importing.addNode registry options columns)
      { graph := start }).NodesRead registry entries := by
  induction entries using List.reverseRecOn with
  | nil =>
    refine ⟨tied, rfl, ?_, rfl, ?_, fun node member => ?_, fun _ _ isOwner => ?_, unlinked, rfl,
      rfl⟩
    · rw [List.foldl_nil, empty]
      rfl
    · rw [List.foldl_nil, empty]
      exact .nil
    · rw [List.foldl_nil, empty] at member
      cases member
    · cases isOwner
  | append_singleton entries entry inductionHypothesis =>
    rw [List.foldl_append]
    exact inductionHypothesis.addNode orderly options columns entry

end Importing

/-! ### Links made for edges -/

/-- The link of an edge: it joins the nodes that were made for the entries at both places, and
carries what the edge carries. -/
structure Link.Joins (place? : NodeId → Option Nat) (edge : EdgeEntry) (link : Link) : Prop where
  source : place? link.origin = some edge.source
  target : place? link.target = some edge.target
  isLoop : link.isLoop = edge.isLoop
  data : link.data = edge.data
  extra : link.extra = edge.extra

namespace Importing

/-- What is there once some edges were read, in a graph whose nodes were there before. -/
structure EdgesRead (importing start : Importing) (edges : List EdgeEntry) : Prop where
  tied : importing.graph.Tied
  edits : Graph.Edits (fun _ => False) False start.graph importing.graph
  heads : importing.graph.heads = start.graph.heads
  created : importing.created = start.created
  nodes : importing.report.nodes = start.report.nodes
  skippedNodes : importing.report.skippedNodes = start.report.skippedNodes
  links : importing.report.links = importing.graph.links.length
  accounts : Accounts (fun entry link => link.Joins start.graph.place? entry.1) edges
    (importing.report.skippedEdges.map Prod.fst) importing.graph.links

variable {start importing : Importing} {edges : List EdgeEntry}

/-- At first there are no links. -/
theorem NodesRead.edgesRead {registry : Registry} {entries : List NodeEntry}
    (read : start.NodesRead registry entries) : start.EdgesRead start [] where
  tied := read.tied
  edits := .refl
  heads := rfl
  created := rfl
  nodes := rfl
  skippedNodes := rfl
  links := by
    rw [read.edges.1, read.links]
    rfl
  accounts := by
    rw [read.edges.2, read.links]
    exact .nil

section Steps

variable {edge : EdgeEntry} {graph : Graph} (index : Nat)

theorem addEdge_of_error {problem : EdgeProblem}
    (failed : importing.graph.linkEdge importing.created edge = (graph, .error problem)) :
    importing.addEdge (edge, index) = { importing with
      graph := graph
      report := { importing.report with
        skippedEdges := importing.report.skippedEdges ++ [(index, problem)] } } := by
  rw [Importing.addEdge, failed]

theorem addEdge_of_ok {id : LinkId}
    (isLinked : importing.graph.linkEdge importing.created edge = (graph, .ok id)) :
    importing.addEdge (edge, index) = { importing with
      graph := graph.modifyLink id fun link =>
        { link with isLoop := edge.isLoop, data := edge.data, extra := edge.extra }
      report := { importing.report with links := importing.report.links + 1 } } := by
  rw [Importing.addEdge, isLinked]

end Steps

/-- Reading one more edge. -/
theorem EdgesRead.addEdge (read : importing.EdgesRead start edges)
    (owners : ∀ place id, (start.created[place]?).join = some id →
      start.graph.place? id = some place) (edge : EdgeEntry) :
    (importing.addEdge (edge, edges.length)).EdgesRead start (edges ++ [edge]) := by
  have edits : Graph.Edits (fun _ => False) False importing.graph
      (importing.addEdge (edge, edges.length)).graph := Graph.edits_addEdge read.tied _
  have tied := edits.tied read.tied
  rcases isOutcome : importing.graph.linkEdge importing.created edge with ⟨graph, outcome⟩
  cases outcome with
  | error problem =>
    rw [addEdge_of_error _ isOutcome] at edits tied ⊢
    have same := (Graph.skips_linkEdge isOutcome).sameButSlots
    refine ⟨tied, read.edits.trans edits, same.heads_eq.trans read.heads, read.created,
      read.nodes, read.skippedNodes, ?_, ?_⟩
    · rw [same.links]
      exact read.links
    · rw [List.map_append, same.links]
      exact read.accounts.skip edge
  | ok id =>
    rw [addEdge_of_ok _ isOutcome] at edits tied ⊢
    obtain ⟨source, target, originSlot, withOutput, targetSlot, withInput, isSource, isTarget,
      isOutput, isInput, isConnected⟩ := Graph.linkEdge_cases isOutcome
    have same := (Graph.sameButSlots_resolveSlot isOutput).trans
      (Graph.sameButSlots_resolveSlot isInput)
    have output : Graph.Edits (fun _ => False) False importing.graph withOutput :=
      Graph.edits_resolveSlot read.tied isOutput
    have input : Graph.Edits (fun _ => False) False importing.graph withInput :=
      output.trans (Graph.edits_resolveSlot (output.tied read.tied) isInput)
    obtain ⟨added, -⟩ := Graph.connect_cases isConnected
    obtain rfl : id = ⟨withInput.nextLink⟩ := congrArg Prod.fst added
    obtain rfl : graph = (withInput.addLink source originSlot target targetSlot).2 :=
      congrArg Prod.snd added
    have links := Graph.links_modifyLink_addLink (input.tied read.tied) source originSlot target
      targetSlot fun link =>
        { link with isLoop := edge.isLoop, data := edge.data, extra := edge.extra }
    have heads : (withInput.addLink source originSlot target targetSlot).2.heads =
        withInput.heads := Graph.heads_of_unlinked (withInput.unlinked_addLink ..)
    rw [same.links] at links
    rw [read.created] at isSource isTarget
    refine ⟨tied, read.edits.trans edits, heads.trans (same.heads_eq.trans read.heads),
      read.created, read.nodes, read.skippedNodes, ?_, ?_⟩
    · rw [links, List.length_append, read.links]
      rfl
    · rw [links]
      exact read.accounts.make
        ⟨owners _ source isSource, owners _ target isTarget, rfl, rfl, rfl⟩

end Importing

namespace Graph

/-! ### Entries and edges one after the other -/

/-- Fitting goes on under the id of a node if no nodes are made. -/
theorem Edits.fits {graph after : Graph} (edits : Edits (fun _ => False) False graph after)
    (tied : graph.Tied) {id : NodeId} {node last : Node} (isNode : graph.node? id = some node)
    (isLast : after.node? id = some last) {blueprint : Blueprint} (fits : node.Fits blueprint) :
    last.Fits blueprint := by
  obtain ⟨member, isId⟩ := mem_of_node? isLast
  obtain ⟨old, isOld, continues⟩ | ⟨-, -, made, -⟩ := edits.succeeds.nodes last member
  · rw [tied.eq_of_node? isNode isOld (continues.id.symm.trans isId)] at continues
    exact continues.fits blueprint fits
  · exact made.elim

section Reading

variable {graph : Graph} {registry : Registry} {document : Document} {options : ImportOptions}
  (orderly : registry.Orderly)

include orderly

theorem nodesRead_importing :
    (graph.importing registry document options 0).NodesRead registry document.nodes :=
  Importing.nodesRead_foldl orderly (graph.tied_emptied document) rfl rfl options
    (options.columnsFor document.nodes.length) document.nodes

theorem edgesRead_importing {count : Nat} (inRange : count ≤ document.edges.length) :
    (graph.importing registry document options count).EdgesRead
      (graph.importing registry document options 0) (document.edges.take count) := by
  have nodes : (graph.importing registry document options 0).NodesRead _ _ :=
    nodesRead_importing orderly
  induction count with
  | zero => exact nodes.edgesRead
  | succ count inductionHypothesis =>
    have before := inductionHypothesis (Nat.le_of_succ_le inRange)
    have length : (document.edges.take count).length = count :=
      List.length_take_of_le (Nat.le_of_succ_le inRange)
    have after := before.addEdge nodes.owners document.edges[count]
    rw [length] at after
    rw [importing_succ graph registry options (List.getElem?_eq_getElem inRange),
      List.take_succ_eq_append_getElem inRange]
    exact after

/-- The nodes are those that were made for the entries, however many edges were read. -/
theorem madeFor_importing {count : Nat} (inRange : count ≤ document.edges.length) {node : Node}
    (member : node ∈ (graph.importing registry document options count).graph.nodes) :
    node.MadeFor registry document.nodes := by
  have nodes : (graph.importing registry document options 0).NodesRead _ _ :=
    nodesRead_importing orderly
  have edges : (graph.importing registry document options count).EdgesRead _ _ :=
    edgesRead_importing orderly inRange
  have listed : node.head ∈ (graph.importing registry document options count).graph.heads :=
    List.mem_map_of_mem member
  rw [edges.heads] at listed
  obtain ⟨old, isOld, same⟩ := List.mem_map.1 listed
  have isNode := node?_of_mem edges.tied.nodesAscend member
  have sameId : old.id = node.id := congrArg NodeHead.id same
  rw [← sameId] at isNode
  obtain ⟨shown, place, entry, blueprint, order, isEntry, isBlueprint, sound, fits⟩ :=
    nodes.madeFor old isOld
  exact ⟨(congrArg NodeHead.previewOnly same).symm.trans shown, place, entry, blueprint,
    (congrArg NodeHead.order same).symm.trans order, isEntry, isBlueprint, sound,
    edges.edits.fits nodes.tied (node?_of_mem nodes.tied.nodesAscend isOld) isNode fits⟩

end Reading

end Graph

/-! ### The whole document -/

/-- What a report says about a document, and what the document made. -/
structure ImportReport.Covers (report : ImportReport) (registry : Registry) (document : Document)
    (after : Graph) : Prop where
  nodes : report.nodes = after.nodes.length
  links : report.links = after.links.length
  allNodes : report.nodes + report.skippedNodes.length = document.nodes.length
  allEdges : report.links + report.skippedEdges.length = document.edges.length
  nodesAscend : report.skippedNodes.Pairwise fun first second => first.1 < second.1
  edgesAscend : report.skippedEdges.Pairwise fun first second => first.1 < second.1
  /-- A node is skipped if its type is neither reserved for primitive nodes nor leads to a model. -/
  unknown : ∀ place type, (place, type) ∈ report.skippedNodes ↔
    ∃ entry, document.nodes[place]? = some entry ∧ entry.type = type ∧
      NativeKind.ofPrimitiveTag type = none ∧ registry.resolve? type = none
  /-- The nodes keep the places of the entries that are not skipped, in their order. -/
  orders : after.nodes.map Node.order =
    (unskipped (report.skippedNodes.map Prod.fst) document.nodes).map fun entry => some entry.2
  /-- The links are those of the edges that are not skipped, in their order. -/
  joined : List.Forall₂ (fun entry link => link.Joins after.place? entry.1)
    (unskipped (report.skippedEdges.map Prod.fst) document.edges) after.links

namespace Importing

variable {registry : Registry} {document : Document} {start importing : Importing}

/-- The nodes that were read are still there once the edges are read. -/
theorem EdgesRead.orders_eq {edges : List EdgeEntry} (read : importing.EdgesRead start edges) :
    importing.graph.nodes.map Node.order = start.graph.nodes.map Node.order := by
  have orders := congrArg (List.map NodeHead.order) read.heads
  rw [Graph.heads, Graph.heads, List.map_map, List.map_map] at orders
  exact orders

theorem mem_strangers {entries : List NodeEntry} {place : Nat} {type : String} :
    (place, type) ∈ strangers registry entries ↔
      ∃ entry, entries[place]? = some entry ∧ entry.type = type ∧
        NativeKind.ofPrimitiveTag type = none ∧ registry.resolve? type = none := by
  rw [strangers, List.mem_map]
  constructor
  · rintro ⟨⟨entry, spot⟩, member, same⟩
    obtain ⟨rfl, rfl⟩ := Prod.mk.inj same
    obtain ⟨listed, unknown⟩ := List.mem_filter.1 member
    refine ⟨entry, List.mem_zipIdx_iff_getElem?.1 listed, rfl, ?_⟩
    simpa [Registry.knows] using unknown
  · rintro ⟨entry, isEntry, rfl, unknown⟩
    refine ⟨(entry, place), List.mem_filter.2 ⟨List.mem_zipIdx_iff_getElem?.2 isEntry, ?_⟩, rfl⟩
    simpa [Registry.knows] using unknown

/-- A document is covered once its nodes and then its edges are read. -/
theorem EdgesRead.covers (nodes : start.NodesRead registry document.nodes)
    (edges : importing.EdgesRead start document.edges) :
    importing.report.Covers registry document importing.graph := by
  have accounts := nodes.accounts
  rw [← edges.skippedNodes, ← edges.orders_eq] at accounts
  have orders : List.Forall₂ (fun entry order => some entry.2 = order)
      (unskipped (importing.report.skippedNodes.map Prod.fst) document.nodes)
      (importing.graph.nodes.map Node.order) := accounts.each.imp fun _ _ => Eq.symm
  have nodesMade : importing.report.nodes = importing.graph.nodes.length := by
    rw [edges.nodes, nodes.nodes, ← List.length_map Node.order, ← edges.orders_eq, List.length_map]
  refine ⟨nodesMade, edges.links, ?_, ?_, List.pairwise_map.1 accounts.ascend,
    List.pairwise_map.1 edges.accounts.ascend, ?_, ?_, ?_⟩
  · rw [nodesMade]
    simpa using accounts.count
  · rw [edges.links]
    simpa using edges.accounts.count
  · intro place type
    rw [edges.skippedNodes, nodes.skipped]
    exact mem_strangers
  · exact (List.forall₂_eq_eq_eq ▸ List.forall₂_map_left_iff.2 orders).symm
  · rw [Graph.place?_congr edges.heads]
    exact edges.accounts.each

end Importing

/-- An import accounts for all of a document, whatever the graph held before. -/
theorem Graph.covers_importDocument (graph : Graph) (resolution : Resolution)
    (changes : List Registry.Change) (document : Document) (options : ImportOptions) :
    (graph.importDocument (Registry.run resolution changes) document options).1.Covers
      (Registry.run resolution changes) document
      (graph.importDocument (Registry.run resolution changes) document options).2 := by
  have orderly := Registry.orderly_run resolution changes
  have edges : (graph.importing (Registry.run resolution changes) document options
      document.edges.length).EdgesRead _ _ := edgesRead_importing orderly (Nat.le_refl _)
  rw [List.take_length] at edges
  rw [importDocument_eq]
  exact edges.covers (nodesRead_importing orderly)

end Workflow
