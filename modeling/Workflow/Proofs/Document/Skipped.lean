/-
This file says what the edges that an import skips leave behind.

An edge is read by finding its output, then its input, and then linking them. Finding
a slot may add the key that its name asks for, and this is not taken back if a later
part fails. So a skipped edge leaves links, ids and all of the nodes but their slots
as they were; it leaves the whole graph as it was if neither of its ends asks for a
key, or if it failed before a key could be added.
-/

import Workflow.Proofs.Document.RoundTrip

namespace Workflow

namespace Graph

/-! ### An import step by step -/

/-- The import of a document whose nodes and first edges are read. -/
def importing (graph : Graph) (registry : Registry) (document : Document)
    (options : ImportOptions) (count : Nat) : Importing :=
  (document.edges.zipIdx.take count).foldl Importing.addEdge
    (document.nodes.foldl
      (Importing.addNode registry options (options.columnsFor document.nodes.length))
      { graph := graph.emptied document })

section Steps

variable (graph : Graph) (registry : Registry) (document : Document) (options : ImportOptions)

/-- Once all edges are read the import is finished. -/
theorem importDocument_eq :
    graph.importDocument registry document options =
      ((graph.importing registry document options document.edges.length).report,
        (graph.importing registry document options document.edges.length).graph) := by
  rw [importing, List.take_of_length_le (Nat.le_of_eq List.length_zipIdx)]
  rfl

variable {document}

theorem importing_succ {place : Nat} {edge : EdgeEntry}
    (isEdge : document.edges[place]? = some edge) :
    graph.importing registry document options (place + 1) =
      (graph.importing registry document options place).addEdge (edge, place) := by
  have entry : document.edges.zipIdx[place]? = some (edge, place) := by
    rw [List.getElem?_zipIdx, isEdge, Option.map_some, Nat.zero_add]
  rw [importing, List.take_add_one, List.foldl_append, entry]
  rfl

/-- Nodes do not skip edges. -/
theorem skippedEdges_foldl_addNode (columns : Nat) (entries : List NodeEntry)
    (importing : Importing) :
    (entries.foldl (Importing.addNode registry options columns) importing).report.skippedEdges =
      importing.report.skippedEdges := by
  induction entries generalizing importing with
  | nil => rfl
  | cons entry rest inductionHypothesis =>
    rw [List.foldl_cons, inductionHypothesis, Importing.addNode]
    dsimp only
    split <;> rfl

/-- The edges that are skipped are those that could not be linked when their turn came. -/
theorem linkEdge_of_mem_skippedEdges {count place : Nat} {problem : EdgeProblem}
    (inRange : count ≤ document.edges.length)
    (skipped : (place, problem) ∈
      (graph.importing registry document options count).report.skippedEdges) :
    ∃ edge, document.edges[place]? = some edge ∧
      ((graph.importing registry document options place).graph.linkEdge
        (graph.importing registry document options place).created edge).2 = .error problem := by
  induction count with
  | zero =>
    rw [importing, List.take_zero, List.foldl_nil, skippedEdges_foldl_addNode] at skipped
    cases skipped
  | succ count inductionHypothesis =>
    have isEdge := List.getElem?_eq_getElem inRange
    rw [importing_succ graph registry options isEdge, Importing.addEdge] at skipped
    dsimp only at skipped
    split at skipped
    · next after other isError =>
      rcases List.mem_append.1 skipped with early | here
      · exact inductionHypothesis (Nat.le_of_succ_le inRange) early
      · obtain ⟨rfl, rfl⟩ := Prod.mk.inj (List.mem_singleton.1 here)
        exact ⟨_, isEdge, by rw [isError]⟩
    · exact inductionHypothesis (Nat.le_of_succ_le inRange) skipped

end Steps

/-! ### Ends of edges -/

/-- A graph to which just the key was added that an end of an edge asks for: no slot is found under
the name, which is that of a field with keys, a dot and the key. -/
def AddsKey (before : Graph) (id : NodeId) (direction : Direction) (name : String)
    (after : Graph) : Prop :=
  before.AsksForKey id direction name ∧ ∃ field key place, name = field ++ "." ++ key ∧
    '.' ∉ field.toList ∧ before.addKey id field key = .ok (place, after)

/-- A graph that differs from another one in the slots of nodes and in events only. -/
structure SameButSlots (before after : Graph) : Prop where
  nodes : after.nodes.map Node.withoutSlots = before.nodes.map Node.withoutSlots
  links : after.links = before.links
  nextNode : after.nextNode = before.nextNode
  nextLink : after.nextLink = before.nextLink
  seed : after.seed = before.seed
  kind : after.kind = before.kind
  metadata : after.metadata = before.metadata

variable {graph middle after : Graph} {id : NodeId} {direction : Direction} {name : String}
  {place : Nat}

theorem SameButSlots.refl (graph : Graph) : graph.SameButSlots graph :=
  ⟨rfl, rfl, rfl, rfl, rfl, rfl, rfl⟩

theorem SameButSlots.trans (one : graph.SameButSlots middle) (other : middle.SameButSlots after) :
    graph.SameButSlots after where
  nodes := other.nodes.trans one.nodes
  links := other.links.trans one.links
  nextNode := other.nextNode.trans one.nextNode
  nextLink := other.nextLink.trans one.nextLink
  seed := other.seed.trans one.seed
  kind := other.kind.trans one.kind
  metadata := other.metadata.trans one.metadata

/-- An end of an edge has its slot in the graph as it is, or once its key was added. -/
theorem addsKey_of_resolveSlot
    (isFound : graph.resolveSlot id direction name = some (place, after)) :
    after = graph ∨ graph.AddsKey id direction name after :=
  (resolveSlot_cases isFound).imp_right fun ⟨asks, field, key, spelled, dotless, added⟩ =>
    ⟨asks, field, key, place, spelled, dotless, added⟩

theorem AddsKey.sameButSlots (adds : graph.AddsKey id direction name after) :
    graph.SameButSlots after := by
  obtain ⟨-, field, key, place, -, -, added⟩ := adds
  have modified {change : Node → Node}
      (keeps : ∀ node, (change node).withoutSlots = node.withoutSlots) :
      graph.SameButSlots ((graph.modifyNode id change).record (.slotsChanged id field)) :=
    ⟨map_modifyNode Node.withoutSlots graph id keeps, rfl, rfl, rfl, rfl, rfl, rfl⟩
  obtain ⟨-, node, side, first, others, template, -, -, -, -, change⟩ := addKey_cases added
  obtain ⟨-, -, -, rfl⟩ | ⟨-, -, rfl⟩ := change
  · exact modified fun node => by cases side <;> rfl
  · exact modified fun node => by cases side <;> rfl

theorem sameButSlots_of_found (found : after = graph ∨ graph.AddsKey id direction name after) :
    graph.SameButSlots after := by
  obtain rfl | added := found
  · exact .refl _
  · exact added.sameButSlots

/-- Finding a slot changes slots only. -/
theorem sameButSlots_resolveSlot
    (isFound : graph.resolveSlot id direction name = some (place, after)) :
    graph.SameButSlots after :=
  sameButSlots_of_found (addsKey_of_resolveSlot isFound)

/-! ### Skipped edges -/

/-- What a skipped edge leaves of a graph. -/
structure Skips (created : List (Option NodeId)) (edge : EdgeEntry) (problem : EdgeProblem)
    (before after : Graph) : Prop where
  sameButSlots : before.SameButSlots after
  /-- Only the ends of the edge get keys, the source before the target. -/
  adds : ∃ middle,
    (middle = before ∨ ∃ id, (created[edge.source]?).join = some id ∧
      before.AddsKey id .output edge.sourceSlot middle) ∧
    (after = middle ∨ ∃ id, (created[edge.target]?).join = some id ∧
      middle.AddsKey id .input edge.targetSlot after)
  /-- An edge that fails before its output is found changes nothing. -/
  early : (∀ name, problem ≠ .unknownInput name) → (∀ error, problem ≠ .refused error) →
    after = before
  /-- An edge whose ends do not ask for a key changes nothing. -/
  unasked :
    (∀ id, (created[edge.source]?).join = some id → ¬before.AsksForKey id .output edge.sourceSlot) →
    (∀ id, (created[edge.target]?).join = some id → ¬before.AsksForKey id .input edge.targetSlot) →
    after = before

/-- An edge that fails once its output is found. -/
theorem skips_of_found {created : List (Option NodeId)} {edge : EdgeEntry} {problem : EdgeProblem}
    {source target : NodeId} (isSource : (created[edge.source]?).join = some source)
    (isTarget : (created[edge.target]?).join = some target)
    (output : middle = graph ∨ graph.AddsKey source .output edge.sourceSlot middle)
    (input : after = middle ∨ middle.AddsKey target .input edge.targetSlot after)
    (late : (∃ name, problem = .unknownInput name) ∨ ∃ error, problem = .refused error) :
    Skips created edge problem graph after where
  sameButSlots := (sameButSlots_of_found output).trans (sameButSlots_of_found input)
  adds := ⟨middle, output.imp_right fun added => ⟨source, isSource, added⟩,
    input.imp_right fun added => ⟨target, isTarget, added⟩⟩
  early notInput notRefused := by
    obtain ⟨name, same⟩ | ⟨error, same⟩ := late
    · exact absurd same (notInput name)
    · exact absurd same (notRefused error)
  unasked sourceFree targetFree := by
    obtain rfl | added := output
    · obtain rfl | added := input
      · rfl
      · exact absurd added.1 (targetFree target isTarget)
    · exact absurd added.1 (sourceFree source isSource)

/-- An edge that cannot be linked is skipped. -/
theorem skips_linkEdge {created : List (Option NodeId)} {edge : EdgeEntry} {problem : EdgeProblem}
    (failed : graph.linkEdge created edge = (after, .error problem)) :
    Skips created edge problem graph after := by
  have unchanged : Skips created edge problem graph graph :=
    ⟨.refl graph, ⟨graph, Or.inl rfl, Or.inl rfl⟩, fun _ _ => rfl, fun _ _ => rfl⟩
  rw [linkEdge] at failed
  split at failed
  · cases failed
    exact unchanged
  · next source isSource =>
    split at failed
    · cases failed
      exact unchanged
    · next target isTarget =>
      split at failed
      · cases failed
        exact unchanged
      · next originSlot withOutput isOutput =>
        split at failed
        · cases failed
          exact skips_of_found isSource isTarget (addsKey_of_resolveSlot isOutput) (Or.inl rfl)
            (Or.inl ⟨_, rfl⟩)
        · next targetSlot withInput isInput =>
          split at failed
          · cases failed
            exact skips_of_found isSource isTarget (addsKey_of_resolveSlot isOutput)
              (addsKey_of_resolveSlot isInput) (Or.inr ⟨_, rfl⟩)
          · cases failed

/-- What is read after an edge that is reported as skipped is what was read before it, but for keys
that the ends of the edge asked for. -/
theorem skippedEdge_importDocument (graph : Graph) (registry : Registry) (document : Document)
    (options : ImportOptions) (place : Nat) (problem : EdgeProblem)
    (skipped : (place, problem) ∈
      (graph.importDocument registry document options).1.skippedEdges) :
    let before := graph.importing registry document options place
    let after := graph.importing registry document options (place + 1)
    ∃ edge, document.edges[place]? = some edge ∧
      Skips before.created edge problem before.graph after.graph := by
  intro before after
  rw [importDocument_eq] at skipped
  obtain ⟨edge, isEdge, failed⟩ :=
    linkEdge_of_mem_skippedEdges graph registry options (Nat.le_refl _) skipped
  refine ⟨edge, isEdge, skips_linkEdge (Prod.ext ?_ failed)⟩
  show _ = (graph.importing registry document options (place + 1)).graph
  rw [importing_succ graph registry options isEdge, Importing.addEdge]
  dsimp only
  split
  · next isError => rw [isError]
  · next isLinked =>
    rw [isLinked] at failed
    cases failed

/-- A schema with a model whose numbers have keys. -/
def sums : Registry :=
  Registry.register {} "flow" (Schema.parse
    ("class Sum(BaseModel):\n" ++
      "    type: Annotated[Literal[\"sum\"], FieldRole.CONSTANT] = \"sum\"\n" ++
      "    parts: Annotated[Dict[str, int], FieldRole.MULTI_INPUT] = None\n"))

/-- A text is twice linked to a number under a key that is not there at first. -/
def textAsPart : Document where
  nodes := [{ type := "$str", fields := [("value", .string "hi")] }, { type := "sum" }]
  edges :=
    [{ source := 0, target := 1, sourceSlot := "value", targetSlot := "parts.a" },
      { source := 0, target := 1, sourceSlot := "value", targetSlot := "parts.a" }]

/-- What reading the two edges comes to: both are skipped, and the first one alone asks for a
key. -/
theorem reading_textAsPart :
    (importDocument {} sums textAsPart {}).1.skippedEdges.map Prod.fst = [0, 1] ∧
    ((importing {} sums textAsPart {} 0).graph.nodes.map fun node =>
      (node.slots .input).map SlotInfo.key) = [[], [none]] ∧
    ((importing {} sums textAsPart {} 1).graph.nodes.map fun node =>
      (node.slots .input).map SlotInfo.key) = [[], [some "a"]] ∧
    (importing {} sums textAsPart {} 1).created = [some ⟨1⟩, some ⟨2⟩] ∧
    ¬(importing {} sums textAsPart {} 1).graph.AsksForKey ⟨1⟩ .output "value" ∧
    ¬(importing {} sums textAsPart {} 1).graph.AsksForKey ⟨2⟩ .input "parts.a" := by
  decide +kernel

theorem exists_skippedEdge_textAsPart {place : Nat} (listed : place ∈ [0, 1]) :
    ∃ problem, (place, problem) ∈ (importDocument {} sums textAsPart {}).1.skippedEdges := by
  rw [← reading_textAsPart.1] at listed
  obtain ⟨⟨place, problem⟩, isSkipped, rfl⟩ := List.mem_map.1 listed
  exact ⟨problem, isSkipped⟩

/-- The first edge is skipped, but leaves its key behind. -/
theorem skippedEdge_leavesKey :
    (∃ problem, (0, problem) ∈ (importDocument {} sums textAsPart {}).1.skippedEdges) ∧
      (importing {} sums textAsPart {} 1).graph ≠ (importing {} sums textAsPart {} 0).graph := by
  refine ⟨exists_skippedEdge_textAsPart (by decide), fun same => ?_⟩
  obtain ⟨-, before, after, -⟩ := reading_textAsPart
  rw [same, before] at after
  exact absurd after (by decide)

/-- The second edge finds the key and leaves the graph as it is. -/
theorem skippedEdge_textAsPart :
    (∃ problem, (1, problem) ∈ (importDocument {} sums textAsPart {}).1.skippedEdges) ∧
      (importing {} sums textAsPart {} 2).graph = (importing {} sums textAsPart {} 1).graph := by
  obtain ⟨problem, isSkipped⟩ := @exists_skippedEdge_textAsPart 1 (by decide)
  refine ⟨⟨problem, isSkipped⟩, ?_⟩
  obtain ⟨edge, isEdge, skips⟩ :=
    skippedEdge_importDocument {} sums textAsPart {} 1 problem isSkipped
  obtain ⟨-, -, -, created, sourceFree, targetFree⟩ := reading_textAsPart
  cases isEdge
  rw [created] at skips
  refine skips.unasked ?_ ?_
  · rintro id ⟨⟩
    exact sourceFree
  · rintro id ⟨⟩
    exact targetFree

end Graph

end Workflow
