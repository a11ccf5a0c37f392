/-
This file proves when the document of a session is read again from its text.

Values come into a session with models, fragments, edits and documents, and whatever
comes in can be: numbers are doubles or fit 64 bits, objects have ascending keys, and
coordinates are of single precision. No operation makes anything else of them, so the
document of the session may nest too deep, or have a coordinate that is not finite, but
there is nothing else that could be wrong with it.
-/

import Workflow.Proofs.Document.Text
import Workflow.Proofs.Graph.Valid
import Workflow.Proofs.Session.Run

namespace Workflow

open Number Source

namespace Session

open Workflow.Graph

/-! ### Operations with arguments there can be -/

/-- The values and coordinates of an operation can be, and its document was read from a text. -/
def Operation.Proper : Operation → Prop
  | .createNode _ fragment => (Json.object fragment).Valid
  | .createPrimitive _ value => value.Valid
  | .setInput _ _ value => value.Valid
  | .setPrimitive _ value => value.Valid
  | .setPosition _ position => position.InFormat
  | .importDocument document _ => ∃ text, Document.parse text = .ok document
  | _ => True

variable {session : Session} {graph : Graph}

theorem valid_commitGraph (valid : graph.Valid) (session : Session) :
    (session.commitGraph graph).graph.Valid :=
  valid.of_unmarked (unmarked_commitGraph session graph)

/-- What is to be committed after an operation whose arguments can be holds values that can be. -/
theorem Drafts.valid {operation : Operation} (drafts : session.Drafts operation graph)
    (kept : session.Kept) (valid : session.graph.Valid) (proper : operation.Proper) :
    graph.Valid := by
  cases drafts with
  | @createNode reference modelRef model fragment isFound isModel =>
    exact valid.createNode (kept.registry.isDeclared isModel) proper modelRef
  | createPrimitive kind value => exact valid.createPrimitive kind proper
  | removeNode success => exact valid.removeNode success
  | connect success => exact valid.connect success
  | disconnect success => exact valid.disconnect success
  | setInput success => exact valid.setInput proper success
  | setPrimitive success => exact valid.setPrimitive proper success
  | setPosition success => exact valid.setPosition proper success
  | addKey success => exact valid.addKey success
  | removeKey success => exact valid.removeKey success
  | renameKey success => exact valid.renameKey success

/-- An operation whose arguments can be leaves a graph whose values can be. -/
theorem valid_perform (kept : session.Kept) (valid : session.graph.Valid) {operation : Operation}
    (proper : operation.Proper) : (session.perform operation).graph.Valid := by
  have performs := session.performs operation
  generalize session.perform operation = next at performs ⊢
  cases performs with
  | nothing => exact valid
  | draft drafts => exact valid_commitGraph (drafts.valid kept valid proper) session
  | registerSchema name source => exact valid
  | removeSchema name => exact valid
  | setPreviewOnly success => exact valid.setPreviewOnly success
  | importDocument document options =>
    obtain ⟨text, isRead⟩ := proper
    have imported := Graph.Valid.importDocument kept.registry session.graph
      (Document.accepted_of_parse isRead) options
    have drained : Graph.Valid (takeEvents _).2 := { imported with }
    exact drained.of_unmarked (unmarked_refreshAll _)
  | reseed seed => exact { valid with }

/-- Operations whose arguments can be lead to sessions whose values can be. -/
theorem valid_run (resolution : Resolution) {operations : List Operation}
    (proper : ∀ operation ∈ operations, operation.Proper) :
    (run resolution operations).graph.Valid := by
  have both : (run resolution operations).Kept ∧ (run resolution operations).graph.Valid := by
    refine List.foldlRecOn (motive := fun session : Session => session.Kept ∧ session.graph.Valid)
      operations perform ⟨kept_start resolution, valid_empty⟩
      fun session ⟨kept, valid⟩ operation member => ?_
    exact ⟨(step_perform kept operation).kept kept,
      valid_perform kept valid (proper operation member)⟩
  exact both.2

/-! ### Documents -/

/-- Whatever was done to a session with values and coordinates that can be and with documents that
were read, its document is read again from its text exactly if no value nests too deep, the places
of edges fit 64 bits and all coordinates are finite. -/
theorem parse_text_run (resolution : Resolution) (operations : List Operation)
    (proper : ∀ operation ∈ operations, operation.Proper) (withLayout : Bool) :
    let document := (run resolution operations).toDocument withLayout
    (∃ again, Document.parse document.text = .ok again) ↔
      document.Shallow ∧ (∀ edge ∈ document.edges, edge.Placed) ∧
      ∀ coordinate ∈ document.coordinates, ∃ value, coordinate = .finite value :=
  ((valid_run resolution proper).toDocument withLayout).parse_text_iff

/-- A text with one node, so far to the right. -/
def distantText (distance : String) : String :=
  "\x7b\"nodes\":[\x7b\"type\":\"$str\",\"value\":\"hi\",\"extra\":\x7b\"pos\":[" ++ distance ++
    ",0]\x7d\x7d]\x7d"

/-- What is found out by reading the text into a session, with the node near by. -/
theorem checked_near :
    (Document.parse (distantText "12.5")).toOption.any (fun document =>
      let graph := (run {} [.importDocument document {}]).graph
      graph.nodes.length == 1 && graph.links.isEmpty &&
        decide (Json.memberLevels graph.metadata ≤ depthLimit - 1) &&
        graph.nodes.all fun node => decide (node.entry true).Shallow &&
          (node.entry true).coordinates.all fun coordinate =>
            coordinate.numeral?.isSome) = true := by
  decide +kernel

/-- The document of a session with a node near by is read again. -/
theorem parse_text_near :
    ∃ document, Document.parse (distantText "12.5") = .ok document ∧
      ∃ again, Document.parse
        ((run {} [.importDocument document {}]).toDocument true).text = .ok again := by
  obtain ⟨document, isRead, checked⟩ := Document.exists_of_any_parse checked_near
  simp only [Bool.and_eq_true, List.all_eq_true, decide_eq_true_eq, List.isEmpty_iff] at checked
  obtain ⟨⟨⟨-, noLinks⟩, metadata⟩, nodes⟩ := checked
  have proper : ∀ operation ∈ [Operation.importDocument document {}], operation.Proper :=
    List.forall_mem_singleton.2 ⟨_, isRead⟩
  have isEntry : ∀ entry ∈ ((run {} [.importDocument document {}]).toDocument true).nodes,
      ∃ node ∈ (run {} [.importDocument document {}]).graph.nodes, node.entry true = entry := by
    intro entry member
    obtain ⟨node, isNode, same⟩ := List.mem_map.1 member
    exact ⟨node, documentNodes_subset isNode, same⟩
  have noEdges : ((run {} [.importDocument document {}]).toDocument true).edges = [] := by
    rw [toDocument, Graph.toDocument, noLinks, List.mergeSort_nil]
    rfl
  refine ⟨document, isRead, (parse_text_run {} _ proper true).2 ⟨⟨fun entry member => ?_, ?_,
    metadata⟩, ?_, fun coordinate member => ?_⟩⟩
  · obtain ⟨node, isNode, rfl⟩ := isEntry entry member
    exact (nodes node isNode).1
  · rw [noEdges]
    exact List.forall_mem_nil _
  · rw [noEdges]
    exact List.forall_mem_nil _
  · obtain ⟨entry, isListed, isCoordinate⟩ := List.mem_flatMap.1 member
    obtain ⟨node, isNode, rfl⟩ := isEntry entry isListed
    exact Single.numeral?_isSome_iff.1 ((nodes node isNode).2 coordinate isCoordinate)

/-- What is found out by reading the text into a session, with the node beyond all numbers of single
precision. -/
theorem checked_far :
    (Document.parse (distantText "1e39")).toOption.any (fun document =>
      (run {} [.importDocument document {}]).graph.nodes.any fun node =>
        !node.previewOnly && node.position.x == .infinite false) = true := by
  decide +kernel

/-- The document of a session with a node beyond all numbers is not read again, though the session
read it from a text. -/
theorem parse_text_far :
    ∃ document, Document.parse (distantText "1e39") = .ok document ∧
      ¬ ∃ again, Document.parse
        ((run {} [.importDocument document {}]).toDocument true).text = .ok again := by
  obtain ⟨document, isRead, checked⟩ := Document.exists_of_any_parse checked_far
  simp only [List.any_eq_true, Bool.and_eq_true, Bool.not_eq_true', beq_iff_eq] at checked
  obtain ⟨node, isNode, seen, infinite⟩ := checked
  have proper : ∀ operation ∈ [Operation.importDocument document {}], operation.Proper :=
    List.forall_mem_singleton.2 ⟨_, isRead⟩
  refine ⟨document, isRead, fun isReread => ?_⟩
  have written := (valid_run {} proper).toDocument true
  have member : node.position.x ∈
      ((run {} [.importDocument document {}]).graph.toDocument true).coordinates := by
    refine List.mem_flatMap.2 ⟨node.entry true, List.mem_map_of_mem ?_, ?_⟩
    · exact mem_documentNodes.2 ⟨isNode, seen⟩
    · simp [Node.entry, NodeEntry.coordinates, Node.appearance, Appearance.coordinates,
        Point.coordinates]
  obtain ⟨value, finite⟩ := (written.parse_text_iff.1 isReread).2.2 _ member
  rw [infinite] at finite
  cases finite

end Session

end Workflow
