/-
This file checks documents: what was skipped when a document was imported, and
whether each of its nodes is ready to run.
-/

import Workflow.Session

namespace Workflow

open Text

/-- How ready a node of a document is. -/
structure NodeStatus where
  /-- The place of the node in the document. -/
  index : Option Nat
  modelRef : String
  readiness : Readiness

/-- What a check found, with a status for every node that was not skipped. -/
structure CheckReport where
  imported : ImportReport
  nodes : List NodeStatus

/-- The status of a node. -/
def Node.status (node : Node) : NodeStatus := ⟨node.order, node.modelRef, node.readiness⟩

/-- Imports a document and tells the readiness of its nodes. -/
def Session.check (session : Session) (document : Document) (options : ImportOptions) :
    CheckReport × Session :=
  let (imported, session) := session.importDocument document options
  (⟨imported, session.graph.nodes.map Node.status⟩, session)

/-- What a status comes down to. -/
def NodeStatus.verdict (status : NodeStatus) : String :=
  if status.readiness.chainComplete then "ready"
  else if status.readiness.complete then "waiting on upstream"
  else "incomplete"

/-- The line of a status. -/
def NodeStatus.line (status : NodeStatus) : String :=
  let missing :=
    if status.readiness.missing.isEmpty then ""
    else " (missing: " ++ ", ".intercalate status.readiness.missing ++ ")"
  "  #" ++ status.index.elim "-" toString ++ " " ++ status.modelRef ++ " " ++ status.verdict ++
    missing ++ "\n"

namespace CheckReport

/-- Whether nothing was skipped and every node is ready, with all it depends on. -/
def isReady (report : CheckReport) : Bool :=
  report.imported.isClean && report.nodes.all fun status => status.readiness.chainComplete

/-- The lines of a report. -/
def render (report : CheckReport) : String :=
  toString report.imported.nodes ++ " node(s), " ++
    toString report.imported.links ++ " link(s)\n" ++
    String.join (report.imported.skippedNodes.map fun (index, type) =>
      "  skipped node #" ++ toString index ++ " of unknown type " ++ quoted type ++ "\n") ++
    String.join (report.imported.skippedEdges.map fun (index, problem) =>
      "  skipped edge #" ++ toString index ++ ": " ++ problem.message ++ "\n") ++
    String.join (report.nodes.map NodeStatus.line)

end CheckReport

/-- What became of a document, as written. -/
def ImportReport.tree (report : ImportReport) : Tree :=
  .object
    [("nodes", natTree report.nodes), ("links", natTree report.links),
      ("skipped_nodes", .array (report.skippedNodes.map fun (index, type) =>
        .object [("index", natTree index), ("node_type", .string type)])),
      ("skipped_edges", .array (report.skippedEdges.map fun (index, problem) =>
        .object [("index", natTree index), ("reason", .string problem.message)]))]

def NodeStatus.tree (status : NodeStatus) : Tree :=
  .object
    [("index", status.index.elim .null natTree), ("model", .string status.modelRef),
      ("local", .bool status.readiness.complete), ("chain", .bool status.readiness.chainComplete),
      ("missing", .array (status.readiness.missing.map .string))]

def CheckReport.tree (report : CheckReport) : Tree :=
  .object
    [("import", report.imported.tree), ("nodes", .array (report.nodes.map NodeStatus.tree))]

end Workflow
