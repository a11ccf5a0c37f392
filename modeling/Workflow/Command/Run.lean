/-
This file takes documents through a session: writing them again, and previewing
what their nodes produce.
-/

import Workflow.Session

namespace Workflow

namespace Session

/-- Imports a document and writes it again. -/
def roundtrip (session : Session) (document : Document) (options : ImportOptions)
    (withLayout : Bool) : ImportReport × Document :=
  let (report, session) := session.importDocument document options
  (report, session.toDocument withLayout)

/-- The key of a node in previews: its place in the document. -/
def previewKey (node : Node) : String := node.order.elim node.id.name toString

/-- Imports a document and runs a preview; every node's object is under its key. -/
def previewDocument (session : Session) (document : Document) (options : ImportOptions) : Json :=
  let session := (session.importDocument document options).2
  let outputs := session.preview
  .object (Object.ofList (session.graph.nodes.map fun node =>
    (previewKey node, (outputs.lookup node.id).elim .null .object)))

end Session

end Workflow
