/-
This file reads schema sources. Reading never fails: what does not fit the language
of declarations is skipped.
-/

import Workflow.Schema.Declaration.Lineage
import Workflow.Schema.Declaration.Lines

namespace Workflow

open Declaration

/-- Reads a schema source. -/
def Schema.parse (source : String) : Schema :=
  let lines := logicalLines source.toList
  let bindings := Bindings.ofLines lines
  { models := resolveModels (gatherBlocks bindings lines)
    constants := bindings.constants
    aliases := bindings.aliases }

end Workflow
