/-
This file measures texts in bytes.
-/

namespace Workflow.Text

/-- The size of a text when encoded in bytes. -/
def byteSize : List Char → Nat
  | [] => 0
  | c :: rest => c.utf8Size + byteSize rest

end Workflow.Text
