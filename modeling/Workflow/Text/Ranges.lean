/-
This file holds sets of code points given as closed ranges, the form in which
character properties are tabulated.
-/

namespace Workflow.Text

/-- A set of code points as a list of closed ranges. -/
abbrev Ranges := List (Nat × Nat)

/-- Whether some range holds the code point. -/
def Ranges.contains (ranges : Ranges) (code : Nat) : Bool :=
  ranges.any fun (low, high) => low ≤ code && code ≤ high

end Workflow.Text
