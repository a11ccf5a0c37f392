/-
This file holds the steps of procedures that change a state in place.

A procedure goes on from one step to the next with the state as it is by then, and ends
with an answer or gives up with a problem. The state stays as it was when the procedure
gave up; nothing that was changed before is undone.
-/

namespace Workflow

section Steps

variable {State Problem Answer Other : Type}

/-- Goes on with what was found, or gives up if nothing was. -/
def require (problem : Problem) : Option Answer → EStateM Problem State Answer
  | some found => pure found
  | none => throw problem

/-- Gives up if something was found. -/
def forbid (problem : Answer → Problem) : Option Answer → EStateM Problem State Unit
  | some found => throw (problem found)
  | none => pure ()

/-- Gives up if a condition holds. -/
def refuse (condition : Prop) [Decidable condition] (problem : Problem) :
    EStateM Problem State Unit :=
  if condition then throw problem else pure ()

/-- Goes on with an answer, or gives up with its problem. -/
def demand : Except Problem Answer → EStateM Problem State Answer
  | .ok answer => pure answer
  | .error problem => throw problem

/-- Runs a procedure and goes on, whether it gave up or not. -/
def attempt (procedure : EStateM Other State Answer) : EStateM Problem State Unit := fun state =>
  match procedure.run state with
  | .ok _ after => .ok () after
  | .error _ after => .ok () after

end Steps

end Workflow
