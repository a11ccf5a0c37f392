/-
This file says how procedures run step by step, and what it means that a procedure does
what a function says that answers with another state or has a problem.

A function has no state to spoil when it has a problem. A procedure that settles as a
function does gives up only with the state as it was.
-/

import Workflow.Procedure

namespace Workflow

variable {State Problem Answer Other : Type}

/-! ### Steps -/

section Steps

variable (state : State)

theorem run_get_bind (next : State → EStateM Problem State Answer) :
    (get >>= next).run state = (next state).run state := rfl

theorem run_bind_of_ok {first : EStateM Problem State Other}
    {next : Other → EStateM Problem State Answer} {state after : State} {answer : Other}
    (isRun : first.run state = .ok answer after) :
    (first >>= next).run state = (next answer).run after := by
  rw [EStateM.run] at isRun
  show EStateM.bind first next state = _
  rw [EStateM.bind, isRun]
  rfl

theorem run_require_bind (problem : Problem) (found : Option Other)
    (next : Other → EStateM Problem State Answer) :
    (require problem found >>= next).run state =
      match found with
      | some answer => (next answer).run state
      | none => .error problem state := by
  cases found <;> rfl

theorem run_forbid_bind (problem : Other → Problem) (found : Option Other)
    (next : Unit → EStateM Problem State Answer) :
    (forbid problem found >>= next).run state =
      match found with
      | some answer => .error (problem answer) state
      | none => (next ()).run state := by
  cases found <;> rfl

theorem run_refuse_bind (condition : Prop) [Decidable condition] (problem : Problem)
    (next : Unit → EStateM Problem State Answer) :
    (refuse condition problem >>= next).run state =
      if condition then .error problem state else (next ()).run state := by
  by_cases holds : condition
  · rw [refuse, if_pos holds, if_pos holds]
    rfl
  · rw [refuse, if_neg holds, if_neg holds]
    rfl

theorem run_demand_bind (answer : Except Problem Other)
    (next : Other → EStateM Problem State Answer) :
    (demand answer >>= next).run state =
      match answer with
      | .ok found => (next found).run state
      | .error problem => .error problem state := by
  cases answer <;> rfl

/-- The state that a procedure leaves, also if it gave up. -/
def leftBy : EStateM.Result Problem State Answer → State
  | .ok _ after => after
  | .error _ after => after

theorem run_attempt (procedure : EStateM Problem State Other) :
    (attempt procedure : EStateM Answer State Unit).run state =
      .ok () (leftBy (procedure.run state)) := by
  rw [EStateM.run, attempt]
  cases procedure.run state <;> rfl

end Steps

/-! ### Results -/

/-- The result of a function that answers with another state or has a problem. -/
def settle (state : State) :
    Except Problem (Answer × State) → EStateM.Result Problem State Answer
  | .ok (answer, after) => .ok answer after
  | .error problem => .error problem state

/-- What a function finds, or else that it found nothing. -/
def orNothing (found : Option (Answer × State)) : Except Unit (Answer × State) :=
  found.elim (.error ()) .ok

/-- The other state as an answer that says nothing more. -/
def justState (after : State) : Unit × State := ((), after)

/-- If a procedure gives up, the state is as it was. -/
def LeavesIntact (procedure : EStateM Problem State Answer) (state : State) : Prop :=
  ∀ problem after, procedure.run state = .error problem after → after = state

theorem leavesIntact_of_settle {procedure : EStateM Problem State Answer} {state : State}
    {result : Except Problem (Answer × State)}
    (settles : procedure.run state = settle state result) : LeavesIntact procedure state := by
  intro problem after gaveUp
  rw [settles] at gaveUp
  cases result with
  | error other =>
    cases gaveUp
    rfl
  | ok pair => cases gaveUp

/-! ### Going on after a failure -/

section Attempts

variable {procedure : EStateM Problem State Answer} {state : State}

theorem run_attempt_of_settle {result : Except Problem (Answer × State)}
    (settles : procedure.run state = settle state result) :
    (attempt procedure : EStateM Other State Unit).run state =
      .ok () ((result.toOption.map Prod.snd).getD state) := by
  rw [run_attempt, settles]
  cases result <;> rfl

theorem run_attempt_of_found {procedure : EStateM Unit State Answer}
    {found : Option (Answer × State)}
    (settles : procedure.run state = settle state (orNothing found)) :
    (attempt procedure : EStateM Other State Unit).run state =
      .ok () ((found.map Prod.snd).getD state) := by
  rw [run_attempt, settles]
  cases found <;> rfl

theorem run_attempt_of_changed {procedure : EStateM Unit State Unit} {changed : Option State}
    (settles : procedure.run state = settle state (orNothing (changed.map justState))) :
    (attempt procedure : EStateM Other State Unit).run state = .ok () (changed.getD state) := by
  rw [run_attempt, settles]
  cases changed <;> rfl

theorem run_attempt_of_edited {procedure : EStateM Problem State Unit}
    {edited : Except Problem State}
    (settles : procedure.run state = settle state (edited.map justState)) :
    (attempt procedure : EStateM Other State Unit).run state =
      .ok () (edited.toOption.getD state) := by
  rw [run_attempt, settles]
  cases edited <;> rfl

end Attempts

/-- Steps that do what a function says wherever an invariant holds, which the function keeps, do one
after the other what the function says. -/
theorem run_forM {Operation : Type} {carryOut : Operation → EStateM Problem State Unit}
    {perform : State → Operation → State} {Holds : State → Prop}
    (step : ∀ state operation, Holds state →
      (carryOut operation).run state = .ok () (perform state operation))
    (keeps : ∀ state operation, Holds state → Holds (perform state operation))
    (operations : List Operation) {state : State} (holds : Holds state) :
    (forM operations carryOut).run state = .ok () (operations.foldl perform state) := by
  induction operations generalizing state with
  | nil => rfl
  | cons operation rest inductionHypothesis =>
    rw [List.forM_cons, run_bind_of_ok (step state operation holds)]
    exact inductionHypothesis (keeps state operation holds)

end Workflow
