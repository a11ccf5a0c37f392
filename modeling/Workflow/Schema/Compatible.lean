/-
This file decides whether a value of one type may feed an input of another. Types
are compared by their spelling: a consumer that is optional or a union takes what
its parts take, a dotted name is known by its last part as well, and a few names
are synonyms. Pairs that no rule joins are incompatible.
-/

import Workflow.Schema.TypeExpr

namespace Workflow

open Text

/-- Pairs of names for one type. -/
def typeSynonyms : List (List Char × List Char) :=
  [("index".toList, "int".toList), ("str".toList, "string".toList)]

def synonymous (producer consumer : List Char) : Bool :=
  typeSynonyms.any fun (first, second) =>
    (producer == first && consumer == second) || (producer == second && consumer == first)

/-- The inner type of a text spelled `Optional[…]`. -/
def optionalInner (type : List Char) : Option (List Char) :=
  match splitSubscript type with
  | some (head, arguments) => if head = "Optional".toList then some (trim arguments) else none
  | none => none

/-- The variants of a text joined by pipes or spelled `Union[…]`; none for other texts. -/
def unionVariants (type : List Char) : List (List Char) :=
  let pipes := splitTopLevel '|' type
  if 1 < pipes.length then pipes
  else
    match splitSubscript type with
    | some (head, arguments) =>
      if head = "Union".toList then splitTopLevel ',' arguments else []
    | none => []

/-- The last part of a dotted name, when there is one and it is not empty. -/
def namespaceTail (type : List Char) : Option (List Char) :=
  if type.any fun c => c == '[' || c == '|' || c == ',' then none
  else
    match cutLast '.' type with
    | some (_, tail) => if tail.isEmpty then none else some tail
    | none => none

theorem length_lt_of_optionalInner {type inner : List Char}
    (found : optionalInner type = some inner) : inner.length < type.length := by
  rw [optionalInner] at found
  split at found
  · next head arguments call =>
    simp only [Option.ite_none_right_eq_some, Option.some.injEq] at found
    obtain ⟨-, rfl⟩ := found
    exact Nat.lt_of_le_of_lt (length_trim_le arguments) (length_lt_of_splitCall call)
  · simp at found

theorem length_lt_of_mem_unionVariants {type variant : List Char}
    (member : variant ∈ unionVariants type) : variant.length < type.length := by
  simp only [unionVariants] at member
  split at member
  · next several => exact length_lt_of_mem_splitTopLevel member several
  · split at member
    · next head arguments call =>
      split at member
      · exact Nat.lt_of_le_of_lt (length_le_of_mem_splitTopLevel member)
          (length_lt_of_splitCall call)
      · simp at member
    · simp at member

theorem length_lt_of_namespaceTail {type tail : List Char}
    (found : namespaceTail type = some tail) : tail.length < type.length := by
  simp only [namespaceTail] at found
  split at found
  · simp at found
  · split at found
    · next head last cutFound =>
      simp only [Option.ite_none_left_eq_some, Option.some.injEq] at found
      obtain ⟨-, rfl⟩ := found
      simp only [cutLast, Option.map_eq_some_iff, Prod.exists, Prod.mk.injEq] at cutFound
      obtain ⟨after, before, reversed, -, rfl⟩ := cutFound
      have whole := congrArg List.length (eq_of_cut reversed)
      simp only [List.length_reverse, List.length_append, List.length_cons] at whole ⊢
      omega
    · simp at found

/-- Compares two types given by their characters. -/
def compatibleChars (producer consumer : List Char) : Bool :=
  let source := trim producer
  let sink := trim consumer
  source == sink
  || source == TypeExpr.anyName.toList || sink == TypeExpr.anyName.toList
  || (match found : optionalInner sink with
      | some inner =>
        have := length_lt_of_optionalInner found
        compatibleChars source inner
      | none => false)
  || (unionVariants sink).attach.any (fun ⟨variant, member⟩ =>
      have := length_lt_of_mem_unionVariants member
      compatibleChars source variant)
  || (match found : namespaceTail source with
      | some tail =>
        have := length_lt_of_namespaceTail found
        compatibleChars tail sink
      | none => false)
  || (match found : namespaceTail sink with
      | some tail =>
        have := length_lt_of_namespaceTail found
        compatibleChars source tail
      | none => false)
  || synonymous source sink
termination_by producer.length + consumer.length
decreasing_by
  all_goals
    have := length_trim_le producer
    have := length_trim_le consumer
    simp +zetaDelta only at *
    omega

/-- Whether a value of type `producer` may feed an input of type `consumer`. -/
def compatible (producer consumer : String) : Bool :=
  compatibleChars producer.toList consumer.toList

end Workflow
