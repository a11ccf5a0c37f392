/-
This file states the rule by which types are read, with one case for each wrapper.

Pipes come first: the pieces between them are variants. A text that they do not divide
is a wrapper with its arguments in brackets, which the wrapper reads in its own way, and
everything else is a name.
-/

import Workflow.Schema.TypeExpr

namespace Workflow.TypeExpr

open Text

/-- The type that a wrapper makes of its arguments. -/
def ofWrapper (arguments : List Char) : Wrapper → TypeExpr
  | .optional => optional (ofChars arguments)
  | .union => ofVariants ((splitTopLevel ',' arguments).map ofChars)
  | .list => list (ofChars ((splitTopLevel ',' arguments).headD []))
  | .dict => dict (((splitTopLevel ',' arguments)[1]?).elim anyName String.ofList)
  | .message => message (ofChars arguments)
  | .annotated => ofChars ((splitTopLevel ',' arguments).headD [])

theorem head_splitTopLevel (separator : Char) (text : List Char) :
    (splitTopLevel separator text).head (splitTopLevel_ne_nil separator text) =
      (splitTopLevel separator text).headD [] := by
  rw [List.headD_eq_head?_getD, List.head?_eq_some_head, Option.getD_some]

section Rules

variable {text : List Char}

/-- Texts joined by pipes are variants. -/
theorem ofChars_of_pipes (several : 1 < (splitTopLevel '|' (trim text)).length) :
    ofChars text = ofVariants ((splitTopLevel '|' (trim text)).map ofChars) := by
  rw [ofChars, dif_pos several]
  exact congrArg ofVariants (List.attach_map_val (f := ofChars))

variable (single : ¬1 < (splitTopLevel '|' (trim text)).length)
include single

/-- A text without brackets that make up its end is a name. -/
theorem ofChars_of_unbracketed (unbracketed : splitSubscript (trim text) = none) :
    ofChars text = basic (String.ofList (trim text)) := by
  rw [ofChars, dif_neg single]
  split
  · rfl
  · next found => cases unbracketed.symm.trans found

variable {head arguments : List Char}
  (bracketed : splitSubscript (trim text) = some (head, arguments))
include bracketed

/-- A head that names no wrapper leaves the whole text as a name. -/
theorem ofChars_of_unwrapped (unwrapped : Wrapper.ofHead head = none) :
    ofChars text = basic (String.ofList (trim text)) := by
  rw [ofChars, dif_neg single]
  split
  · rfl
  · next found =>
    obtain ⟨rfl, rfl⟩ := Prod.mk.inj (Option.some.inj (bracketed.symm.trans found))
    split <;> first | rfl | next isWrapper => cases unwrapped.symm.trans isWrapper

/-- A wrapper reads its arguments. -/
theorem ofChars_of_wrapped {wrapper : Wrapper} (wrapped : Wrapper.ofHead head = some wrapper) :
    ofChars text = ofWrapper arguments wrapper := by
  rw [ofChars, dif_neg single]
  split
  · next unbracketed => cases bracketed.symm.trans unbracketed
  · next found =>
    obtain ⟨rfl, rfl⟩ := Prod.mk.inj (Option.some.inj (bracketed.symm.trans found))
    split
    · next unwrapped => cases wrapped.symm.trans unwrapped
    all_goals
      next isWrapper =>
      cases wrapped.symm.trans isWrapper
      first
        | exact congrArg ofVariants List.attach_map_val
        | rfl
        | simp only [head_splitTopLevel, ofWrapper]

end Rules

end Workflow.TypeExpr
