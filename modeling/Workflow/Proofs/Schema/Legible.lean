/-
This file proves that a type is read back from its normal spelling.

A name may be any text that is read as a name and that commas and pipes do not divide,
whatever stands in its brackets and literals; the same goes for the text that a
dictionary keeps. Such a text stays in one piece between the brackets of a wrapper, so
every wrapper finds the arguments that it was spelled with. A pair with the absent value
is the one union that reads as another type, and a union of nothing has no spelling of
its own.
-/

import Workflow.Proofs.Schema.Reading
import Workflow.Proofs.Schema.Spelling
import Workflow.Proofs.Text.Quoted

namespace Workflow

open Text

namespace TypeExpr

/-! ### Legible types -/

/-- A trimmed text whose literals are closed and whose brackets match, without a comma or a pipe
outside them. -/
structure IsPiece (text : List Char) : Prop where
  trimmed : trim text = text
  closed : Scan.start.run text = .start
  matched : ∀ entry ∈ marked .start text, ∀ depth ∈ entry.2, 0 ≤ depth
  commaless : (',', some 0) ∉ marked .start text
  pipeless : ('|', some 0) ∉ marked .start text

/-- A name that is read as itself and stays in one piece. -/
structure IsAtom (name : String) : Prop extends IsPiece name.toList where
  isBasic : parse name = basic name

/-- A type whose names and dictionary values stay in one piece, and whose unions have variants but
are no pairs with the absent value. -/
inductive Legible : TypeExpr → Prop
  | basic {name : String} (isAtom : IsAtom name) : Legible (basic name)
  | optional {inner : TypeExpr} (legible : Legible inner) : Legible (optional inner)
  | union {variants : List TypeExpr} (some : variants ≠ [])
      (unpaired : ¬(variants.length = 2 ∧ basic absentName ∈ variants))
      (legible : ∀ variant ∈ variants, Legible variant) : Legible (union variants)
  | list {item : TypeExpr} (legible : Legible item) : Legible (list item)
  | dict {value : String} (isPiece : IsPiece value.toList) : Legible (dict value)
  | message {payload : TypeExpr} (legible : Legible payload) : Legible (message payload)

namespace IsPiece

variable {text : List Char} (isPiece : IsPiece text)
include isPiece

theorem balanced : Balanced text := balanced_of_start isPiece.closed isPiece.matched

theorem isArgument : IsArgument text :=
  ⟨isPiece.balanced, undivided_of_start isPiece.commaless, isPiece.trimmed⟩

theorem splitTopLevel_pipe : splitTopLevel '|' text = [text] := by
  rw [splitTopLevel_of_undivided (undivided_of_start isPiece.pipeless), isPiece.trimmed]

end IsPiece

/-! ### Wrappers -/

section Wrappers

variable (wrapper : Wrapper) {arguments : List Char}

variable (balanced : Balanced arguments)
include balanced

/-- Brackets keep balanced arguments in one piece. -/
theorem isPiece_wrapped : IsPiece (wrapper.head ++ bracketed arguments) := by
  have isHead := spelling_of_clean wrapper.clean_head.2
  have whole := isHead.balanced.append balanced.bracketed
  have undivided {separator : Char} (plain : isPlain separator = true)
      (absent : separator ∉ wrapper.head) :
      Undivided separator (wrapper.head ++ bracketed arguments) :=
    (undivided_of_notMem absent).append isHead.balanced (undivided_bracketed balanced plain)
  refine ⟨trim_wrapped wrapper arguments, whole.ends 0, whole.above 0, undivided rfl ?_ 0,
    undivided rfl isHead.pipeless 0⟩
  exact fun member => absurd (wrapper.clean_head.2 _ member) (by decide)

/-- A spelled wrapper reads the arguments that it was spelled with. -/
theorem ofChars_wrapped :
    ofChars (wrapper.head ++ bracketed arguments) = ofWrapper arguments wrapper := by
  have trimmed := trim_wrapped wrapper arguments
  have single : ¬1 < (splitTopLevel '|' (trim (wrapper.head ++ bracketed arguments))).length := by
    rw [trimmed, (isPiece_wrapped wrapper balanced).splitTopLevel_pipe]
    exact Nat.lt_irrefl 1
  refine ofChars_of_wrapped single ?_ wrapper.ofHead_head
  rw [trimmed]
  exact splitSubscript_wrapped wrapper balanced

end Wrappers

/-! ### Reading back -/

theorem isAbsent_iff {type : TypeExpr} : type.isAbsent = true ↔ type = basic absentName := by
  cases type <;> simp [isAbsent]

/-- Variants that are no pair with the absent value stay a union. -/
theorem ofVariants_eq_union {variants : List TypeExpr}
    (unpaired : ¬(variants.length = 2 ∧ basic absentName ∈ variants)) :
    ofVariants variants = union variants := by
  refine if_neg fun ⟨absent, pair⟩ => unpaired ⟨pair, ?_⟩
  obtain ⟨variant, member, isAbsent⟩ := List.any_eq_true.1 absent
  exact isAbsent_iff.1 isAbsent ▸ member

theorem splitTopLevel_entry {value : List Char} (isArgument : IsArgument value) :
    splitTopLevel ',' ("str, ".toList ++ value) = ["str".toList, value] := by
  have key : IsArgument "str".toList :=
    (spelling_of_clean (List.all_eq_true.1 rfl)).isArgument
  show splitTopLevel ',' ("str".toList ++ ',' :: ' ' :: value) = _
  rw [splitTopLevel_append key.balanced key.undivided rfl,
    splitTopLevel_cons_of_blank rfl rfl (by decide),
    splitTopLevel_of_undivided isArgument.undivided, isArgument.trim_eq, key.trim_eq]

/-- A legible type stays in one piece if its arguments are balanced. -/
theorem Legible.isPiece_of_arguments {type : TypeExpr} (legible : type.Legible)
    (balanced : ∀ wrapper arguments, type.subscript? = some (wrapper, arguments) →
      Balanced arguments) : IsPiece type.chars := by
  cases isSubscript : type.subscript? with
  | none =>
    cases legible with
    | basic isAtom => exact isAtom.toIsPiece
    | _ => cases isSubscript
  | some subscript =>
    rw [chars_eq_of_subscript? isSubscript]
    exact isPiece_wrapped subscript.1 (balanced _ _ isSubscript)

theorem Legible.balanced_arguments {type : TypeExpr} (legible : type.Legible) :
    ∀ wrapper arguments, type.subscript? = some (wrapper, arguments) → Balanced arguments := by
  intro wrapper arguments isSubscript
  induction legible generalizing wrapper arguments with
  | basic isAtom => cases isSubscript
  | optional legible inductionHypothesis
  | list legible inductionHypothesis
  | message legible inductionHypothesis =>
    obtain ⟨-, rfl⟩ := Prod.mk.inj (Option.some.inj isSubscript)
    exact (legible.isPiece_of_arguments inductionHypothesis).balanced
  | union _ _ legible inductionHypothesis =>
    obtain ⟨-, rfl⟩ := Prod.mk.inj (Option.some.inj isSubscript)
    exact balanced_charsOfAll fun variant member =>
      ((legible variant member).isPiece_of_arguments (inductionHypothesis variant member)).balanced
  | dict isPiece =>
    obtain ⟨-, rfl⟩ := Prod.mk.inj (Option.some.inj isSubscript)
    have key : Balanced "str, ".toList := balanced_of_plain (List.all_eq_true.1 rfl)
    exact key.append isPiece.balanced

/-- The spelling of a legible type stays in one piece. -/
theorem Legible.isPiece {type : TypeExpr} (legible : type.Legible) : IsPiece type.chars :=
  legible.isPiece_of_arguments legible.balanced_arguments

theorem Legible.ofChars_eq {type : TypeExpr} (legible : type.Legible) {wrapper : Wrapper}
    {arguments : List Char} (isSubscript : type.subscript? = some (wrapper, arguments)) :
    ofChars type.chars = ofWrapper arguments wrapper := by
  rw [chars_eq_of_subscript? isSubscript]
  exact ofChars_wrapped wrapper (legible.balanced_arguments _ _ isSubscript)

theorem Legible.splitTopLevel_comma {type : TypeExpr} (legible : type.Legible) :
    splitTopLevel ',' type.chars = [type.chars] := by
  rw [splitTopLevel_of_undivided legible.isPiece.isArgument.undivided, legible.isPiece.trimmed]

theorem Legible.ofChars_chars {type : TypeExpr} (legible : type.Legible) :
    ofChars type.chars = type := by
  induction legible with
  | basic isAtom => exact isAtom.isBasic
  | optional inner isInner =>
    exact ((Legible.optional inner).ofChars_eq rfl).trans (congrArg TypeExpr.optional isInner)
  | @union variants some unpaired legible isVariant =>
    have pieces := splitTopLevel_charsOfAll some fun variant member =>
      (legible variant member).isPiece.isArgument
    have read : variants.map (ofChars ∘ chars) = variants :=
      (List.map_congr_left isVariant).trans (List.map_id' variants)
    refine ((Legible.union some unpaired legible).ofChars_eq rfl).trans ?_
    show ofVariants ((splitTopLevel ',' (charsOfAll variants)).map ofChars) = .union variants
    rw [pieces, List.map_map, read, ofVariants_eq_union unpaired]
  | list item isItem =>
    refine ((Legible.list item).ofChars_eq rfl).trans (congrArg TypeExpr.list ?_)
    rw [item.splitTopLevel_comma]
    exact isItem
  | dict isPiece =>
    refine ((Legible.dict isPiece).ofChars_eq rfl).trans (congrArg TypeExpr.dict ?_)
    rw [splitTopLevel_entry isPiece.isArgument]
    exact String.ofList_toList
  | message payload isPayload =>
    exact ((Legible.message payload).ofChars_eq rfl).trans (congrArg TypeExpr.message isPayload)

/-- A legible type is read back from its normal spelling. -/
theorem parse_display {type : TypeExpr} (legible : type.Legible) : parse type.display = type := by
  rw [parse, toList_display]
  exact legible.ofChars_chars

/-- A choice with a comma and brackets in its literal, in a union whose last variant is a list of
optional dictionaries. -/
theorem parse_display_choice :
    let type := union [basic "Literal[\"a, b]\"]", basic "None",
      list (optional (dict "x.Set[int | str]"))]
    type.Legible ∧ type.display =
        "Union[Literal[\"a, b]\"], None, List[Optional[Dict[str, x.Set[int | str]]]]]" ∧
      parse type.display = type := by
  intro type
  have choice : IsAtom "Literal[\"a, b]\"]" := by
    refine ⟨⟨by decide, by decide, by decide, by decide, by decide⟩, ?_⟩
    exact ofChars_of_unwrapped (by decide)
      (by decide : _ = some ("Literal".toList, "\"a, b]\"".toList)) rfl
  have none : IsAtom "None" := by
    refine ⟨⟨by decide, by decide, by decide, by decide, by decide⟩, ?_⟩
    exact ofChars_of_unbracketed (by decide) (by decide)
  have legible : type.Legible := by
    refine .union (List.cons_ne_nil _ _) (fun pair => absurd pair.1 (by decide))
      fun variant member => ?_
    simp only [List.mem_cons, List.not_mem_nil, or_false] at member
    obtain rfl | rfl | rfl := member
    · exact .basic choice
    · exact .basic none
    · exact .list (.optional (.dict ⟨by decide, by decide, by decide, by decide, by decide⟩))
  exact ⟨legible, by decide, parse_display legible⟩

end TypeExpr

end Workflow
