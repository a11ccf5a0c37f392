/-
This file proves that reading a type and comparing its text go into the same parts.

A text is read as an optional type or a union from parts of it: the pieces between its
pipes, or what stands in the brackets of its wrapper. The comparison of texts looks for
the same parts as long as the wrapper goes by its bare name, so what feeds the text of a
part feeds the whole. It compares spellings, and a part need not be spelled normally:
the normal spelling of a wrapped type does not feed the same type in another spelling.
For legible types this is the only way in which a normal spelling says more than the
text that it is read from.
-/

import Workflow.Proofs.Schema.Compatible
import Workflow.Proofs.Schema.Legible

namespace Workflow

open Text

/-! ### Comparing trimmed texts -/

theorem compatibleChars_trim_left (producer consumer : List Char) :
    compatibleChars (trim producer) consumer = compatibleChars producer consumer := by
  rw [Bool.eq_iff_iff, compatibleChars_iff, compatibleChars_iff producer, trim_trim]

theorem compatibleChars_trim_right (producer consumer : List Char) :
    compatibleChars producer (trim consumer) = compatibleChars producer consumer := by
  rw [Bool.eq_iff_iff, compatibleChars_iff, compatibleChars_iff _ consumer, trim_trim]

theorem namespaceTail_of_bracket {text : List Char} (bracket : '[' ∈ text) :
    namespaceTail text = none :=
  if_pos (List.any_eq_true.2 ⟨'[', bracket, rfl⟩)

/-- The last part of a dotted name has no bracket. -/
theorem bracketless_of_namespaceTail {text tail : List Char}
    (isTail : namespaceTail text = some tail) : '[' ∉ tail := by
  intro inTail
  rw [namespaceTail] at isTail
  split at isTail
  · cases isTail
  · next unbroken =>
    split at isTail
    · next parts isCut =>
      simp only [Option.ite_none_left_eq_some, Option.some.injEq] at isTail
      obtain ⟨-, rfl⟩ := isTail
      obtain ⟨rfl, -⟩ := cutLast_eq_some_iff.1 isCut
      refine unbroken (List.any_eq_true.2 ⟨'[', ?_, rfl⟩)
      exact List.mem_append_right _ (List.mem_cons_of_mem _ inTail)
    · cases isTail

namespace TypeExpr

/-! ### Parts of a text -/

/-- The texts from which the inner type of an optional type and the variants of a union are
read. -/
def partTexts (text : List Char) : List (List Char) :=
  let pipes := splitTopLevel '|' (trim text)
  if 1 < pipes.length then pipes
  else
    match splitSubscript (trim text) with
    | none => []
    | some (head, arguments) =>
      match Wrapper.ofHead head with
      | some .optional => [arguments]
      | some .union => splitTopLevel ',' arguments
      | _ => []

/-- Whether the wrapper of a text makes it optional or a union under a qualified name, or hides
its type in an annotation. -/
def isVeiled (text : List Char) : Bool :=
  !decide (1 < (splitTopLevel '|' (trim text)).length) &&
    (splitSubscript (trim text)).any fun (head, _) =>
      match Wrapper.ofHead head with
      | some .optional => head != Wrapper.optional.head
      | some .union => head != Wrapper.union.head
      | some .annotated => true
      | _ => false

/-- A type is the inner type of an optional type or a variant of a union. -/
def IsPartOf (part whole : TypeExpr) : Prop :=
  whole = optional part ∨ ∃ variants, whole = union variants ∧ part ∈ variants

theorem isPartOf_optional_iff {part inner : TypeExpr} :
    IsPartOf part (optional inner) ↔ part = inner := by
  simp [IsPartOf, eq_comm]

theorem isPartOf_union_iff {part : TypeExpr} {variants : List TypeExpr} :
    IsPartOf part (union variants) ↔ part ∈ variants := by
  simp [IsPartOf]

/-- A pair with the absent value has the other one of the pair as its part. -/
theorem mem_of_isPartOf_ofVariants {part : TypeExpr} {variants : List TypeExpr}
    (isPart : IsPartOf part (ofVariants variants)) : part ∈ variants := by
  rw [ofVariants] at isPart
  split at isPart
  · split at isPart
    · next inner isLast =>
      rw [isPartOf_optional_iff.1 isPart]
      exact List.mem_of_mem_filter (List.mem_of_getLast? isLast)
    · cases isPartOf_union_iff.1 isPart
  · exact isPartOf_union_iff.1 isPart

theorem ofVariants_ne_basic (variants : List TypeExpr) (name : String) :
    ofVariants variants ≠ basic name := by
  rw [ofVariants]
  split
  · split <;> nofun
  · nofun

/-- How a text is read that is not veiled: from its parts, or as a type without parts. -/
inductive Reads (text : List Char) : Prop
  | pipes (several : 1 < (splitTopLevel '|' (trim text)).length)
  | optional {arguments : List Char} (single : ¬1 < (splitTopLevel '|' (trim text)).length)
      (bracketed : splitSubscript (trim text) = some (Wrapper.optional.head, arguments))
  | union {arguments : List Char} (single : ¬1 < (splitTopLevel '|' (trim text)).length)
      (bracketed : splitSubscript (trim text) = some (Wrapper.union.head, arguments))
  | name (partless : partTexts text = [])
      (isName : ofChars text = basic (String.ofList (trim text)))
  | other (partless : partTexts text = []) {wrapper : Wrapper} {arguments : List Char}
      (apart : wrapper = .list ∨ wrapper = .dict ∨ wrapper = .message)
      (isType : ofChars text = ofWrapper arguments wrapper)

theorem reads_of_unveiled {text : List Char} (unveiled : isVeiled text = false) : Reads text := by
  by_cases several : 1 < (splitTopLevel '|' (trim text)).length
  · exact .pipes several
  cases bracketed : splitSubscript (trim text) with
  | none =>
    have partless : partTexts text = [] := by simp only [partTexts, if_neg several, bracketed]
    exact .name partless (ofChars_of_unbracketed several bracketed)
  | some parts =>
    obtain ⟨head, arguments⟩ := parts
    have bare := unveiled
    simp only [isVeiled, several, decide_false, Bool.not_false, Bool.true_and, bracketed,
      Option.any_some] at bare
    have parts := partTexts.eq_def text
    simp only [if_neg several, bracketed] at parts
    cases wrapped : Wrapper.ofHead head with
    | none =>
      rw [wrapped] at parts
      exact .name parts (ofChars_of_unwrapped several bracketed wrapped)
    | some wrapper =>
      have isType := ofChars_of_wrapped several bracketed wrapped
      rw [wrapped] at bare parts
      cases wrapper with
      | optional =>
        obtain rfl : head = Wrapper.optional.head := by simpa using bare
        exact .optional several bracketed
      | union =>
        obtain rfl : head = Wrapper.union.head := by simpa using bare
        exact .union several bracketed
      | annotated => cases bare
      | list => exact .other parts (.inl rfl) isType
      | dict => exact .other parts (.inr (.inl rfl)) isType
      | message => exact .other parts (.inr (.inr rfl)) isType

section Unveiled

variable {text : List Char} (unveiled : isVeiled text = false)
include unveiled

/-- Every part of a type is read from a part of its text. -/
theorem exists_partText {type : TypeExpr} (isPart : IsPartOf type (ofChars text)) :
    ∃ part ∈ partTexts text, ofChars part = type := by
  cases reads_of_unveiled unveiled with
  | pipes several =>
    rw [ofChars_of_pipes several] at isPart
    rw [partTexts, if_pos several]
    exact List.mem_map.1 (mem_of_isPartOf_ofVariants isPart)
  | @optional arguments single bracketed =>
    rw [ofChars_of_wrapped single bracketed (Wrapper.ofHead_head .optional)] at isPart
    have parts : partTexts text = [arguments] := by
      simp only [partTexts, if_neg single, bracketed, Wrapper.ofHead_head]
    exact ⟨arguments, parts ▸ List.mem_singleton_self _, (isPartOf_optional_iff.1 isPart).symm⟩
  | @union arguments single bracketed =>
    rw [ofChars_of_wrapped single bracketed (Wrapper.ofHead_head .union)] at isPart
    have parts : partTexts text = splitTopLevel ',' arguments := by
      simp only [partTexts, if_neg single, bracketed, Wrapper.ofHead_head]
    rw [parts]
    exact List.mem_map.1 (mem_of_isPartOf_ofVariants isPart)
  | name _ isName =>
    rw [isName] at isPart
    rcases isPart with same | ⟨variants, same, -⟩ <;> cases same
  | other _ apart isType =>
    rw [isType] at isPart
    obtain rfl | rfl | rfl := apart <;> rcases isPart with same | ⟨variants, same, -⟩ <;> cases same

/-- What feeds a part of a text feeds the text. -/
theorem compatibleChars_of_partText {producer part : List Char} (isPart : part ∈ partTexts text)
    (feeds : compatibleChars producer part = true) : compatibleChars producer text = true := by
  have fed : compatibleChars (trim producer) part = true := by
    rwa [compatibleChars_trim_left]
  have variant (member : part ∈ unionVariants (trim text)) :
      compatibleChars producer text = true :=
    (compatibleChars_iff producer text).2 (.inr (.inr (.inr (.inr (.inl ⟨part, member, fed⟩)))))
  cases reads_of_unveiled unveiled with
  | pipes several =>
    rw [partTexts, if_pos several] at isPart
    refine variant ?_
    rw [unionVariants, if_pos several]
    exact isPart
  | @optional arguments single bracketed =>
    simp only [partTexts, if_neg single, bracketed, Wrapper.ofHead_head,
      List.mem_singleton] at isPart
    have inner : optionalInner (trim text) = some (trim part) := by
      rw [optionalInner, bracketed, isPart]
      rfl
    rw [← compatibleChars_trim_right] at fed
    exact (compatibleChars_iff producer text).2 (.inr (.inr (.inr (.inl ⟨_, inner, fed⟩))))
  | @union arguments single bracketed =>
    simp only [partTexts, if_neg single, bracketed, Wrapper.ofHead_head] at isPart
    refine variant ?_
    simp only [unionVariants, if_neg single, bracketed]
    exact isPart
  | name partless | other partless =>
    rw [partless] at isPart
    cases isPart

/-- A name is spelled as the text is that it is read from. -/
theorem chars_of_isBasic {name : String} (isBasic : ofChars text = basic name) :
    (ofChars text).chars = trim text := by
  cases reads_of_unveiled unveiled with
  | pipes several =>
    rw [ofChars_of_pipes several] at isBasic
    exact absurd isBasic (ofVariants_ne_basic _ name)
  | optional single bracketed =>
    rw [ofChars_of_wrapped single bracketed (Wrapper.ofHead_head .optional)] at isBasic
    cases isBasic
  | union single bracketed =>
    rw [ofChars_of_wrapped single bracketed (Wrapper.ofHead_head .union)] at isBasic
    exact absurd isBasic (ofVariants_ne_basic _ name)
  | name _ isName =>
    rw [isName]
    exact String.toList_ofList
  | other _ apart isType =>
    rw [isType] at isBasic
    obtain rfl | rfl | rfl := apart <;> cases isBasic

end Unveiled

/-! ### Normal spellings of parts -/

/-- No part of a text is veiled. -/
inductive Direct : List Char → Prop
  | intro {text : List Char} (unveiled : isVeiled text = false)
      (parts : ∀ part ∈ partTexts text, Direct part) : Direct text

/-- A text is the normal spelling of a type that another text holds in a different spelling. -/
inductive Respelled (producer : List Char) : List Char → Prop
  | whole {text : List Char} (normal : trim producer = (ofChars text).chars)
      (apart : trim text ≠ (ofChars text).chars) : Respelled producer text
  | part {text part : List Char} (isPart : part ∈ partTexts text)
      (respelled : Respelled producer part) : Respelled producer text

theorem bracket_mem_chars {type : TypeExpr} {wrapper : Wrapper} {arguments : List Char}
    (isSubscript : type.subscript? = some (wrapper, arguments)) : '[' ∈ type.chars := by
  rw [chars_eq_of_subscript? isSubscript]
  exact List.mem_append_right _ List.mem_cons_self

theorem isBasic_of_subscript? {type : TypeExpr} (isNone : type.subscript? = none) :
    ∃ name, type = basic name := by
  cases type with
  | basic name => exact ⟨name, rfl⟩
  | _ => cases isNone

/-- Only wrapped types are spelled in several ways. -/
theorem Respelled.bracket_mem {producer text : List Char} (respelled : Respelled producer text)
    (direct : Direct text) : '[' ∈ trim producer := by
  induction respelled with
  | @whole text normal apart =>
    obtain ⟨unveiled, -⟩ := direct
    cases isSubscript : (ofChars text).subscript? with
    | none =>
      obtain ⟨name, isBasic⟩ := isBasic_of_subscript? isSubscript
      exact absurd (chars_of_isBasic unveiled isBasic).symm apart
    | some subscript =>
      rw [normal]
      exact bracket_mem_chars isSubscript
  | part isPart _ inductionHypothesis =>
    obtain ⟨-, parts⟩ := direct
    exact inductionHypothesis (parts _ isPart)

section Legible

variable {type : TypeExpr} (legible : type.Legible)
include legible

/-- The inner text of a legible type is the spelling of its inner type. -/
theorem isPartOf_of_optionalInner {wrapper : Wrapper} {arguments inner : List Char}
    (isSubscript : type.subscript? = some (wrapper, arguments))
    (isInner : optionalInner type.chars = some inner) :
    ∃ part, IsPartOf part type ∧ part.Legible ∧ inner = part.chars := by
  have balanced := legible.balanced_arguments _ _ isSubscript
  rw [optionalInner, chars_eq_of_subscript? isSubscript, splitSubscript_wrapped wrapper balanced]
    at isInner
  simp only [Option.ite_none_right_eq_some, Option.some.injEq] at isInner
  obtain ⟨isOptional, rfl⟩ := isInner
  obtain rfl : wrapper = .optional := Wrapper.head_inj.1 isOptional
  cases legible with
  | optional legible =>
    obtain ⟨-, rfl⟩ := Prod.mk.inj (Option.some.inj isSubscript)
    exact ⟨_, .inl rfl, legible, legible.isPiece.trimmed⟩
  | _ => cases isSubscript

/-- The variants in the text of a legible type are the spellings of its variants. -/
theorem isPartOf_of_mem_unionVariants {wrapper : Wrapper} {arguments variant : List Char}
    (isSubscript : type.subscript? = some (wrapper, arguments))
    (member : variant ∈ unionVariants type.chars) :
    ∃ part, IsPartOf part type ∧ part.Legible ∧ variant = part.chars := by
  have balanced := legible.balanced_arguments _ _ isSubscript
  have single := legible.isPiece.splitTopLevel_pipe
  have bracketed := splitSubscript_wrapped wrapper balanced
  rw [← chars_eq_of_subscript? isSubscript] at bracketed
  simp only [unionVariants, single, List.length_singleton, Nat.lt_irrefl, if_false, bracketed]
    at member
  split at member
  · next isUnion =>
    obtain rfl : wrapper = .union := Wrapper.head_inj.1 isUnion
    cases legible with
    | @union variants some _ legible =>
      obtain ⟨-, rfl⟩ := Prod.mk.inj (Option.some.inj isSubscript)
      rw [splitTopLevel_charsOfAll some fun variant member =>
        (legible variant member).isPiece.isArgument] at member
      obtain ⟨part, isPart, rfl⟩ := List.mem_map.1 member
      exact ⟨part, .inr ⟨variants, rfl, isPart⟩, legible part isPart, rfl⟩
    | _ => cases isSubscript
  · cases member

end Legible

/-- No name of its own meaning has a bracket. -/
theorem bracketless_of_synonymous {first second : List Char}
    (synonym : synonymous first second = true) : '[' ∉ second := by
  obtain ⟨one, other, listed, -, rfl⟩ := synonymous_iff.1 synonym
  intro member
  cases (isName_of_mem_synonyms listed).2.clean _ member

/-- What feeds the normal spelling of a legible type feeds the text that it is read from, but for
normal spellings of wrapped types that stand there in a different spelling. -/
theorem compatibleChars_or_respelled {producer text : List Char} (direct : Direct text)
    (legible : (ofChars text).Legible)
    (feeds : compatibleChars producer (ofChars text).chars = true) :
    compatibleChars producer text = true ∨ Respelled producer text := by
  induction direct generalizing producer with
  | @intro text unveiled parts inductionHypothesis =>
    cases isSubscript : (ofChars text).subscript? with
    | none =>
      obtain ⟨name, isBasic⟩ := isBasic_of_subscript? isSubscript
      rw [chars_of_isBasic unveiled isBasic, compatibleChars_trim_right] at feeds
      exact .inl feeds
    | some subscript =>
      have bracket := bracket_mem_chars isSubscript
      have trimmed := legible.isPiece.trimmed
      -- A dotted producer is followed to its last part, which is shorter.
      generalize size : producer.length = bound
      induction bound using Nat.strongRecOn generalizing producer with
      | ind bound shorter =>
        have ofPart (fed : ∃ type, IsPartOf type (ofChars text) ∧ type.Legible ∧
            compatibleChars (trim producer) type.chars = true) :
            compatibleChars producer text = true ∨ Respelled producer text := by
          obtain ⟨type, isPart, isLegible, fed⟩ := fed
          obtain ⟨part, isText, rfl⟩ := exists_partText unveiled isPart
          rw [compatibleChars_trim_left] at fed
          rcases inductionHypothesis part isText isLegible fed with fedPart | respelled
          · exact .inl (compatibleChars_of_partText unveiled isText fedPart)
          · exact .inr (.part isText respelled)
        rw [compatibleChars_iff, trimmed, namespaceTail_of_bracket bracket] at feeds
        obtain same | isAny | anySink | ⟨inner, isInner, fed⟩ | ⟨variant, isVariant, fed⟩ |
          ⟨tail, isTail, fed⟩ | ⟨tail, isTail, -⟩ | synonym := feeds
        · by_cases spelled : trim text = (ofChars text).chars
          · exact .inl ((compatibleChars_iff producer text).2 (.inl (same.trans spelled.symm)))
          · exact .inr (.whole same spelled)
        · exact .inl ((compatibleChars_iff producer text).2 (.inr (.inl isAny)))
        · rw [anySink] at bracket
          exact absurd bracket (by decide)
        · obtain ⟨type, isPart, isLegible, rfl⟩ :=
            isPartOf_of_optionalInner legible isSubscript isInner
          exact ofPart ⟨type, isPart, isLegible, fed⟩
        · obtain ⟨type, isPart, isLegible, rfl⟩ :=
            isPartOf_of_mem_unionVariants legible isSubscript isVariant
          exact ofPart ⟨type, isPart, isLegible, fed⟩
        · have less : tail.length < bound :=
            Nat.lt_of_lt_of_le (length_lt_of_namespaceTail isTail)
              (size ▸ length_trim_le producer)
          rcases shorter tail.length less fed rfl with fedTail | respelled
          · rw [← compatibleChars_trim_right] at fedTail
            exact .inl ((compatibleChars_iff producer text).2
              (.inr (.inr (.inr (.inr (.inr (.inl ⟨tail, isTail, fedTail⟩)))))))
          · have inTail := mem_of_mem_trim (respelled.bracket_mem (.intro unveiled parts))
            exact absurd inTail (bracketless_of_namespaceTail isTail)
        · cases isTail
        · exact absurd bracket (bracketless_of_synonymous synonym)

/-- Every part of an unveiled type is read from a part of its text. What feeds that text feeds the
type; and if the part is legible and nothing in its text is veiled, what feeds its normal spelling
does, but for normal spellings of wrapped types that the text spells differently. -/
theorem compatible_partText {consumer : String} (unveiled : isVeiled consumer.toList = false)
    {type : TypeExpr} (isPart : IsPartOf type (parse consumer)) :
    ∃ part ∈ partTexts consumer.toList, ofChars part = type ∧ ∀ producer : String,
      (compatible producer (String.ofList part) = true → compatible producer consumer = true) ∧
      (Direct part → type.Legible → compatible producer type.display = true →
        compatible producer consumer = true ∨ Respelled producer.toList part) := by
  obtain ⟨part, isText, rfl⟩ := exists_partText unveiled isPart
  refine ⟨part, isText, rfl, fun producer => ⟨fun feeds => ?_, fun direct legible feeds => ?_⟩⟩
  · rw [compatible, String.toList_ofList] at feeds
    exact compatibleChars_of_partText unveiled isText feeds
  · rw [compatible, toList_display] at feeds
    exact (compatibleChars_or_respelled direct legible feeds).imp_left
      (compatibleChars_of_partText unveiled isText)

/-- A dotted name feeds an optional union that is written with blanks and a small letter. -/
theorem compatible_partText_spaced :
    let consumer := "Optional[ Union[int , list[str]] ]"
    let part := " Union[int , list[str]] "
    let type := union [basic "int", list (basic "str")]
    isVeiled consumer.toList = false ∧ IsPartOf type (parse consumer) ∧ Direct part.toList ∧
      type.Legible ∧ compatible "x.int" type.display = true ∧ compatible "x.int" part = true ∧
      compatible "x.int" consumer = true := by
  intro consumer part type
  have int : ofChars "int".toList = basic "int" := ofChars_of_unbracketed (by decide) (by decide)
  have str : ofChars "str".toList = basic "str" := ofChars_of_unbracketed (by decide) (by decide)
  have strings : ofChars "list[str]".toList = list (basic "str") :=
    (ofChars_of_wrapped (by decide) (by decide : _ = some ("list".toList, "str".toList))
      rfl).trans (congrArg list str)
  have isPart : ofChars part.toList = type := by
    refine (ofChars_of_wrapped (by decide)
      (by decide : _ = some ("Union".toList, "int , list[str]".toList)) rfl).trans ?_
    have pieces : splitTopLevel ',' "int , list[str]".toList =
      ["int".toList, "list[str]".toList] := by decide
    show ofVariants ((splitTopLevel ',' _).map ofChars) = _
    rw [pieces, List.map_cons, List.map_singleton, int, strings]
    rfl
  have isType : parse consumer = optional type :=
    (ofChars_of_wrapped (by decide) (by decide : _ = some ("Optional".toList, part.toList))
      rfl).trans (congrArg optional isPart)
  have legible : type.Legible := by
    refine .union (List.cons_ne_nil _ _) (fun both => ?_)
      (List.forall_mem_cons.2 ⟨?_, List.forall_mem_singleton.2 (.list ?_)⟩)
    · simp [absentName] at both
    · exact .basic ⟨⟨by decide, by decide, by decide, by decide, by decide⟩, int⟩
    · exact .basic ⟨⟨by decide, by decide, by decide, by decide, by decide⟩, str⟩
  have direct : Direct part.toList := by
    have parts : partTexts part.toList = ["int".toList, "list[str]".toList] := by decide
    have partless {text : List Char} (unveiled : isVeiled text = false)
        (none : partTexts text = []) : Direct text := .intro unveiled fun _ member => by
      rw [none] at member
      cases member
    refine .intro (by decide) ?_
    rw [parts]
    exact List.forall_mem_cons.2 ⟨partless (by decide) (by decide),
      List.forall_mem_singleton.2 (partless (by decide) (by decide))⟩
  have unveiled : isVeiled consumer.toList = false := by decide
  have whole : IsPartOf type (parse consumer) := .inl isType
  have feeds : compatible "x.int" type.display = true := by decide +kernel
  obtain ⟨text, isText, -, admits⟩ := compatible_partText unveiled whole
  have texts : partTexts consumer.toList = [part.toList] := by decide
  rw [texts, List.mem_singleton] at isText
  subst isText
  refine ⟨unveiled, whole, direct, legible, feeds, by decide +kernel, ?_⟩
  rcases (admits "x.int").2 direct legible feeds with feedsWhole | respelled
  · exact feedsWhole
  · exact absurd (respelled.bracket_mem direct) (by decide)

/-- The normal spelling of a list does not feed an optional list that is spelled with a small
letter. -/
theorem compatible_respelledPart :
    ¬∀ producer consumer : String,
      (∀ inner, parse consumer = optional inner → compatible producer inner.display = true →
        compatible producer consumer = true) ∧
      ∀ variants, parse consumer = union variants → ∀ variant ∈ variants,
        compatible producer variant.display = true → compatible producer consumer = true := by
  intro agree
  have inner : parse "Optional[list[int]]" = optional (list (basic "int")) := by
    have item : ofChars "int".toList = basic "int" :=
      ofChars_of_unbracketed (by decide) (by decide)
    have isList : ofChars "list[int]".toList = list (basic "int") :=
      (ofChars_of_wrapped (by decide) (by decide : _ = some ("list".toList, "int".toList))
        rfl).trans (congrArg list item)
    exact (ofChars_of_wrapped (by decide)
      (by decide : _ = some ("Optional".toList, "list[int]".toList)) rfl).trans
        (congrArg optional isList)
  have feeds := (agree "List[int]" "Optional[list[int]]").1 _ inner (by decide +kernel)
  exact absurd feeds (by decide +kernel)

end TypeExpr

end Workflow
