/-
This file proves that comparing the spellings of two types decides a relation on the
types themselves.

The relation is the least one with a rule for each way in which a producer may feed a
consumer. A comparison of texts goes by the same rules: the spelling of a proper type
shows what an optional type wraps, which variants a union has and what the last part of
a dotted name is, and each of them is a shorter text.
-/

import Workflow.Proofs.Schema.Spelling

namespace Workflow

open Text

/-! ### Comparing texts -/

/-- The rules by which texts are compared. -/
theorem compatibleChars_iff (producer consumer : List Char) :
    compatibleChars producer consumer = true ↔
      trim producer = trim consumer ∨ trim producer = TypeExpr.anyName.toList ∨
      trim consumer = TypeExpr.anyName.toList ∨
      (∃ inner, optionalInner (trim consumer) = some inner ∧
        compatibleChars (trim producer) inner = true) ∨
      (∃ variant ∈ unionVariants (trim consumer),
        compatibleChars (trim producer) variant = true) ∨
      (∃ tail, namespaceTail (trim producer) = some tail ∧
        compatibleChars tail (trim consumer) = true) ∨
      (∃ tail, namespaceTail (trim consumer) = some tail ∧
        compatibleChars (trim producer) tail = true) ∨
      synonymous (trim producer) (trim consumer) = true := by
  rw [compatibleChars]
  simp only [Bool.or_eq_true, beq_iff_eq, List.any_eq_true, or_assoc, List.mem_attach, true_and,
    Subtype.exists, exists_prop]
  refine or_congr_right (or_congr_right (or_congr_right (or_congr ?inner (or_congr_right
    (or_congr ?producerTail (or_congr_left ?consumerTail))))))
  all_goals
    split
    · next part isPart => simp [isPart]
    · next isNone => simp [isNone]

namespace TypeExpr

/-! ### The relation -/

/-- Names of one type. -/
def synonyms : List (String × String) :=
  [("index", "int"), ("int", "index"), ("str", "string"), ("string", "str")]

/-- Whether a producer may feed a consumer. -/
inductive Feeds : TypeExpr → TypeExpr → Prop
  | same (type : TypeExpr) : Feeds type type
  | fromAny (consumer : TypeExpr) : Feeds (basic anyName) consumer
  | toAny (producer : TypeExpr) : Feeds producer (basic anyName)
  | toOptional {producer inner : TypeExpr} (feeds : Feeds producer inner) :
      Feeds producer (optional inner)
  | toUnion {producer variant : TypeExpr} {variants : List TypeExpr} (member : variant ∈ variants)
      (feeds : Feeds producer variant) : Feeds producer (union variants)
  /-- A dotted name is known by its last part. -/
  | fromDotted {scope last : String} {consumer : TypeExpr} (dotless : '.' ∉ last.toList)
      (feeds : Feeds (basic last) consumer) : Feeds (basic (scope ++ "." ++ last)) consumer
  | toDotted {producer : TypeExpr} {scope last : String} (dotless : '.' ∉ last.toList)
      (feeds : Feeds producer (basic last)) : Feeds producer (basic (scope ++ "." ++ last))
  | synonym {first second : String} (listed : (first, second) ∈ synonyms) :
      Feeds (basic first) (basic second)

/-- What an optional type wraps. -/
def inner? : TypeExpr → Option TypeExpr
  | optional inner => some inner
  | _ => none

/-- The variants of a union. -/
def variants : TypeExpr → List TypeExpr
  | union variants => variants
  | _ => []

/-- The type of the last part of a dotted name. -/
def tail? : TypeExpr → Option TypeExpr
  | basic name => (cutLast '.' name.toList).map fun parts => basic (String.ofList parts.2)
  | _ => none

theorem tail?_dotted (scope : String) {last : String} (dotless : '.' ∉ last.toList) :
    (basic (scope ++ "." ++ last)).tail? = some (basic last) := by
  have letters : (scope ++ "." ++ last).toList = scope.toList ++ '.' :: last.toList := by
    simp [String.toList_append]
  rw [tail?, letters, cutLast_append dotless]
  simp

theorem exists_of_tail? {type tail : TypeExpr} (isTail : type.tail? = some tail) :
    ∃ scope last : String, '.' ∉ last.toList ∧ type = basic (scope ++ "." ++ last) ∧
      tail = basic last := by
  cases type with
  | basic name =>
    obtain ⟨⟨scope, last⟩, isCut, rfl⟩ := Option.map_eq_some_iff.1 isTail
    obtain ⟨letters, dotless⟩ := cutLast_eq_some_iff.1 isCut
    refine ⟨String.ofList scope, String.ofList last, ?_, congrArg basic ?_, rfl⟩
    · rw [String.toList_ofList]
      exact dotless
    · rw [← String.toList_inj, letters]
      simp [String.toList_append]
  | _ => cases isTail

/-- The rules of the relation, read backwards. -/
theorem feeds_iff_rules {producer consumer : TypeExpr} : Feeds producer consumer ↔
    producer = consumer ∨ producer = basic anyName ∨ consumer = basic anyName ∨
    (∃ inner, consumer.inner? = some inner ∧ Feeds producer inner) ∨
    (∃ variant ∈ consumer.variants, Feeds producer variant) ∨
    (∃ tail, producer.tail? = some tail ∧ Feeds tail consumer) ∨
    (∃ tail, consumer.tail? = some tail ∧ Feeds producer tail) ∨
    ∃ first second, (first, second) ∈ synonyms ∧ producer = basic first ∧
      consumer = basic second := by
  constructor
  · intro feeds
    cases feeds with
    | same => exact Or.inl rfl
    | fromAny => exact Or.inr (Or.inl rfl)
    | toAny => exact Or.inr (Or.inr (Or.inl rfl))
    | toOptional feeds => exact Or.inr (Or.inr (Or.inr (Or.inl ⟨_, rfl, feeds⟩)))
    | toUnion member feeds =>
      exact Or.inr (Or.inr (Or.inr (Or.inr (Or.inl ⟨_, member, feeds⟩))))
    | fromDotted dotless feeds =>
      exact Or.inr (Or.inr (Or.inr (Or.inr (Or.inr (Or.inl
        ⟨_, tail?_dotted _ dotless, feeds⟩)))))
    | toDotted dotless feeds =>
      exact Or.inr (Or.inr (Or.inr (Or.inr (Or.inr (Or.inr (Or.inl
        ⟨_, tail?_dotted _ dotless, feeds⟩))))))
    | synonym listed =>
      exact Or.inr (Or.inr (Or.inr (Or.inr (Or.inr (Or.inr (Or.inr
        ⟨_, _, listed, rfl, rfl⟩))))))
  · rintro (rfl | rfl | rfl | ⟨inner, isInner, feeds⟩ | ⟨variant, member, feeds⟩ |
      ⟨tail, isTail, feeds⟩ | ⟨tail, isTail, feeds⟩ | ⟨first, second, listed, rfl, rfl⟩)
    · exact .same _
    · exact .fromAny _
    · exact .toAny _
    · cases consumer with
      | optional inner =>
        cases isInner
        exact .toOptional feeds
      | _ => cases isInner
    · cases consumer with
      | union variants => exact .toUnion member feeds
      | _ => cases member
    · obtain ⟨scope, last, dotless, rfl, rfl⟩ := exists_of_tail? isTail
      exact .fromDotted dotless feeds
    · obtain ⟨scope, last, dotless, rfl, rfl⟩ := exists_of_tail? isTail
      exact .toDotted dotless feeds
    · exact .synonym listed

/-! ### Parts of types and their spellings -/

section Parts

variable {type : TypeExpr}

theorem Spelled.optionalInner_eq (spelled : type.Spelled) :
    optionalInner type.chars = type.inner?.map chars := by
  rw [optionalInner, spelled.splitSubscript_eq]
  cases spelled with
  | optional inner =>
    show (if "Optional".toList = "Optional".toList then some (trim _) else none) = _
    rw [if_pos rfl, inner.spelling.trim_eq]
    rfl
  | basic => rfl
  | union | list | dict | message => exact if_neg (by decide)

theorem Spelled.unionVariants_eq (spelled : type.Spelled) :
    unionVariants type.chars = type.variants.map chars := by
  have single : splitTopLevel '|' type.chars = [trim type.chars] :=
    splitTopLevel_of_undivided (undivided_of_notMem spelled.spelling.pipeless)
  simp only [unionVariants, single, List.length_singleton, Nat.lt_irrefl, if_false,
    spelled.splitSubscript_eq]
  cases spelled with
  | union some variants =>
    exact splitTopLevel_charsOfAll some fun variant member =>
      (variants variant member).spelling.isArgument
  | basic => rfl
  | optional | list | dict | message =>
    refine if_neg fun same => ?_
    cases Wrapper.head_inj.1 (same.trans (rfl : _ = Wrapper.union.head))

theorem namespaceTail_of_name {name : String} (isName : IsName name.toList) :
    namespaceTail name.toList = (cutLast '.' name.toList).map Prod.snd := by
  have unbroken : (name.toList.any fun c => c == '[' || c == '|' || c == ',') = false := by
    rw [List.any_eq_false]
    intro c member broken
    have clean := isName.clean c member
    simp only [Bool.or_eq_true, beq_iff_eq] at broken
    obtain (rfl | rfl) | rfl := broken <;> cases clean
  rw [namespaceTail, unbroken, if_neg Bool.false_ne_true]
  cases isCut : cutLast '.' name.toList with
  | none => rfl
  | some parts =>
    obtain ⟨letters, -⟩ := cutLast_eq_some_iff.1 isCut
    refine if_neg fun empty => isName.ended ?_
    rw [letters, List.isEmpty_iff.1 empty]
    exact List.getLast?_concat

theorem Spelled.namespaceTail_eq (spelled : type.Spelled) :
    namespaceTail type.chars = type.tail?.map chars := by
  have broken {wrapper : Wrapper} {arguments : List Char}
      (isSubscript : type.subscript? = some (wrapper, arguments)) :
      namespaceTail type.chars = none := by
    have bracket : '[' ∈ type.chars := by
      rw [chars_eq_of_subscript? isSubscript]
      exact List.mem_append_right _ List.mem_cons_self
    exact if_pos (List.any_eq_true.2 ⟨'[', bracket, rfl⟩)
  cases spelled with
  | @basic name isName =>
    show namespaceTail name.toList = _
    rw [namespaceTail_of_name isName, tail?, Option.map_map]
    refine congrArg (Option.map · _) (funext fun parts => ?_)
    exact String.toList_ofList.symm
  | _ => exact broken rfl

theorem Spelled.of_inner? (spelled : type.Spelled) {inner : TypeExpr}
    (isInner : type.inner? = some inner) :
    inner.Spelled ∧ inner.chars.length < type.chars.length := by
  refine ⟨?_, length_lt_of_optionalInner (by rw [spelled.optionalInner_eq, isInner]; rfl)⟩
  cases spelled with
  | optional spelled =>
    cases isInner
    exact spelled
  | _ => cases isInner

theorem Spelled.of_mem_variants (spelled : type.Spelled) {variant : TypeExpr}
    (member : variant ∈ type.variants) :
    variant.Spelled ∧ variant.chars.length < type.chars.length := by
  refine ⟨?_, length_lt_of_mem_unionVariants ?_⟩
  · cases spelled with
    | union _ spelled => exact spelled variant member
    | _ => cases member
  · rw [spelled.unionVariants_eq]
    exact List.mem_map_of_mem member

/-- The last part of a name is a name. -/
theorem Spelled.of_tail? (spelled : type.Spelled) {tail : TypeExpr}
    (isTail : type.tail? = some tail) :
    tail.Spelled ∧ tail.chars.length < type.chars.length := by
  refine ⟨?_, length_lt_of_namespaceTail (by rw [spelled.namespaceTail_eq, isTail]; rfl)⟩
  obtain ⟨scope, last, dotless, rfl, rfl⟩ := exists_of_tail? isTail
  cases spelled with
  | basic isName =>
    have letters : (scope ++ "." ++ last).toList = scope.toList ++ '.' :: last.toList := by
      simp [String.toList_append]
    rw [letters] at isName
    have named : last.toList ≠ [] := by
      intro empty
      rw [empty] at isName
      exact isName.ended List.getLast?_concat
    refine .basic ⟨fun c member => isName.clean c ?_, named, fun ended => dotless ?_⟩
    · exact List.mem_append_right _ (List.mem_cons_of_mem _ member)
    · exact List.mem_of_getLast? ended

/-- A type that is spelled like a name is the type of this name. -/
theorem Spelled.eq_basic_iff (spelled : type.Spelled) {name : String}
    (isName : IsName name.toList) : type = TypeExpr.basic name ↔ type.chars = name.toList :=
  ⟨fun same => congrArg chars same, fun same => spelled.eq_of_chars (.basic isName) same⟩

end Parts

/-! ### Comparing spellings -/

theorem isName_of_mem_synonyms {first second : String} (listed : (first, second) ∈ synonyms) :
    IsName first.toList ∧ IsName second.toList := by
  simp only [synonyms, List.mem_cons, Prod.mk.injEq, List.not_mem_nil, or_false] at listed
  obtain ⟨rfl, rfl⟩ | ⟨rfl, rfl⟩ | ⟨rfl, rfl⟩ | ⟨rfl, rfl⟩ := listed <;>
    exact ⟨⟨List.all_eq_true.1 rfl, by decide, by decide⟩,
      List.all_eq_true.1 rfl, by decide, by decide⟩

theorem synonymous_iff {first second : List Char} : synonymous first second = true ↔
    ∃ one other : String, (one, other) ∈ synonyms ∧ first = one.toList ∧
      second = other.toList := by
  simp only [synonymous, typeSynonyms, synonyms, List.any_cons, List.any_nil, Bool.or_false,
    Bool.or_eq_true, Bool.and_eq_true, beq_iff_eq, List.mem_cons, List.not_mem_nil, or_false,
    Prod.mk.injEq, or_and_right, exists_or, and_assoc, exists_and_left, exists_eq_left, or_assoc]

/-- Texts of parts are compared as the parts are. -/
theorem exists_part_iff {part : Option TypeExpr} {accepts : List Char → Prop}
    {feeds : TypeExpr → Prop}
    (each : ∀ type, part = some type → (accepts type.chars ↔ feeds type)) :
    (∃ text, part.map chars = some text ∧ accepts text) ↔
      ∃ type, part = some type ∧ feeds type := by
  cases part with
  | none => simp
  | some type => simp [each type rfl]

/-- Comparing spellings decides the relation. -/
theorem compatible_display_iff {producer consumer : TypeExpr} (isProducer : producer.Spelled)
    (isConsumer : consumer.Spelled) :
    compatible producer.display consumer.display = true ↔ Feeds producer consumer := by
  rw [compatible, toList_display, toList_display]
  generalize size : producer.chars.length + consumer.chars.length = bound
  induction bound using Nat.strongRecOn generalizing producer consumer with
  | ind bound inductionHypothesis =>
    have shorter {giver taker : TypeExpr} (isGiver : giver.Spelled) (isTaker : taker.Spelled)
        (less : giver.chars.length + taker.chars.length < bound) :
        compatibleChars giver.chars taker.chars = true ↔ Feeds giver taker :=
      inductionHypothesis _ less isGiver isTaker rfl
    have isAny : IsName anyName.toList := ⟨List.all_eq_true.1 rfl, by decide, by decide⟩
    rw [compatibleChars_iff, feeds_iff_rules, isProducer.spelling.trim_eq,
      isConsumer.spelling.trim_eq, isProducer.eq_basic_iff isAny, isConsumer.eq_basic_iff isAny,
      isConsumer.optionalInner_eq, isConsumer.unionVariants_eq, isProducer.namespaceTail_eq,
      isConsumer.namespaceTail_eq, synonymous_iff]
    refine or_congr ?same (or_congr_right (or_congr_right (or_congr ?inner (or_congr ?variants
      (or_congr ?producerTail (or_congr ?consumerTail ?synonyms))))))
    case same => exact ⟨isProducer.eq_of_chars isConsumer, congrArg chars⟩
    case inner =>
      refine exists_part_iff fun inner isInner => ?_
      obtain ⟨spelled, less⟩ := isConsumer.of_inner? isInner
      exact shorter isProducer spelled (by omega)
    case variants =>
      simp only [List.mem_map, exists_exists_and_eq_and]
      refine exists_congr fun variant => and_congr_right fun member => ?_
      obtain ⟨spelled, less⟩ := isConsumer.of_mem_variants member
      exact shorter isProducer spelled (by omega)
    case producerTail =>
      refine exists_part_iff fun tail isTail => ?_
      obtain ⟨spelled, less⟩ := isProducer.of_tail? isTail
      exact shorter spelled isConsumer (by omega)
    case consumerTail =>
      refine exists_part_iff fun tail isTail => ?_
      obtain ⟨spelled, less⟩ := isConsumer.of_tail? isTail
      exact shorter isProducer spelled (by omega)
    case synonyms =>
      refine exists_congr fun first => exists_congr fun second =>
        and_congr_right fun listed => ?_
      obtain ⟨isFirst, isSecond⟩ := isName_of_mem_synonyms listed
      rw [isProducer.eq_basic_iff isFirst, isConsumer.eq_basic_iff isSecond]

/-- A dotted name feeds a union that has its last part, wrapped, as a variant. -/
theorem compatible_dotted_union :
    compatible (basic "Schema.Foo").display
      (union [dict (basic "Foo").display, optional (basic "Foo")]).display = true := by
  have isName : IsName "Foo".toList := ⟨List.all_eq_true.1 rfl, by decide, by decide⟩
  have isDotted : IsName "Schema.Foo".toList := ⟨List.all_eq_true.1 rfl, by decide, by decide⟩
  have dotted : Feeds (basic ("Schema" ++ "." ++ "Foo")) (basic "Foo") :=
    .fromDotted (by decide) (.same _)
  refine (compatible_display_iff (.basic isDotted) (.union (List.cons_ne_nil _ _) ?_)).2
    (.toUnion (List.mem_pair.2 (Or.inr rfl)) (.toOptional dotted))
  intro variant member
  obtain rfl | rfl := List.mem_pair.1 member
  · exact .dict (.basic isName)
  · exact .optional (.basic isName)

end TypeExpr

end Workflow
