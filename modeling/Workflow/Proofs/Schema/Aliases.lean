/-
This file proves how the aliases of a source are kept.

An alias is kept with the text that it is bound to, in which the names of the aliases
before it have been replaced over and over again. Other ways of spelling out the texts
bind the same aliases one after the other, so two ways can be compared alias by alias:
if they agree on what an alias needs to agree on whenever they do so on those before it,
they do so on all.
-/

import Mathlib.Data.List.Induction
import Mathlib.Logic.Function.Iterate
import Workflow.Proofs.OrderedMap
import Workflow.Proofs.Schema.Pieces
import Workflow.Schema.Declaration.Bindings

namespace Workflow.Declaration

open Text

/-! ### The aliases of a source -/

/-- An alias of a source, with the text of the type that it is bound to. -/
structure TypeAlias where
  name : String
  text : List Char
  deriving DecidableEq

/-- The alias that a declaration binds. -/
def TypeAlias.ofBinding? (binding : Binding) : Option TypeAlias :=
  if isConstantName binding.name then none
  else if binding.name.head?.any Char.isUpper ∧
      (binding.declaredType.all (· = "TypeAlias".toList)) ∧ looksLikeType binding.value then
    some ⟨String.ofList binding.name, trim binding.value⟩
  else none

/-- The aliases that lines bind, in order. -/
def typeAliases (lines : List (List Char)) : List TypeAlias :=
  (lines.filter fun line => indentOf line == 0).filterMap fun line =>
    (Binding.ofLine (trim line)).bind TypeAlias.ofBinding?

/-- The aliases with the texts that they get one after the other, given how a text is spelled out
with the aliases before it. -/
def bindAll (spell : Aliases → List Char → List Char) (declared : List TypeAlias) : Aliases :=
  declared.foldl
    (fun aliases bound => aliases.insert bound.name (String.ofList (spell aliases bound.text))) {}

theorem bindAll_concat (spell : Aliases → List Char → List Char) (before : List TypeAlias)
    (bound : TypeAlias) :
    bindAll spell (before ++ [bound]) =
      (bindAll spell before).insert bound.name
        (String.ofList (spell (bindAll spell before) bound.text)) := by
  rw [bindAll, List.foldl_append]
  rfl

/-- A text with its names replaced over and over again, as often as the reading of sources does. -/
def expandRepeatedly (aliases : Aliases) (text : List Char) : List Char :=
  expandTimes aliases expansionPasses text

theorem aliases_add (bindings : Bindings) (binding : Binding) :
    (bindings.add binding).aliases =
      (TypeAlias.ofBinding? binding).elim bindings.aliases fun bound =>
        bindings.aliases.insert bound.name
          (String.ofList (expandRepeatedly bindings.aliases bound.text)) := by
  rw [Bindings.add, TypeAlias.ofBinding?]
  split
  · split <;> rfl
  · split <;> rfl

/-- Reading the lines of a source binds its aliases one after the other. -/
theorem aliases_ofLines (lines : List (List Char)) :
    (Bindings.ofLines lines).aliases = bindAll expandRepeatedly (typeAliases lines) := by
  rw [Bindings.ofLines, typeAliases, bindAll]
  generalize (lines.filter fun line => indentOf line == 0) = top
  show _ = List.foldl _ ({} : Bindings).aliases _
  generalize ({} : Bindings) = bindings
  induction top generalizing bindings with
  | nil => rfl
  | cons line rest inductionHypothesis =>
    rw [List.foldl_cons, inductionHypothesis, List.filterMap_cons]
    cases Binding.ofLine (trim line) with
    | none => rfl
    | some binding =>
      rw [Option.elim_some, aliases_add, Option.bind_some]
      cases TypeAlias.ofBinding? binding <;> rfl

/-! ### Replacing names -/

/-- What a name is replaced by: the text that it is bound to, or nothing else than itself. -/
def meaning (aliases : Aliases) (name : String) : String := (aliases.get? name).getD name

/-- A text with every name replaced, inside literals and outside. -/
def replaceNames (aliases : Aliases) (text : List Char) : List Char :=
  respell (fun word _ => meaning aliases word) .start text

/-- A text with every name outside its literals replaced. -/
def replaceOuterNames (aliases : Aliases) (text : List Char) : List Char :=
  respell (fun word quoted => if quoted then word else meaning aliases word) .start text

theorem meaning_insert (aliases : Aliases) (name text other : String) :
    meaning (aliases.insert name text) other =
      if name = other then text else meaning aliases other := by
  rw [meaning, OrderedMap.get?_insert]
  split <;> rfl

theorem expandOnce_eq (aliases : Aliases) (text : List Char) :
    expandOnce aliases text = replaceNames aliases text := by
  rw [replaceNames]
  generalize Scan.start = scan
  fun_induction pieces scan text with
  | case1 => rw [expandOnce, respell, pieces, List.flatMap_nil]
  | case2 scan c rest opens _ inductionHypothesis =>
    rw [expandOnce, if_pos opens, respell, pieces, if_pos opens, List.flatMap_cons, ← respell,
      ← inductionHypothesis, Piece.respell, meaning]
    dsimp only
    cases aliases.get? (String.ofList (c :: rest.takeWhile isDottedWord)) with
    | none => rw [Option.elim_none, Option.getD_none, String.toList_ofList]
    | some text => rfl
  | case3 scan c rest closed inductionHypothesis =>
    rw [expandOnce, if_neg closed, inductionHypothesis, respell, respell, pieces, if_neg closed,
      List.flatMap_cons]
    rfl

section Replace

variable {aliases : Aliases} {text : List Char}

theorem expandTimes_eq_iterate (aliases : Aliases) (passes : Nat) (text : List Char) :
    expandTimes aliases passes text = (replaceNames aliases)^[passes] text := by
  induction passes generalizing text with
  | zero => rfl
  | succ passes inductionHypothesis =>
    rw [expandTimes, expandOnce_eq, inductionHypothesis, Function.iterate_succ_apply]

/-- Reading a text replaces names at least once. -/
theorem expandRepeatedly_eq_iterate (aliases : Aliases) (text : List Char) :
    expandRepeatedly aliases text =
      (replaceNames aliases)^[expansionPasses - 1] (replaceNames aliases text) := by
  rw [expandRepeatedly, expandTimes_eq_iterate, ← Function.iterate_succ_apply]
  rfl

theorem quoteCount_le_iterate (aliases : Aliases) (passes : Nat) (text : List Char) :
    quoteCount text ≤ quoteCount ((replaceNames aliases)^[passes] text) := by
  induction passes generalizing text with
  | zero => exact Nat.le_refl _
  | succ passes inductionHypothesis =>
    rw [Function.iterate_succ_apply]
    exact (quoteCount_le_respell _ _ _).trans (inductionHypothesis _)

/-- A text none of whose names is replaced stays as it is. -/
theorem replaceNames_eq_self (free : ∀ name ∈ names text, meaning aliases name = name) :
    replaceNames aliases text = text :=
  respell_eq_self fun word quoted member =>
    free word ((mem_names_iff .start text).2 ⟨quoted, member⟩)

theorem mem_names_replaceNames {name : String} :
    name ∈ names (replaceNames aliases text) ↔
      ∃ word ∈ names text, name ∈ names (meaning aliases word).toList := by
  rw [replaceNames, mem_names_respell]
  constructor
  · rintro ⟨word, quoted, member, isName⟩
    exact ⟨word, (mem_names_iff .start text).2 ⟨quoted, member⟩, isName⟩
  · rintro ⟨word, member, isName⟩
    obtain ⟨quoted, listed⟩ := (mem_names_iff .start text).1 member
    exact ⟨word, quoted, listed, isName⟩

theorem names_of_mem {name : String} (member : name ∈ names text) :
    names name.toList = [name] := by
  obtain ⟨quoted, listed⟩ := (mem_names_iff .start text).1 member
  exact names_of_name_mem listed

theorem quoteCount_add_le_replaceNames (aliases : Aliases) {name : String}
    (member : name ∈ names text) :
    quoteCount text + quoteCount (meaning aliases name).toList ≤
      quoteCount (replaceNames aliases text) := by
  obtain ⟨quoted, listed⟩ := (mem_names_iff .start text).1 member
  exact quoteCount_add_le_respell (fun word _ => meaning aliases word) listed

end Replace

/-! ### References -/

/-- Aliases are bound once, and none refers to itself or to one after it, given what the references
in a text are. -/
structure Ordered (references : List Char → List String) (declared : List TypeAlias) : Prop where
  distinct : (declared.map TypeAlias.name).Nodup
  notSelf : ∀ bound ∈ declared, bound.name ∉ references bound.text
  notLater : declared.Pairwise fun bound later => later.name ∉ references bound.text

/-- A text holds the name of an alias in a literal, or refers outside literals to an alias whose
text does. -/
inductive QuotesAlias (declared : List TypeAlias) : List Char → Prop
  | directly {text : List Char} {bound : TypeAlias} (listed : bound ∈ declared)
      (quoted : bound.name ∈ namesAt true text) : QuotesAlias declared text
  | through {text : List Char} {bound : TypeAlias} (listed : bound ∈ declared)
      (refers : bound.name ∈ namesAt false text) (quotes : QuotesAlias declared bound.text) :
      QuotesAlias declared text

/-- The name of an alias is left in a text. -/
def NamesAlias (declared : List TypeAlias) (text : List Char) : Prop :=
  ∃ bound ∈ declared, bound.name ∈ names text

theorem Ordered.mem_before {references : List Char → List String} {before after : List TypeAlias}
    {bound other : TypeAlias} (ordered : Ordered references (before ++ bound :: after))
    (listed : other ∈ before ++ bound :: after) (refers : other.name ∈ references bound.text) :
    other ∈ before := by
  rcases List.mem_append.1 listed with earlier | notEarlier
  · exact earlier
  · rcases List.mem_cons.1 notEarlier with rfl | later
    · exact absurd refers (ordered.notSelf other listed)
    · have pairs := List.pairwise_append.1 ordered.notLater
      exact absurd refers (List.rel_of_pairwise_cons pairs.2.1 later)

/-! ### Two ways of binding -/

/-- Two ways of binding aliases give each a pair of texts that are related, and leave all other
names alone. -/
structure Paired (related : TypeAlias → List Char → List Char → Prop) (declared : List TypeAlias)
    (first second : Aliases) : Prop where
  bound : ∀ bound ∈ declared,
    related bound (meaning first bound.name).toList (meaning second bound.name).toList
  free : ∀ name ∉ declared.map TypeAlias.name,
    meaning first name = name ∧ meaning second name = name

section Paired

variable {related : TypeAlias → List Char → List Char → Prop} {declared : List TypeAlias}
  {first second : Aliases}

/-- A name is that of an alias or stands for nothing but itself. -/
theorem Paired.alias_or_free (paired : Paired related declared first second) (name : String) :
    (∃ bound ∈ declared, bound.name = name) ∨
      name ∉ declared.map TypeAlias.name ∧ meaning first name = name ∧
        meaning second name = name := by
  by_cases listed : name ∈ declared.map TypeAlias.name
  · exact Or.inl (List.mem_map.1 listed)
  · exact Or.inr ⟨listed, paired.free name listed⟩

/-- One more alias may be bound to related texts. -/
theorem Paired.concat (paired : Paired related declared first second) {bound : TypeAlias}
    (fresh : bound.name ∉ declared.map TypeAlias.name) {one two : List Char}
    (own : related bound one two) :
    Paired related (declared ++ [bound]) (first.insert bound.name (String.ofList one))
      (second.insert bound.name (String.ofList two)) := by
  refine ⟨List.forall_mem_append.2 ⟨fun other member => ?_, ?_⟩, fun name absent => ?_⟩
  · have apart : bound.name ≠ other.name := fun same =>
      fresh (same ▸ List.mem_map_of_mem member)
    rw [meaning_insert, meaning_insert, if_neg apart, if_neg apart]
    exact paired.bound other member
  · rw [List.forall_mem_singleton, meaning_insert, meaning_insert, if_pos rfl, if_pos rfl,
      String.toList_ofList, String.toList_ofList]
    exact own
  · rw [List.map_append, List.mem_append, not_or, List.map_singleton, List.mem_singleton]
      at absent
    rw [meaning_insert, meaning_insert, if_neg (Ne.symm absent.2), if_neg (Ne.symm absent.2)]
    exact paired.free name absent.1

/-- Binding aliases one after the other pairs their texts if every alias is related to its own as
long as those before it are. -/
theorem paired_bindAll {one two : Aliases → List Char → List Char}
    (distinct : (declared.map TypeAlias.name).Nodup)
    (step : ∀ before bound after, declared = before ++ bound :: after →
      Paired related before (bindAll one before) (bindAll two before) →
        related bound (one (bindAll one before) bound.text) (two (bindAll two before) bound.text)) :
    Paired related declared (bindAll one declared) (bindAll two declared) := by
  have upTo (before after : List TypeAlias) (split : declared = before ++ after) :
      Paired related before (bindAll one before) (bindAll two before) := by
    induction before using List.reverseRecOn generalizing after with
    | nil => exact ⟨fun _ member => absurd member List.not_mem_nil, fun _ _ => ⟨rfl, rfl⟩⟩
    | append_singleton before bound inductionHypothesis =>
      rw [List.append_assoc, List.singleton_append] at split
      have earlier := inductionHypothesis _ split
      have fresh : bound.name ∉ before.map TypeAlias.name := by
        rw [split, List.map_append, List.map_cons] at distinct
        exact fun listed => List.disjoint_of_nodup_append distinct listed List.mem_cons_self
      rw [bindAll_concat, bindAll_concat]
      exact earlier.concat fresh (step before bound after split earlier)
  exact upTo declared [] (List.append_nil _).symm

end Paired

end Workflow.Declaration
