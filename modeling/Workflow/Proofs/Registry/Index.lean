/-
This file proves that a registry never answers with what is not registered any more.

Whatever was registered and removed, the schemas are those of the sources registered
last, in the order in which their names came, and the index of type tags tells the
first model of every tag. So a document type leads to a model that is listed now, and
every name that is known leads to a qualified name that is known as itself and finds
the same model.
-/

import Workflow.Proofs.Registry.Lookup
import Workflow.Registry.Index

namespace Workflow

namespace Registry

/-! ### What stands after changes -/

/-- The names that stand after one more change: a name comes in at the end and keeps its place until
it is removed. -/
def standAfter (names : List String) : Change → List String
  | .register name _ => if name ∈ names then names else names ++ [name]
  | .remove name => names.filter (· ≠ name)

/-- The names that stand after changes. -/
def standing (changes : List Change) : List String := changes.foldl standAfter []

/-- The source that was registered last under a name. -/
def lastSource? (changes : List Change) (name : String) : Option String :=
  changes.reverse.findSome? fun
    | .register other source => if other = name then some source else none
    | .remove _ => none

/-- The schemas are those of the sources that were registered last under the names that stand. -/
structure Stands (changes : List Change) (registry : Registry) : Prop where
  names : registry.schemas.keys = standing changes
  sources : ∀ name ∈ standing changes, ∃ source, lastSource? changes name = some source ∧
    registry.schemas.get? name = some (Schema.parse source)

theorem lastSource?_register (changes : List Change) (name source other : String) :
    lastSource? (changes ++ [.register name source]) other =
      if name = other then some source else lastSource? changes other := by
  rw [lastSource?, List.reverse_concat, List.findSome?_cons]
  split
  · next found => split at found <;> simp_all
  · next found => split at found <;> simp_all [lastSource?]

theorem lastSource?_remove (changes : List Change) (name other : String) :
    lastSource? (changes ++ [.remove name]) other = lastSource? changes other := by
  rw [lastSource?, List.reverse_concat, List.findSome?_cons]
  rfl

theorem stands_run (resolution : Resolution) (changes : List Change) :
    Stands changes (run resolution changes) := by
  induction changes using List.reverseRecOn with
  | nil => exact ⟨rfl, fun _ member => absurd member List.not_mem_nil⟩
  | append_singleton changes change inductionHypothesis =>
    obtain ⟨names, sources⟩ := inductionHypothesis
    rw [run, List.foldl_concat, ← run]
    have later : standing (changes ++ [change]) = standAfter (standing changes) change :=
      List.foldl_append
    cases change with
    | register name source =>
      refine ⟨?_, fun other member => ?_⟩
      · rw [later, standAfter, ← names]
        split
        · next present => exact OrderedMap.keys_insert_of_mem present
        · next absent =>
          show List.map _ (OrderedMap.insert _ name _).entries = _
          rw [OrderedMap.entries_insert_of_notMem absent, List.map_append]
          rfl
      · have held := OrderedMap.get?_insert (run resolution changes).schemas name
          (Schema.parse source) other
        rw [lastSource?_register]
        by_cases same : name = other
        · rw [if_pos same] at held ⊢
          exact ⟨source, rfl, held⟩
        · rw [if_neg same] at held ⊢
          have old : other ∈ standing changes := by
            rw [later, standAfter] at member
            split at member
            · exact member
            · simpa [Ne.symm same] using member
          obtain ⟨earlier, isLast, isSchema⟩ := sources other old
          exact ⟨earlier, isLast, held.trans isSchema⟩
    | remove name =>
      refine ⟨?_, fun other member => ?_⟩
      · rw [later, standAfter, ← names]
        show List.map _ (List.filter _ _) = _
        rw [OrderedMap.keys, List.filter_map]
        rfl
      · rw [later, standAfter, List.mem_filter] at member
        obtain ⟨source, isLast, isSchema⟩ := sources other member.1
        refine ⟨source, (lastSource?_remove changes name other).trans isLast, ?_⟩
        have apart : other ≠ name := by simpa using member.2
        exact (OrderedMap.get?_erase_of_ne _ apart).trans isSchema

end Registry

/-! ### The index -/

namespace IndexedRegistry

open Registry

/-- The registry after a change; removing what is not there changes nothing. -/
def change (indexed : IndexedRegistry) : Change → IndexedRegistry
  | .register name source => indexed.register name (Schema.parse source)
  | .remove name => (indexed.remove name).getD indexed

/-- The registry after changes of an empty one. -/
def run (resolution : Resolution) (changes : List Change) : IndexedRegistry :=
  changes.foldl change { registry := { resolution := resolution } }

theorem get?_enter (byTag : OrderedMap String String) (entry : String × Model) (tag : String) :
    (enter byTag entry).get? tag =
      (byTag.get? tag).or (if entry.2.typeTag = some tag then some entry.1 else none) := by
  rw [enter]
  cases isTag : entry.2.typeTag with
  | none => exact (Option.or_none ..).symm
  | some own =>
    dsimp only
    split
    · next present =>
      by_cases same : own = tag
      · obtain ⟨name, held⟩ := Option.isSome_iff_exists.1 present
        rw [← same, held, Option.some_or]
      · rw [if_neg (by simpa using same), Option.or_none]
    · next absent =>
      rw [OrderedMap.get?_insert]
      by_cases same : own = tag
      · have free := OrderedMap.get?_eq_none_iff.2 (absent ∘ OrderedMap.contains_iff.2)
        rw [if_pos same, if_pos (congrArg some same), ← same, free, Option.none_or]
      · rw [if_neg same, if_neg (by simpa using same), Option.or_none]

/-- The index of some models tells the first one of every tag. -/
theorem get?_foldl_enter (models : List (String × Model)) (byTag : OrderedMap String String)
    (tag : String) :
    (models.foldl enter byTag).get? tag = (byTag.get? tag).or
      ((models.find? fun entry => entry.2.typeTag = some tag).map (·.1)) := by
  induction models generalizing byTag with
  | nil => exact (Option.or_none ..).symm
  | cons entry rest inductionHypothesis =>
    rw [List.foldl_cons, inductionHypothesis, get?_enter, Option.or_assoc]
    by_cases same : entry.2.typeTag = some tag
    · rw [if_pos same, List.find?_cons_of_pos (by simpa using same), Option.some_or]
      rfl
    · rw [if_neg same, List.find?_cons_of_neg (by simpa using same), Option.none_or]

/-- The index tells what going through the models would tell. -/
def Current (indexed : IndexedRegistry) : Prop :=
  ∀ tag, indexed.byTag.get? tag = indexed.registry.tagged? tag

variable {indexed : IndexedRegistry}

theorem current_reindexed (registry : Registry) : (reindexed registry).Current := fun tag =>
  (get?_foldl_enter registry.models {} tag).trans (Option.none_or ..)

theorem Current.change (current : indexed.Current) (change : Change) :
    (indexed.change change).Current := by
  cases change with
  | register name source => exact current_reindexed _
  | remove name =>
    rw [IndexedRegistry.change, IndexedRegistry.remove]
    split
    · exact current_reindexed _
    · exact current

theorem current_run (resolution : Resolution) (changes : List Change) :
    (run resolution changes).Current :=
  List.foldlRecOn changes change (fun _ => rfl) fun _ current change _ => current.change change

theorem registry_change (indexed : IndexedRegistry) (change : Change) :
    (indexed.change change).registry = indexed.registry.change change := by
  cases change with
  | register name source => rfl
  | remove name =>
    rw [IndexedRegistry.change, IndexedRegistry.remove]
    split
    · rfl
    · next absent =>
      have same := OrderedMap.erase_of_notMem (absent ∘ OrderedMap.contains_iff.2)
      show indexed.registry =
        { indexed.registry with schemas := indexed.registry.schemas.erase name }
      rw [same]

/-- The index aside, the registry is the same as without one. -/
theorem registry_run (resolution : Resolution) (changes : List Change) :
    (run resolution changes).registry = Registry.run resolution changes := by
  induction changes using List.reverseRecOn with
  | nil => rfl
  | append_singleton changes change inductionHypothesis =>
    rw [run, Registry.run, List.foldl_concat, List.foldl_concat, registry_change]
    exact congrArg (Registry.change · change) inductionHypothesis

theorem Current.resolve?_eq (current : indexed.Current) (type : String) :
    indexed.resolve? type = indexed.registry.resolve? type := by
  rw [resolve?, Registry.resolve?, current type]

/-- After any changes of an empty registry, the schemas are those of the sources registered last
under the names that stand. Every document type that is known leads to the qualified name of a model
that is listed now, which is known as itself and finds the model; so does every other name that is
known, and it finds the same model as the qualified name. A document type that is a tag leads to the
first model that has it, unless an alias leads to a model. -/
theorem answers_run (resolution : Resolution) (changes : List Change) :
    let indexed := run resolution changes
    let registry := indexed.registry
    Stands changes registry ∧
    (∀ type name, indexed.resolve? type = some name →
      ∃ model, (name, model) ∈ registry.models ∧ registry.qualified? name = some name ∧
        registry.model? name = some model) ∧
    (∀ reference name, registry.qualified? reference = some name →
      ∃ model, (name, model) ∈ registry.models ∧ registry.qualified? name = some name ∧
        registry.model? reference = some model ∧ registry.model? name = some model) ∧
    (∀ type, (∃ entry ∈ registry.models, entry.2.typeTag = some type) →
      registry.aliased? type = none →
      ∃ name, indexed.resolve? type = some name ∧
        registry.IsFirst (fun model => model.typeTag = some type) name) := by
  intro indexed registry
  have same : registry = Registry.run resolution changes := registry_run resolution changes
  have orderly : registry.Orderly := same ▸ orderly_run resolution changes
  have resolves := (current_run resolution changes).resolve?_eq
  refine ⟨same ▸ stands_run resolution changes, ?_, ?_, ?_⟩
  · intro type name found
    obtain ⟨model, listed⟩ := orderly.exists_listed_of_resolve? ((resolves type).symm.trans found)
    exact ⟨model, listed, orderly.finds_of_mem listed⟩
  · intro reference name found
    obtain ⟨model, listed⟩ := orderly.exists_listed_of_qualified? found
    obtain ⟨known, finds⟩ := orderly.finds_of_mem listed
    refine ⟨model, listed, known, ?_, finds⟩
    rw [model?, found, ← known]
    exact finds
  · rintro type ⟨entry, listed, isTag⟩ unaliased
    obtain ⟨name, isFirst⟩ :
        ∃ name, registry.IsFirst (fun model => model.typeTag = some type) name :=
      exists_isFirst listed isTag
    refine ⟨name, (resolves type).trans (resolve?_eq_some_iff.2 ?_), isFirst⟩
    exact Or.inr ⟨unaliased, Or.inl isFirst⟩

end IndexedRegistry

end Workflow
