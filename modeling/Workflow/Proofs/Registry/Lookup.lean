/-
This file proves how a registry finds models by aliases, tags and names.

Whatever was registered and removed, the schemas have different names and their models
are kept under words; so a qualified name has one reading, and it finds the model
that is listed under it. A tag finds the first model in the order of registration that
has it, and a bare name the first model that is called so.
-/

import Workflow.Proofs.Registry

namespace Workflow

open Text

theorem toList_qualify (schema model : String) :
    (qualify schema model).toList = schema.toList ++ '.' :: model.toList := by
  simp [qualify, String.toList_append]

theorem splitQualified_qualify (schema : String) {model : String} (dotless : '.' ∉ model.toList) :
    splitQualified (qualify schema model) = some (schema, model) := by
  rw [splitQualified, toList_qualify, cutLast_append dotless]
  simp

theorem eq_qualify_of_splitQualified {name schema model : String}
    (split : splitQualified name = some (schema, model)) : name = qualify schema model := by
  obtain ⟨⟨before, after⟩, isCut, same⟩ := Option.map_eq_some_iff.1 split
  cases same
  refine String.toList_injective ?_
  rw [toList_qualify, String.toList_ofList, String.toList_ofList]
  exact (cutLast_eq_some_iff.1 isCut).1

theorem splitQualified_eq_none {name : String} (dotless : '.' ∉ name.toList) :
    splitQualified name = none := by
  rw [splitQualified, cutLast_eq_none dotless]
  rfl

namespace Registry

/-! ### Schemas registered and removed -/

/-- What may be done to a registry. -/
inductive Change where
  | register (name source : String)
  | remove (name : String)

/-- The registry after a change. -/
def change (registry : Registry) : Change → Registry
  | .register name source => registry.register name (Schema.parse source)
  | .remove name => registry.remove name

/-- The registry after changes of an empty one. -/
def run (resolution : Resolution) (changes : List Change) : Registry :=
  changes.foldl change { resolution := resolution }

/-- Schemas are read from sources and told apart by their names. -/
structure Orderly (registry : Registry) : Prop where
  isRead : registry.IsRead
  distinct : registry.schemas.keys.Nodup

variable {registry : Registry}

theorem Orderly.change (orderly : registry.Orderly) (change : Change) :
    (registry.change change).Orderly := by
  cases change with
  | register name source =>
    exact ⟨orderly.isRead.register name source,
      OrderedMap.nodup_keys_insert orderly.distinct name _⟩
  | remove name =>
    exact ⟨orderly.isRead.remove name, orderly.distinct.sublist (List.filter_sublist.map _)⟩

theorem orderly_run (resolution : Resolution) (changes : List Change) :
    (run resolution changes).Orderly :=
  List.foldlRecOn changes Registry.change ⟨isRead_empty resolution, List.nodup_nil⟩
    fun _ orderly change _ => orderly.change change

/-! ### Models under their names -/

/-- A listed model is one that some schema has under its name. -/
theorem Orderly.mem_models (orderly : registry.Orderly) {name : String} {model : Model}
    (listed : (name, model) ∈ registry.models) :
    ∃ schema source, registry.schemas.get? schema = some (Schema.parse source) ∧
      (Schema.parse source).model? model.name = some model ∧
      model ∈ (Schema.parse source).models.values ∧ '.' ∉ model.name.toList ∧
      name = qualify schema model.name := by
  obtain ⟨⟨schema, declared⟩, isSchema, isModel⟩ := List.mem_flatMap.1 listed
  obtain ⟨source, rfl⟩ : ∃ source, declared = Schema.parse source := orderly.isRead _ isSchema
  obtain ⟨_, isValue, same⟩ := List.mem_map.1 isModel
  cases same
  obtain ⟨entry, isEntry, rfl⟩ := List.mem_map.1 isValue
  obtain ⟨distinct, named⟩ := Schema.named_parse source
  obtain ⟨isName, dotless⟩ := named entry isEntry
  have found := OrderedMap.get?_of_mem distinct isEntry
  rw [← isName] at dotless found
  exact ⟨schema, source, OrderedMap.get?_of_mem orderly.distinct isSchema, found, isValue, dotless,
    rfl⟩

/-- A listed qualified name is known, and it finds the model that is listed under it. -/
theorem Orderly.finds_of_mem (orderly : registry.Orderly) {name : String} {model : Model}
    (listed : (name, model) ∈ registry.models) :
    registry.qualified? name = some name ∧ registry.model? name = some model := by
  obtain ⟨schema, source, isSchema, isModel, -, dotless, rfl⟩ := orderly.mem_models listed
  have split := splitQualified_qualify schema dotless
  have held : registry.modelIn? schema model.name = some model := by
    rw [modelIn?, isSchema]
    exact isModel
  have qualified : registry.qualified? (qualify schema model.name) =
      some (qualify schema model.name) := by
    rw [qualified?, split]
    exact if_pos (congrArg Option.isSome held)
  refine ⟨qualified, ?_⟩
  rw [model?, qualified, Option.bind_some, split]
  exact held

theorem Orderly.model?_of_mem (orderly : registry.Orderly) {name : String} {model : Model}
    (listed : (name, model) ∈ registry.models) : registry.model? name = some model :=
  (orderly.finds_of_mem listed).2

/-- What a schema holds under a name is listed under the qualified name. -/
theorem Orderly.mem_models_of_modelIn? (orderly : registry.Orderly) {schema name : String}
    {model : Model} (held : registry.modelIn? schema name = some model) :
    (qualify schema name, model) ∈ registry.models := by
  obtain ⟨declared, isSchema, isModel⟩ := Option.bind_eq_some_iff.1 held
  have inSchemas := OrderedMap.mem_entries_of_get? isSchema
  have inModels := OrderedMap.mem_entries_of_get? isModel
  obtain ⟨source, rfl⟩ : ∃ source, declared = Schema.parse source := orderly.isRead _ inSchemas
  obtain ⟨isName, -⟩ := (Schema.named_parse source).2 _ inModels
  refine List.mem_flatMap.2 ⟨_, inSchemas, List.mem_map.2 ⟨model, ?_, ?_⟩⟩
  · exact List.mem_map_of_mem inModels
  · exact congrArg (fun name => (qualify schema name, model)) isName

/-- The model of a qualified name has a property, and no model that was registered before it has. -/
def IsFirst (registry : Registry) (has : Model → Prop) (name : String) : Prop :=
  ∃ before model after, registry.models = before ++ (name, model) :: after ∧ has model ∧
    ∀ entry ∈ before, ¬has entry.2

theorem find?_models_eq_some_iff {has : Model → Prop} [DecidablePred has] {name : String} :
    (registry.models.find? fun entry => has entry.2).map (·.1) = some name ↔
      registry.IsFirst has name := by
  constructor
  · intro found
    obtain ⟨⟨other, model⟩, isFound, rfl⟩ := Option.map_eq_some_iff.1 found
    obtain ⟨holds, before, after, split, none⟩ := List.find?_eq_some_iff_append.1 isFound
    exact ⟨before, model, after, split, of_decide_eq_true holds, by simpa using none⟩
  · rintro ⟨before, model, after, split, holds, none⟩
    refine Option.map_eq_some_iff.2 ⟨(name, model), ?_, rfl⟩
    exact List.find?_eq_some_iff_append.2
      ⟨decide_eq_true holds, before, after, split, by simpa using none⟩

/-- If some model has a property, there is a first one. -/
theorem exists_isFirst {has : Model → Prop} [DecidablePred has] {entry : String × Model}
    (listed : entry ∈ registry.models) (holds : has entry.2) :
    ∃ name, registry.IsFirst has name := by
  have found : (registry.models.find? fun entry => has entry.2).isSome :=
    List.find?_isSome.2 ⟨entry, listed, decide_eq_true holds⟩
  obtain ⟨first, isFirst⟩ := Option.isSome_iff_exists.1 found
  exact ⟨first.1, find?_models_eq_some_iff.1 (congrArg (Option.map (·.1)) isFirst)⟩

theorem tagged?_eq_some_iff {tag name : String} :
    registry.tagged? tag = some name ↔
      registry.IsFirst (fun model => model.typeTag = some tag) name := by
  rw [← find?_models_eq_some_iff, tagged?]

theorem tagged?_eq_none_iff {tag : String} :
    registry.tagged? tag = none ↔ ∀ entry ∈ registry.models, entry.2.typeTag ≠ some tag := by
  rw [tagged?, Option.map_eq_none_iff, List.find?_eq_none]
  simp

/-- Among the models of a schema, the first one of a name is the one that is kept under it. -/
theorem find?_values (schema reference : String) {entries : List (String × Model)}
    (named : ∀ entry ∈ entries, entry.2.name = entry.1) :
    (((entries.map (·.2)).map fun model => (qualify schema model.name, model)).find?
        fun entry => entry.2.name = reference).map (·.1) =
      if (entries.find? fun entry => entry.1 = reference).isSome then
        some (qualify schema reference) else none := by
  induction entries with
  | nil => rfl
  | cons entry rest inductionHypothesis =>
    have isName := named entry List.mem_cons_self
    rw [List.map_cons, List.map_cons]
    have later := inductionHypothesis fun other member =>
      named other (List.mem_cons_of_mem _ member)
    by_cases same : entry.1 = reference
    · rw [List.find?_cons_of_pos (by simp [isName, same]), List.find?_cons_of_pos (by simp [same]),
        Option.map_some, isName, same]
      rfl
    · rw [List.find?_cons_of_neg (by simp [isName, same]), List.find?_cons_of_neg (by simp [same])]
      exact later

/-- A bare name finds the first model that is called so. -/
theorem Orderly.qualified?_eq_some_iff (orderly : registry.Orderly) {reference name : String}
    (dotless : '.' ∉ reference.toList) :
    registry.qualified? reference = some name ↔
      registry.IsFirst (fun model => model.name = reference) name := by
  have among : ∀ entries : List (String × Schema),
      (∀ entry ∈ entries, ∃ source, entry.2 = Schema.parse source) →
      (entries.find? fun entry => (entry.2.model? reference).isSome).map
          (fun entry => qualify entry.1 reference) =
        ((entries.flatMap fun entry => entry.2.models.values.map fun model =>
          (qualify entry.1 model.name, model)).find?
            fun entry => entry.2.name = reference).map (·.1) := by
    intro entries isRead
    induction entries with
    | nil => rfl
    | cons entry rest inductionHypothesis =>
      obtain ⟨source, isSource⟩ := isRead entry List.mem_cons_self
      have first := find?_values entry.1 reference fun member isEntry =>
        ((Schema.named_parse source).2 member isEntry).1
      have later := inductionHypothesis fun other member =>
        isRead other (List.mem_cons_of_mem _ member)
      rw [← isSource] at first
      rw [List.flatMap_cons, List.find?_append, Option.map_or, ← later]
      refine Eq.trans ?_ (congrArg (Option.or · _) first.symm)
      rw [List.find?_cons, Schema.model?, OrderedMap.get?, Option.isSome_map]
      cases entry.2.models.entries.find? fun member => member.1 = reference with
      | none => rfl
      | some found => rfl
  rw [← find?_models_eq_some_iff, qualified?, splitQualified_eq_none dotless]
  exact Eq.congr_left (among registry.schemas.entries orderly.isRead)

/-! ### Document types -/

/-- The first of some references that leads to a model leads to the one of a qualified name. -/
def IsFirstKnown (registry : Registry) (references : List String) (name : String) : Prop :=
  ∃ before reference after, references = before ++ reference :: after ∧
    registry.qualified? reference = some name ∧
    ∀ other ∈ before, registry.qualified? other = none

/-- Aliases come before tags, and tags before the names that are made of a document type. -/
theorem resolve?_eq_some_iff {type name : String} :
    registry.resolve? type = some name ↔
      registry.aliased? type = some name ∨ registry.aliased? type = none ∧
        (registry.IsFirst (fun model => model.typeTag = some type) name ∨
          (∀ entry ∈ registry.models, entry.2.typeTag ≠ some type) ∧
            registry.IsFirstKnown (registry.candidates type) name) := by
  rw [resolve?, Option.or_eq_some_iff, Option.or_eq_some_iff, tagged?_eq_some_iff,
    tagged?_eq_none_iff, List.findSome?_eq_some_iff, IsFirstKnown]

/-- The bare name of a model is known, so no other name is made of it. -/
theorem Orderly.isFirstKnown_candidates (orderly : registry.Orderly) {other name : String}
    {model : Model} (listed : (other, model) ∈ registry.models) :
    registry.IsFirstKnown (registry.candidates model.name) name ↔
      registry.IsFirst (fun other => other.name = model.name) name := by
  obtain ⟨schema, source, -, -, -, dotless, -⟩ := orderly.mem_models listed
  obtain ⟨first, isFirst⟩ :
      ∃ first, registry.IsFirst (fun other => other.name = model.name) first :=
    exists_isFirst listed rfl
  have found := (orderly.qualified?_eq_some_iff dotless).2 isFirst
  rw [← orderly.qualified?_eq_some_iff dotless, IsFirstKnown, ← List.findSome?_eq_some_iff,
    candidates, List.cons_append, List.findSome?_cons, found]

/-! ### Types that lead to a model -/

/-- A reference that is known leads to the qualified name of a listed model. -/
theorem Orderly.exists_listed_of_qualified? (orderly : registry.Orderly) {reference name : String}
    (found : registry.qualified? reference = some name) :
    ∃ model, (name, model) ∈ registry.models := by
  rw [qualified?] at found
  split at found
  · next isQualified =>
    cases found
    obtain ⟨⟨schema, model⟩, isSplit, held⟩ := (Option.any_eq_true ..).1 isQualified
    obtain ⟨model, isModel⟩ := Option.isSome_iff_exists.1 held
    rw [eq_qualify_of_splitQualified isSplit]
    exact ⟨model, orderly.mem_models_of_modelIn? isModel⟩
  · obtain ⟨⟨schema, declared⟩, isFirst, rfl⟩ := Option.map_eq_some_iff.1 found
    have holds := List.find?_some isFirst
    obtain ⟨model, isModel⟩ := Option.isSome_iff_exists.1 holds
    have isSchema := OrderedMap.get?_of_mem orderly.distinct (List.mem_of_find?_eq_some isFirst)
    exact ⟨model, orderly.mem_models_of_modelIn?
      (Option.bind_eq_some_iff.2 ⟨declared, isSchema, isModel⟩)⟩

/-- A document type that is known leads to the qualified name of a listed model. -/
theorem Orderly.exists_listed_of_resolve? (orderly : registry.Orderly) {type name : String}
    (found : registry.resolve? type = some name) : ∃ model, (name, model) ∈ registry.models := by
  obtain isAlias | ⟨-, ⟨before, model, after, models, -⟩ | ⟨-, isKnown⟩⟩ :=
    resolve?_eq_some_iff.1 found
  · obtain ⟨reference, -, isName⟩ := Option.bind_eq_some_iff.1 isAlias
    exact orderly.exists_listed_of_qualified? isName
  · exact ⟨model, models ▸ List.mem_append_right before List.mem_cons_self⟩
  · obtain ⟨-, reference, -, -, isName, -⟩ := isKnown
    exact orderly.exists_listed_of_qualified? isName

theorem Orderly.isSome_model?_of_resolve? (orderly : registry.Orderly) {type name : String}
    (found : registry.resolve? type = some name) : (registry.model? name).isSome := by
  obtain ⟨model, listed⟩ := orderly.exists_listed_of_resolve? found
  exact Option.isSome_of_mem (orderly.model?_of_mem listed)

end Registry

end Workflow
