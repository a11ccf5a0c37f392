/-
This file proves that keys written to a document are read back.

Keys come as a list, or as an object if that is how a document gave them; an object
lists them in ascending order, and reading it again changes nothing any more.
-/

import Workflow.Document.Export
import Workflow.Proofs.Json.Object

namespace Workflow

/-! ### Keys read -/

/-- Different keys that are not empty are all kept. -/
theorem distinctKeys_eq_self (before : List String) {keys : List String} (distinct : keys.Nodup)
    (named : "" ∉ keys) (apart : ∀ key ∈ keys, key ∉ before) : distinctKeys before keys = keys := by
  induction keys generalizing before with
  | nil => rfl
  | cons key rest inductionHypothesis =>
    obtain ⟨fresh, distinctRest⟩ := List.nodup_cons.1 distinct
    have isNamed : key ≠ "" := fun empty => named (empty ▸ List.mem_cons_self)
    have isNew : key ∉ before := apart key List.mem_cons_self
    rw [distinctKeys, if_neg (by simp [isNamed, isNew]), inductionHypothesis (key :: before)
      distinctRest fun empty => named (List.mem_cons_of_mem key empty)]
    intro other member seen
    rcases List.mem_cons.1 seen with rfl | old
    · exact fresh member
    · exact apart other (List.mem_cons_of_mem key member) old

theorem documentKeys_array {keys : List String} (distinct : keys.Nodup) (named : "" ∉ keys) :
    documentKeys (some (.array (keys.map .string))) = keys := by
  have read : (keys.map Json.string).filterMap keyOfItem = keys := by
    rw [List.filterMap_map]
    exact List.filterMap_some
  rw [documentKeys, read]
  exact distinctKeys_eq_self [] distinct named fun _ _ => List.not_mem_nil

theorem documentKeys_object {members : Object} (ascending : members.Ascending)
    (named : "" ∉ Object.keys members) :
    documentKeys (some (.object members)) = Object.keys members :=
  distinctKeys_eq_self [] ascending.nodup named fun _ _ => List.not_mem_nil

/-! ### Keys written -/

section Values

variable {keys : List String} (value : String → Json)

theorem keys_map_pair : Object.keys (keys.map fun key => (key, value key)) = keys := by
  rw [Object.keys, List.map_map]
  exact List.map_id _

theorem get?_map_pair (key : String) :
    Object.get? (keys.map fun key => (key, value key)) key =
      if key ∈ keys then some (value key) else none := by
  induction keys with
  | nil => rfl
  | cons first rest inductionHypothesis =>
    rw [List.map_cons, Object.get?]
    by_cases same : first = key
    · simp [same]
    · simp [same, inductionHypothesis, Ne.symm same]

theorem get?_keyedObject (distinct : keys.Nodup) (key : String) :
    Object.get? (Object.ofList (keys.map fun key => (key, value key))) key =
      if key ∈ keys then some (value key) else none := by
  rw [Object.get?_ofList, get?_map_pair]
  rw [keys_map_pair]
  exact distinct

theorem mem_keys_keyedObject (distinct : keys.Nodup) (key : String) :
    key ∈ Object.keys (Object.ofList (keys.map fun key => (key, value key))) ↔ key ∈ keys := by
  refine not_iff_not.1 ?_
  rw [← Object.get?_eq_none_iff, get?_keyedObject value distinct]
  split <;> simp_all

/-- An object is made of its members again. -/
theorem ofList_keys {members : Object} (ascending : members.Ascending) :
    Object.ofList ((Object.keys members).map fun key =>
      (key, (Object.get? members key).getD .null)) = members := by
  refine (Object.ascending_ofList _).ext ascending fun key => ?_
  rw [get?_keyedObject _ ascending.nodup]
  split
  · next listed =>
    cases found : Object.get? members key with
    | none => exact absurd listed (Object.get?_eq_none_iff.1 found)
    | some value => rfl
  · next absent => exact (Object.get?_eq_none_iff.2 absent).symm

end Values

namespace Node

/-- What a document lists for the keys of a field. -/
def keysWritten (node : Node) (field : String) (keys : List String) : Option Json :=
  if keys.isEmpty then none else some (node.keysValue field keys)

variable {node : Node} {field : String} {keys : List String}

/-- The keys that are written are the keys that are read. -/
theorem mem_documentKeys_keysWritten (distinct : keys.Nodup) (named : "" ∉ keys) (key : String) :
    key ∈ documentKeys (node.keysWritten field keys) ↔ key ∈ keys := by
  rw [keysWritten]
  split
  · next empty =>
    rw [List.isEmpty_iff.1 empty]
    rfl
  · rw [keysValue]
    split
    · next values _ =>
      have same := mem_keys_keyedObject (fun key => (Object.get? values key).getD .null) distinct
      rw [documentKeys_object (Object.ascending_ofList _) fun empty => named ((same "").1 empty)]
      exact same key
    · rw [documentKeys_array distinct named]

/-- What is read is written again. -/
theorem keysWritten_documentKeys (distinct : keys.Nodup) (named : "" ∉ keys) {other : Node}
    (values : other.keyedValues.get? field = documentObject (node.keysWritten field keys)) :
    other.keysWritten field (documentKeys (node.keysWritten field keys)) =
      node.keysWritten field keys := by
  have empty : (documentKeys (node.keysWritten field keys)).isEmpty = keys.isEmpty := by
    rw [Bool.eq_iff_iff, List.isEmpty_iff, List.isEmpty_iff, List.eq_nil_iff_forall_not_mem,
      List.eq_nil_iff_forall_not_mem]
    exact forall_congr' fun key => not_congr (mem_documentKeys_keysWritten distinct named key)
  rw [keysWritten, empty]
  by_cases none : keys.isEmpty = true
  · rw [if_pos none, keysWritten, if_pos none]
  · rw [if_neg none]
    rw [keysWritten, if_neg none] at values ⊢
    refine congrArg some ?_
    cases given : node.keyedValues.get? field with
    | none =>
      have isArray : node.keysValue field keys = .array (keys.map .string) := by
        rw [keysValue, given]
      rw [isArray] at values ⊢
      rw [documentKeys_array distinct named, keysValue, values]
      rfl
    | some members =>
      have isObject : node.keysValue field keys = .object (Object.ofList
          (keys.map fun key => (key, (Object.get? members key).getD .null))) := by
        rw [keysValue, given]
      have same := mem_keys_keyedObject (fun key => (Object.get? members key).getD .null) distinct
      rw [isObject] at values ⊢
      rw [documentKeys_object (Object.ascending_ofList _) fun empty => named ((same "").1 empty),
        keysValue, values]
      exact congrArg Json.object (ofList_keys (Object.ascending_ofList _))

/-- Keys that are written as a list are known with their order. -/
theorem keys_eq_of_keysWritten (asList : node.keyedValues.get? field = none) {other : Node}
    {others : List String} (same : other.keysWritten field others = node.keysWritten field keys) :
    others = keys := by
  rw [keysWritten, keysWritten] at same
  split at same
  · next empty =>
    split at same
    · next empty' => rw [List.isEmpty_iff.1 empty, List.isEmpty_iff.1 empty']
    · cases same
  · split at same
    · cases same
    · have written := Option.some.inj same
      rw [keysValue, keysValue, asList] at written
      split at written
      · cases written
      · exact List.map_injective_iff.2 (fun _ _ => Json.string.inj) (Json.array.inj written)

end Node

end Workflow
