/-
This file says when an object tells the values that are kept for keys.

The values of keys that came as an object are kept beside the keys, and they are not
touched when a key is added. So what is kept for a key that was never given a value must
be nothing, and nothing may be left of a key that is gone. As long as this is so, editing
the keys with what is kept for them is editing the object.
-/

import Workflow.Proofs.Document.Keys

namespace Workflow

/-! ### Keys given as an object -/

theorem mem_distinctKeys {before keys : List String} {key : String} :
    key ∈ distinctKeys before keys ↔ key ∈ keys ∧ key ≠ "" ∧ key ∉ before := by
  induction keys generalizing before with
  | nil => simp [distinctKeys]
  | cons first rest inductionHypothesis =>
    rw [distinctKeys]
    split
    · next skipped =>
      simp only [Bool.or_eq_true, String.isEmpty_iff, List.contains_iff_mem] at skipped
      rw [inductionHypothesis, List.mem_cons]
      refine and_congr_left fun kept => (or_iff_right ?_).symm
      rintro rfl
      exact skipped.elim kept.1 kept.2
    · next taken =>
      simp only [Bool.or_eq_true, String.isEmpty_iff, List.contains_iff_mem, not_or] at taken
      rw [List.mem_cons, inductionHypothesis, List.mem_cons, List.mem_cons, not_or]
      by_cases same : key = first
      · simp [same, taken]
      · simp [same]

/-- The keys that an object gives are its own but for the empty one. -/
theorem mem_documentKeys_object {members : Object} {key : String} :
    key ∈ documentKeys (some (.object members)) ↔ key ∈ Object.keys members ∧ key ≠ "" := by
  rw [documentKeys, mem_distinctKeys, and_iff_left (List.not_mem_nil)]

namespace Object

/-- The object with the value under a key, if there is one, moved to another key. -/
def move (members : Object) (key newKey : String) : Object :=
  match members.get? key with
  | some value => (members.erase key).insert newKey value
  | none => members

variable {members object values : Object} {key newKey : String} {isKey after : String → Prop}

theorem get?_move {value : Json} (present : members.get? key = some value)
    (newKey wanted : String) : (members.move key newKey).get? wanted =
      if newKey = wanted then some value else if key = wanted then none
      else members.get? wanted := by
  rw [move, present, get?_insert, get?_erase]

theorem Ascending.move (ascending : members.Ascending) (key newKey : String) :
    (members.move key newKey).Ascending := by
  rw [Object.move]
  split
  · exact (ascending.erase key).insert newKey _
  · exact ascending

/-- A value that is moved to its own key stays where it is. -/
theorem Ascending.move_self (ascending : members.Ascending) (key : String) :
    members.move key key = members := by
  refine (ascending.move key key).ext ascending fun wanted => ?_
  cases present : members.get? key with
  | none => rw [Object.move, present]
  | some value =>
    rw [get?_move present]
    split
    · next same => rw [← same, present]
    · rfl

/-- An object tells the values that are kept for keys: it has these keys, each with what is kept for
it or else with null, and nothing is kept for any other key but the empty one. -/
structure Tells (object : Object) (isKey : String → Prop) (values : Object) : Prop where
  ascending : object.Ascending
  told : ∀ key value, object.get? key = some value ↔
    isKey key ∧ value = (values.get? key).getD .null
  forgotten : ∀ key, key ≠ "" → ¬isKey key → values.get? key = none

namespace Tells

/-! ### What is told -/

theorem congr (tells : object.Tells isKey values) (same : ∀ key, after key ↔ isKey key) :
    object.Tells after values := by
  obtain rfl : after = isKey := funext fun key => propext (same key)
  exact tells

theorem get?_of_isKey (tells : object.Tells isKey values) (present : isKey key) :
    object.get? key = some ((values.get? key).getD .null) :=
  (tells.told key _).2 ⟨present, rfl⟩

theorem get?_of_not_isKey (tells : object.Tells isKey values) (absent : ¬isKey key) :
    object.get? key = none :=
  Option.eq_none_iff_forall_ne_some.2 fun value found => absent ((tells.told key value).1 found).1

/-- An object tells what it was given but for the empty key. -/
theorem of_given (ascending : members.Ascending) :
    (members.erase "").Tells (fun key => key ∈ documentKeys (some (.object members))) members where
  ascending := ascending.erase ""
  told key value := by
    rw [mem_documentKeys_object, get?_erase]
    cases found : members.get? key with
    | none => simp [get?_eq_none_iff.1 found]
    | some kept =>
      have listed : key ∈ members.keys := by
        by_contra absent
        rw [get?_eq_none_iff.2 absent] at found
        cases found
      rw [and_iff_right listed]
      split
      · next empty => simp [← empty]
      · next named => simp [Ne.symm named, eq_comm]
  forgotten key named absent := by
    rw [get?_eq_none_iff]
    exact fun listed => absent (mem_documentKeys_object.2 ⟨listed, named⟩)

/-! ### Edits of keys -/

/-- Nothing is kept for a key that is added. -/
theorem insert (tells : object.Tells isKey values) (named : key ≠ "") (isNew : ¬isKey key)
    (gains : ∀ other, after other ↔ isKey other ∨ other = key) :
    (object.insert key .null).Tells after values where
  ascending := tells.ascending.insert key .null
  told other value := by
    rw [get?_insert, gains]
    split
    · next same =>
      rw [← same, tells.forgotten key named isNew]
      simp [eq_comm]
    · next apart => rw [tells.told, or_iff_left (Ne.symm apart)]
  forgotten other otherNamed absent :=
    tells.forgotten other otherNamed fun old => absent ((gains other).2 (Or.inl old))

theorem erase (tells : object.Tells isKey values)
    (loses : ∀ other, after other ↔ isKey other ∧ other ≠ key) :
    (object.erase key).Tells after (values.erase key) where
  ascending := tells.ascending.erase key
  told other value := by
    rw [get?_erase, get?_erase, loses]
    split
    · next same => simp [same]
    · next apart => rw [tells.told, and_iff_left (Ne.symm apart)]
  forgotten other named absent := by
    rw [get?_erase]
    split
    · rfl
    · next apart =>
      exact tells.forgotten other named fun old => absent ((loses other).2 ⟨old, Ne.symm apart⟩)

/-- The value of a key that is renamed goes with it, whether it is kept or null. -/
theorem move (tells : object.Tells isKey values) (present : isKey key) (named : newKey ≠ "")
    (isNew : ¬isKey newKey) (renames : ∀ other, after other ↔
      other = newKey ∨ isKey other ∧ other ≠ key) :
    (object.move key newKey).Tells after (values.move key newKey) := by
  have apart : newKey ≠ key := fun same => isNew (same ▸ present)
  have moved (other : String) : (values.move key newKey).get? other =
      if newKey = other then values.get? key else if key = other then none
      else values.get? other := by
    cases kept : values.get? key with
    | some value => exact get?_move kept newKey other
    | none =>
      rw [Object.move, kept]
      dsimp only
      split
      · next same => rw [← same, tells.forgotten newKey named isNew]
      · split
        · next same => rw [← same, kept]
        · rfl
  refine ⟨tells.ascending.move key newKey, fun other value => ?_, fun other otherNamed absent => ?_⟩
  · rw [get?_move (tells.get?_of_isKey present), moved, renames]
    split
    · next same => simp [← same, eq_comm]
    · next notNew =>
      rw [or_iff_right (Ne.symm notNew)]
      split
      · next same => simp [same]
      · next notOld => rw [tells.told, and_iff_left (Ne.symm notOld)]
  · rw [renames, not_or] at absent
    rw [moved, if_neg (Ne.symm absent.1)]
    split
    · rfl
    · next notOld =>
      exact tells.forgotten other otherNamed fun old => absent.2 ⟨old, Ne.symm notOld⟩

end Tells

end Object

/-! ### What is written -/

/-- A document lists the object that tells the values of the keys of a field, unless it is empty. -/
theorem Node.keysWritten_of_tells {node : Node} {field : String} {keys : List String}
    {object values : Object} (kept : node.keyedValues.get? field = some values)
    (tells : object.Tells (fun key => key ∈ keys) values) (distinct : keys.Nodup) :
    node.keysWritten field keys = if object.isEmpty then none else some (.object object) := by
  have written : Object.ofList (keys.map fun key => (key, (values.get? key).getD .null)) =
      object := by
    refine (Object.ascending_ofList _).ext tells.ascending fun key => ?_
    rw [get?_keyedObject (fun key => (values.get? key).getD .null) distinct]
    split
    · next listed => rw [tells.get?_of_isKey listed]
    · next absent => rw [tells.get?_of_not_isKey absent]
  have empty : keys.isEmpty = object.isEmpty := by
    rw [Bool.eq_iff_iff, List.isEmpty_iff, List.isEmpty_iff]
    constructor
    · rintro rfl
      exact written.symm
    · rintro rfl
      refine List.eq_nil_iff_forall_not_mem.2 fun key listed => ?_
      cases tells.get?_of_isKey listed
  rw [keysWritten, empty, keysValue, kept]
  dsimp only
  rw [written]

end Workflow
