/-
This file says which JSON values there can be: objects have ascending keys, and numbers
are doubles or fit 64 bits.

Whatever is made of such values by the operations on objects is such a value again. How
deep a value nests does not matter.
-/

import Workflow.Proofs.Json.Reread

namespace Workflow

open Number

namespace Json

/-- A value whose keys ascend and whose numbers are in range. -/
structure Valid (value : Json) : Prop where
  ordered : value.Ordered
  inRange : ∀ number ∈ value.numbers, number.InRange

theorem Sound.valid {room : Nat} {value : Json} (sound : value.Sound room) : value.Valid :=
  ⟨sound.ordered, sound.inRange⟩

theorem Valid.scalar {value : Json} (ordered : value.Ordered) (numberless : value.numbers = []) :
    value.Valid := by
  refine ⟨ordered, ?_⟩
  rw [numberless]
  exact List.forall_mem_nil _

@[simp] theorem valid_null : null.Valid := .scalar trivial rfl

@[simp] theorem valid_bool (value : Bool) : (bool value).Valid := .scalar trivial rfl

@[simp] theorem valid_string (text : String) : (string text).Valid := .scalar trivial rfl

theorem valid_int_iff {value : Int} : (int value).Valid ↔ (Number.int value).InRange :=
  ⟨fun valid => valid.inRange _ List.mem_cons_self,
    fun inRange => ⟨trivial, List.forall_mem_singleton.2 inRange⟩⟩

theorem valid_real_iff {value : Binary} : (real value).Valid ↔ double.Holds value :=
  ⟨fun valid => valid.inRange _ List.mem_cons_self,
    fun holds => ⟨trivial, List.forall_mem_singleton.2 holds⟩⟩

theorem valid_array_iff {items : List Json} : (array items).Valid ↔ ∀ item ∈ items, item.Valid := by
  refine ⟨fun ⟨ordered, inRange⟩ item member => ⟨?_, ?_⟩, fun valid => ⟨?_, ?_⟩⟩
  · exact itemsOrdered_iff.1 ordered item member
  · exact forall_itemNumbers_iff.1 inRange item member
  · exact itemsOrdered_iff.2 fun item member => (valid item member).ordered
  · exact forall_itemNumbers_iff.2 fun item member => (valid item member).inRange

theorem valid_object_iff {members : Object} :
    (object members).Valid ↔ members.Ascending ∧ ∀ entry ∈ members, entry.2.Valid := by
  refine ⟨fun ⟨ordered, inRange⟩ => ⟨ordered.1, fun entry member => ⟨?_, ?_⟩⟩,
    fun ⟨ascending, valid⟩ => ⟨⟨ascending, ?_⟩, ?_⟩⟩
  · exact membersOrdered_iff.1 ordered.2 entry member
  · exact forall_memberNumbers_iff.1 inRange entry member
  · exact membersOrdered_iff.2 fun entry member => (valid entry member).ordered
  · exact forall_memberNumbers_iff.2 fun entry member => (valid entry member).inRange

end Json

namespace Object

open Json

variable {members : Object} {known : List String}

theorem valid_empty : (object []).Valid := .scalar ⟨List.Pairwise.nil, trivial⟩ rfl

theorem valid_get? (valid : (object members).Valid) {key : String} {value : Json}
    (found : get? members key = some value) : value.Valid :=
  (valid_object_iff.1 valid).2 _ (mem_of_get? found)

/-- The value under a key, or null. -/
theorem valid_getD (valid : (object members).Valid) (key : String) :
    ((get? members key).getD .null).Valid := by
  cases found : get? members key with
  | none => exact valid_null
  | some value => exact valid_get? valid found

theorem valid_insert (valid : (object members).Valid) (key : String) {value : Json}
    (isValid : value.Valid) : (object (insert members key value)).Valid := by
  obtain ⟨ascending, values⟩ := valid_object_iff.1 valid
  refine valid_object_iff.2 ⟨ascending.insert key value, fun entry member => ?_⟩
  rcases eq_or_mem_of_mem_insert member with rfl | old
  · exact isValid
  · exact values entry old

theorem valid_erase (valid : (object members).Valid) (key : String) :
    (object (members.erase key)).Valid := by
  obtain ⟨ascending, values⟩ := valid_object_iff.1 valid
  exact valid_object_iff.2 ⟨ascending.filter _, fun entry member =>
    values entry (List.mem_of_mem_filter member)⟩

theorem valid_ofList {entries : List (String × Json)} (valid : ∀ entry ∈ entries, entry.2.Valid) :
    (object (ofList entries)).Valid :=
  valid_object_iff.2 ⟨ascending_ofList entries, fun entry member =>
    valid entry (mem_of_mem_ofList member)⟩

end Object

end Workflow
