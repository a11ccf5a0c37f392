/-
This file proves that nodes hold nothing but values there can be.

It says so of a node that is made from a model, and of one that takes over an entry of
a document, as long as the values that come from outside can be and those the model
starts with. Presentation that is kept without being understood has no key that the
format of documents knows.
-/

import Workflow.Document.Import
import Workflow.Proofs.Document.Accepted
import Workflow.Proofs.Node.Expand
import Workflow.Proofs.Schema.Starts

namespace Workflow

open Number

/-! ### Nodes -/

/-- A map of values there can be. -/
def ValidValues (values : OrderedMap String Json) : Prop := ∀ entry ∈ values.entries, entry.2.Valid

/-- A node that holds values there can be, and whose coordinates fit their format. -/
structure Node.Valid (node : Node) : Prop where
  position : node.position.InFormat
  size : node.size.InFormat
  natives : ∀ slot ∈ node.inputs, ∀ native ∈ slot.native, native.value.Valid
  keyedValues : ∀ entry ∈ node.keyedValues.entries, (Json.object entry.2).Valid
  constants : ValidValues node.constants
  annotations : ValidValues node.annotations
  extra : node.extra.Beside appearanceMembers

theorem Point.inFormat_ofNat (x y : Nat) : Point.InFormat ⟨.ofNat x, .ofNat y⟩ :=
  List.forall_mem_cons.2 ⟨Single.inFormat_ofNat x,
    List.forall_mem_singleton.2 (Single.inFormat_ofNat y)⟩

namespace Node

/-! ### Nodes made -/

theorem valid_bare (id : NodeId) (modelRef : String) :
    Valid { id := id, modelRef := modelRef, position := .origin, size := defaultNodeSize } where
  position := Point.inFormat_ofNat 0 0
  size := Point.inFormat_ofNat 180 60
  natives := List.forall_mem_nil _
  keyedValues := List.forall_mem_nil _
  constants := List.forall_mem_nil _
  annotations := List.forall_mem_nil _
  extra := Object.beside_empty

section Make

variable {seed : Seed} {model : Model} {fragment : Object} {node : Node}

theorem valid_start (starts : ValidStarts model.defaults) {name : String} {value : Json}
    (isStart : (model.default? name).map Default.start = some value) : value.Valid := by
  obtain ⟨start, isDefault, rfl⟩ := Option.map_eq_some_iff.1 isStart
  exact starts _ (OrderedMap.mem_entries_of_get? isDefault)

theorem valid_noteGiven (valid : (Json.object fragment).Valid) {place : Nat} {name : String}
    {value : Json} (isGiven : noteGiven seed model fragment node place name = some value) :
    value.Valid := by
  rcases Option.or_eq_some_iff.1 isGiven with provided | ⟨-, isStart⟩
  · exact Object.valid_get? valid provided
  · rw [annotationStart.eq_def] at isStart
    split at isStart
    · rw [runFactory] at isStart
      split at isStart <;> cases isStart
      exact Json.valid_string _
    · cases isStart

theorem valid_documentObject (valid : (Json.object fragment).Valid) {name : String}
    {members : Object} (given : documentObject (Object.get? fragment name) = some members) :
    (Json.object members).Valid := by
  cases found : Object.get? fragment name with
  | none =>
    rw [found] at given
    cases given
  | some value =>
    rw [found] at given
    cases value <;> cases given
    exact Object.valid_get? valid found

theorem valid_constantGiven (valid : (Json.object fragment).Valid)
    (starts : ValidStarts model.defaults) (name : String) :
    (constantGiven model fragment name).Valid := by
  rw [constantGiven]
  cases isGiven : (if name = typeTagField then none else Object.get? fragment name).or
      ((model.default? name).map Default.start) with
  | none => exact Json.valid_null
  | some value =>
    rcases Option.or_eq_some_iff.1 isGiven with provided | ⟨-, isStart⟩
    · split at provided
      · cases provided
      · exact Object.valid_get? valid provided
    · exact valid_start starts isStart

theorem valid_inputsOfField (starts : ValidStarts model.defaults) {keys : List String}
    {entry : Field × Role} :
    ∀ slot ∈ inputsOfField model keys entry, ∀ native ∈ slot.native, native.value.Valid := by
  intro slot member native isNative
  obtain ⟨info, -, rfl⟩ := List.mem_map.1 member
  rw [InputSlot.native_ofInfo] at isNative
  split at isNative
  · obtain ⟨kind, -, rfl⟩ := Option.map_eq_some_iff.1 isNative
    cases isStart : (model.default? entry.1.name).map Default.start with
    | none => exact Json.valid_null
    | some value => exact valid_start starts isStart
  · cases isNative

theorem valid_insert {values : OrderedMap String Json} (valid : ValidValues values) (name : String)
    {value : Json} (isValid : value.Valid) : ValidValues (values.insert name value) :=
  OrderedMap.forall_mem_insert valid isValid

theorem Valid.expandField (isValid : node.Valid) (valid : (Json.object fragment).Valid)
    (starts : ValidStarts model.defaults) (entry : (Field × Role) × Nat) :
    (expandField seed model fragment node entry).Valid := by
  rw [expandField_eq]
  refine ⟨isValid.position, isValid.size, ?_, ?_, ?_, ?_, isValid.extra⟩
  · exact List.forall_mem_append.2 ⟨isValid.natives, valid_inputsOfField starts⟩
  · dsimp only
    split
    · cases given : documentObject (Object.get? fragment entry.1.1.name) with
      | none => exact isValid.keyedValues
      | some members =>
        exact OrderedMap.forall_mem_insert isValid.keyedValues (valid_documentObject valid given)
    · exact isValid.keyedValues
  · dsimp only
    split
    · exact valid_insert isValid.constants _ (valid_constantGiven valid starts _)
    · exact isValid.constants
  · dsimp only
    split
    · cases given : noteGiven seed model fragment node entry.2 entry.1.1.name with
      | none => exact isValid.annotations
      | some value => exact valid_insert isValid.annotations _ (valid_noteGiven valid given)
    · exact isValid.annotations

theorem valid_ofModel (valid : (Json.object fragment).Valid) (starts : ValidStarts model.defaults)
    (id : NodeId) (modelRef : String) : (ofModel seed id modelRef model fragment).Valid :=
  List.foldlRecOn _ (Node.expandField seed model fragment) (valid_bare id modelRef)
    fun _ isValid entry _ => isValid.expandField valid starts entry

end Make

theorem valid_primitive (id : NodeId) (kind : NativeKind) {value : Json} (valid : value.Valid) :
    (primitive id kind value).Valid :=
  { valid_bare id kind.primitiveTag with constants := List.forall_mem_singleton.2 valid }

/-! ### Nodes changed -/

section Change

variable {node : Node}

theorem Valid.editInput (isValid : node.Valid) {value : Json} (valid : value.Valid) (place : Nat) :
    Valid { node with
      inputs := node.inputs.modify place fun slot =>
        { slot with native := slot.native.map (NativeValue.edited value) } } := by
  refine { isValid with natives := fun slot member native isNative => ?_ }
  obtain ⟨old, isInput, rfl | rfl⟩ := mem_modify member
  · exact isValid.natives _ isInput native isNative
  · obtain ⟨before, -, rfl⟩ := Option.map_eq_some_iff.1 isNative
    exact valid

theorem Valid.setConstant (isValid : node.Valid) {value : Json} (valid : value.Valid)
    (field : String) : Valid { node with constants := node.constants.insert field value } :=
  { isValid with constants := valid_insert isValid.constants field valid }

theorem Valid.setNative (isValid : node.Valid) {entry : String × Json} (valid : entry.2.Valid) :
    (node.setNative entry).Valid := by
  rw [Node.setNative]
  split
  · exact isValid
  · exact isValid.editInput valid _

/-- A node that takes over an entry of a document that was read. -/
theorem Valid.applyEntry (isValid : node.Valid) {entry : NodeEntry} (accepted : entry.Accepted)
    {grid : Point} (inFormat : grid.InFormat) (options : ImportOptions) (index : Nat) :
    (node.applyEntry options grid index entry).Valid := by
  have values (member : String × Json) (listed : member ∈ entry.fields) : member.2.Valid :=
    (accepted.fields.entries member listed).2.valid
  have placed : Valid { node with order := some index, position := grid } :=
    { isValid with position := inFormat }
  rw [Node.applyEntry]
  refine List.foldlRecOn _ Node.setNative ?_ fun _ isValid member listed =>
    isValid.setNative (values member listed)
  cases isDrawn : entry.appearance with
  | none => exact placed
  | some appearance =>
    obtain ⟨position, size, others⟩ := accepted.appearance appearance isDrawn
    refine { placed with position := ?_, size := ?_, extra := others.beside }
    · dsimp only
      split
      · cases isPlaced : appearance.position with
        | none => exact inFormat
        | some point => exact position point isPlaced
      · exact inFormat
    · dsimp only
      split
      · cases isSized : appearance.size with
        | none => exact isValid.size
        | some point => exact size point isSized
      · exact isValid.size

theorem Valid.modifyInput (isValid : node.Valid) (change : InputSlot → InputSlot)
    (keeps : ∀ slot, (change slot).native = slot.native) (place : Nat) :
    Valid { node with inputs := node.inputs.modify place change } := by
  refine { isValid with natives := fun slot member native isNative => ?_ }
  obtain ⟨old, isInput, rfl | rfl⟩ := mem_modify member
  · exact isValid.natives _ isInput native isNative
  · rw [keeps] at isNative
    exact isValid.natives old isInput native isNative

theorem Valid.rekey (isValid : node.Valid) (direction : Direction) (place : Nat) (key : String) :
    (node.rekey direction place key).Valid := by
  cases direction with
  | input => exact isValid.modifyInput (·.rekey key) (fun _ => rfl) place
  | output => exact { isValid with }

theorem Valid.appendSlot (isValid : node.Valid) (direction : Direction) (field : String)
    (info : SlotInfo) : (node.appendSlot direction field info).Valid := by
  cases direction with
  | input =>
    refine { isValid with natives := List.forall_mem_append.2 ⟨isValid.natives, ?_⟩ }
    exact List.forall_mem_singleton.2 fun native isNative => by cases isNative
  | output => exact { isValid with }

theorem Valid.eraseSlot (isValid : node.Valid) (direction : Direction) (place : Nat) :
    (node.eraseSlot direction place).Valid := by
  cases direction with
  | input =>
    exact { isValid with
      natives := fun slot member => isValid.natives slot (List.mem_of_mem_eraseIdx member) }
  | output => exact { isValid with }

theorem Valid.modifyKeyed (isValid : node.Valid) {change : Object → Object}
    (keeps : ∀ members : Object, (Json.object members).Valid → (Json.object (change members)).Valid)
    (field : String) :
    Valid { node with keyedValues := node.keyedValues.modify field change } := by
  refine { isValid with keyedValues := fun entry member => ?_ }
  obtain ⟨old, isEntry, rfl⟩ := List.mem_map.1 member
  dsimp only
  split
  · exact keeps _ (isValid.keyedValues old isEntry)
  · exact isValid.keyedValues old isEntry

theorem Valid.dropKeyedValue (isValid : node.Valid) (field key : String) :
    (node.dropKeyedValue field key).Valid :=
  isValid.modifyKeyed (fun _ valid => Object.valid_erase valid key) field

theorem Valid.moveKeyedValue (isValid : node.Valid) (field key newKey : String) :
    (node.moveKeyedValue field key newKey).Valid := by
  refine isValid.modifyKeyed (fun members valid => ?_) field
  split
  · next value isValue =>
    exact Object.valid_insert (Object.valid_erase valid key) newKey
      (Object.valid_get? valid isValue)
  · exact valid

/-! ### Nodes written -/

theorem Valid.keysValue (isValid : node.Valid) (field : String) (keys : List String) :
    (node.keysValue field keys).Valid := by
  rw [Node.keysValue]
  split
  · next members isObject =>
    refine Object.valid_ofList (List.forall_mem_map.2 fun key _ => ?_)
    exact Object.valid_getD (isValid.keyedValues _ (OrderedMap.mem_entries_of_get? isObject)) key
  · exact Json.valid_array_iff.2 (List.forall_mem_map.2 fun key _ => Json.valid_string key)

theorem Valid.keyFields (isValid : node.Valid) (direction : Direction) :
    ∀ entry ∈ node.keyFields direction, entry.2.Valid := by
  intro entry member
  obtain ⟨⟨field, places⟩, -, isKeyed⟩ := List.mem_filterMap.1 member
  dsimp only at isKeyed
  split at isKeyed <;> cases isKeyed
  exact isValid.keysValue field _

theorem Valid.documentFields (isValid : node.Valid) :
    ∀ entry ∈ node.documentFields, entry.2.Valid := by
  rw [Node.documentFields]
  simp only [List.forall_mem_append]
  refine ⟨⟨⟨⟨isValid.annotations, isValid.constants⟩, isValid.keyFields .input⟩,
    isValid.keyFields .output⟩, fun entry member => ?_⟩
  obtain ⟨slot, isInput, isNative⟩ := List.mem_filterMap.1 member
  rw [nativeField] at isNative
  split at isNative
  · next native isSome =>
    split at isNative <;> cases isNative
    exact isValid.natives slot isInput native isSome
  · cases isNative

/-- What is written of a node can be. -/
theorem Valid.entry (isValid : node.Valid) (withLayout : Bool) : (node.entry withLayout).Valid where
  appearance appearance isDrawn := by
    have isAppearance : appearance = node.appearance withLayout := by
      rw [Node.entry] at isDrawn
      dsimp only at isDrawn
      split at isDrawn <;> cases isDrawn
      rfl
    have either {point : Point} (inFormat : point.InFormat) :
        ∀ written ∈ (if withLayout then some point else none), written.InFormat := by
      intro written isWritten
      split at isWritten <;> cases isWritten
      exact inFormat
    rw [isAppearance]
    exact ⟨either isValid.position, either isValid.size, isValid.extra⟩
  fields := by
    refine List.foldlRecOn (motive := fun fields : Object => fields.Beside reservedFields) _
      putField Object.beside_empty fun fields beside entry member => ?_
    rw [putField]
    split
    · exact beside
    · next free =>
      exact beside.insert (fun reserved => free (List.contains_iff_mem.2 reserved))
        (isValid.documentFields entry member)

end Change

end Node

end Workflow
