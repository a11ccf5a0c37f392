/-
This file proves which JSON values can be read again from their text, and as what.

A value is read again exactly if its containers do not nest too deeply and every number
in it is read at all; numbers that are not read as they were written are all that
changes. Integers of 64 bits are read as they were written, and doubles are read. What is
read from a text has ascending keys, integers of 64 bits, doubles, and no more levels of
containers than there was room for.
-/

import Workflow.Proofs.Json.Object
import Workflow.Proofs.Json.Written
import Workflow.Proofs.Number.Shortest

namespace Workflow

open Number

/-! ### Results taken apart -/

section Results

variable {Fault Answer Other : Type} {answer : Answer}

theorem ok_bind {next : Other → Except Fault Answer} (other : Other) :
    .ok other >>= next = next other := rfl

theorem bind_eq_ok {first : Except Fault Other} {next : Other → Except Fault Answer} :
    first >>= next = .ok answer ↔ ∃ other, first = .ok other ∧ next other = .ok answer := by
  cases first <;> simp [bind, Except.bind]

theorem map_eq_ok {first : Except Fault Other} {change : Other → Answer} :
    first.map change = .ok answer ↔ ∃ other, first = .ok other ∧ change other = answer := by
  cases first <;> simp [Except.map]

/-- The result is an answer exactly under a condition, and then it is the given answer. -/
def Yields (result : Except Fault Answer) (condition : Prop) (answer : Answer) : Prop :=
  ∀ other, result = .ok other ↔ condition ∧ other = answer

namespace Yields

variable {result : Except Fault Answer} {first : Except Fault Other} {other : Other}
  {condition later : Prop}

theorem ok (answer : Answer) : Yields (.ok answer : Except Fault Answer) True answer := by
  simp [Yields, eq_comm]

theorem error (fault : Fault) (answer : Answer) :
    Yields (.error fault : Except Fault Answer) False answer := by
  simp [Yields]

theorem of_iff (yields : Yields result condition answer) (same : later ↔ condition) :
    Yields result later answer := by
  rw [propext same]
  exact yields

theorem eq_ok (yields : Yields result condition answer) (holds : condition) : result = .ok answer :=
  (yields answer).2 ⟨holds, rfl⟩

theorem bind {next : Other → Except Fault Answer} (yields : Yields first condition other)
    (others : Yields (next other) later answer) :
    Yields (first >>= next) (condition ∧ later) answer := by
  intro found
  rw [bind_eq_ok]
  refine ⟨?_, ?_⟩
  · rintro ⟨found, isFound, isAnswer⟩
    obtain ⟨holds, rfl⟩ := (yields found).1 isFound
    obtain ⟨alsoHolds, rfl⟩ := (others _).1 isAnswer
    exact ⟨⟨holds, alsoHolds⟩, rfl⟩
  · rintro ⟨⟨holds, alsoHolds⟩, rfl⟩
    exact ⟨other, yields.eq_ok holds, others.eq_ok alsoHolds⟩

theorem bind_ok {next : Other → Except Fault Answer} (yields : Yields first condition other)
    (isOk : next other = .ok answer) : Yields (first >>= next) condition answer := by
  have others : Yields (next other) True answer := isOk ▸ ok answer
  exact (yields.bind others).of_iff (and_true condition).symm.to_iff

theorem map (yields : Yields first condition other) (change : Other → Answer) :
    Yields (first.map change) condition (change other) := by
  have same : first.map change = first >>= fun other => .ok (change other) := by cases first <;> rfl
  rw [same]
  exact yields.bind_ok rfl

end Yields

end Results

/-! ### Numbers -/

namespace Number

deriving instance DecidableEq for Number

/-- What a number is read as once it is written. -/
def reread? (number : Number) : Option Number := number.numeral.value?

/-- A number that a value can hold: a double, or an integer of 64 bits. -/
def InRange : Number → Prop
  | int value => -(twoTo 63 : Int) ≤ value ∧ value < twoTo 64
  | real value => double.Holds value

/-- Integers of 64 bits are read as they are written. -/
theorem reread?_int {value : Int} (inRange : (int value).InRange) :
    (int value).reread? = some (int value) := by
  obtain ⟨least, most⟩ := inRange
  show (Numeral.ofInt value).value? = _
  rw [Numeral.value?]
  simp only [Numeral.ofInt, digitsValue_decimalDigits, Option.isNone_none, true_and,
    decide_eq_true_eq]
  by_cases negative : value < 0
  · rw [if_pos, if_pos negative]
    · congr 2
      omega
    · rw [if_pos negative]
      omega
  · rw [if_pos, if_neg negative]
    · congr 2
      omega
    · rw [if_neg negative]
      omega

/-- What is read is a number that a value can hold. -/
theorem inRange_of_value? {numeral : Numeral} {number : Number}
    (read : numeral.value? = some number) : number.InRange := by
  rw [Numeral.value?] at read
  by_cases whole : numeral.fraction.isNone = true ∧ numeral.exponent.isNone = true ∧
      (if numeral.negative = true then 0 < digitsValue numeral.whole ∧
        digitsValue numeral.whole ≤ twoTo 63 else digitsValue numeral.whole < twoTo 64)
  · rw [if_pos whole] at read
    cases read
    obtain ⟨-, -, bounds⟩ := whole
    rw [InRange]
    split at bounds
    · next negative =>
      rw [if_pos negative]
      simp only [twoTo] at bounds ⊢
      omega
    · next positive =>
      rw [if_neg positive]
      simp only [twoTo] at bounds ⊢
      omega
  · rw [if_neg whole] at read
    obtain ⟨value, isValue, rfl⟩ := Option.map_eq_some_iff.1 read
    exact Numeral.holds_stepwise? isValue

/-- Every number that a value can hold is read once it is written. -/
theorem InRange.reread?_isSome {number : Number} (inRange : number.InRange) :
    number.reread?.isSome := by
  cases number with
  | int value =>
    rw [reread?_int inRange]
    rfl
  | real value => exact value?_numeral_isSome inRange

end Number

/-! ### Values -/

namespace Json

mutual

/-- How many levels of containers a value has. -/
def levels : Json → Nat
  | array items => itemLevels items + 1
  | object members => memberLevels members + 1
  | null | bool _ | int _ | real _ | string _ => 0

def itemLevels : List Json → Nat
  | [] => 0
  | item :: rest => max item.levels (itemLevels rest)

def memberLevels : List (String × Json) → Nat
  | [] => 0
  | (_, value) :: rest => max value.levels (memberLevels rest)

end

mutual

/-- The numbers in a value. -/
def numbers : Json → List Number
  | int value => [.int value]
  | real value => [.real value]
  | array items => itemNumbers items
  | object members => memberNumbers members
  | null | bool _ | string _ => []

def itemNumbers : List Json → List Number
  | [] => []
  | item :: rest => item.numbers ++ itemNumbers rest

def memberNumbers : List (String × Json) → List Number
  | [] => []
  | (_, value) :: rest => value.numbers ++ memberNumbers rest

end

mutual

/-- Every object in a value has ascending keys. -/
def Ordered : Json → Prop
  | array items => ItemsOrdered items
  | object members => Object.Ascending members ∧ MembersOrdered members
  | null | bool _ | int _ | real _ | string _ => True

def ItemsOrdered : List Json → Prop
  | [] => True
  | item :: rest => item.Ordered ∧ ItemsOrdered rest

def MembersOrdered : List (String × Json) → Prop
  | [] => True
  | (_, value) :: rest => value.Ordered ∧ MembersOrdered rest

end

theorem itemLevels_le_iff {items : List Json} {room : Nat} :
    itemLevels items ≤ room ↔ ∀ item ∈ items, item.levels ≤ room := by
  induction items with
  | nil => simp [itemLevels]
  | cons item rest inductionHypothesis =>
    rw [itemLevels, max_le_iff, inductionHypothesis, List.forall_mem_cons]

theorem memberLevels_le_iff {members : List (String × Json)} {room : Nat} :
    memberLevels members ≤ room ↔ ∀ entry ∈ members, entry.2.levels ≤ room := by
  induction members with
  | nil => simp [memberLevels]
  | cons entry rest inductionHypothesis =>
    rw [memberLevels, max_le_iff, inductionHypothesis, List.forall_mem_cons]

theorem forall_itemNumbers_iff {items : List Json} {property : Number → Prop} :
    (∀ number ∈ itemNumbers items, property number) ↔
      ∀ item ∈ items, ∀ number ∈ item.numbers, property number := by
  induction items with
  | nil => simp [itemNumbers]
  | cons item rest inductionHypothesis =>
    rw [itemNumbers, List.forall_mem_append, inductionHypothesis, List.forall_mem_cons]

theorem forall_memberNumbers_iff {members : List (String × Json)} {property : Number → Prop} :
    (∀ number ∈ memberNumbers members, property number) ↔
      ∀ entry ∈ members, ∀ number ∈ entry.2.numbers, property number := by
  induction members with
  | nil => simp [memberNumbers]
  | cons entry rest inductionHypothesis =>
    rw [memberNumbers, List.forall_mem_append, inductionHypothesis, List.forall_mem_cons]

theorem itemsOrdered_iff {items : List Json} :
    ItemsOrdered items ↔ ∀ item ∈ items, item.Ordered := by
  induction items with
  | nil => simp [ItemsOrdered]
  | cons item rest inductionHypothesis =>
    rw [ItemsOrdered, inductionHypothesis, List.forall_mem_cons]

theorem membersOrdered_iff {members : List (String × Json)} :
    MembersOrdered members ↔ ∀ entry ∈ members, entry.2.Ordered := by
  induction members with
  | nil => simp [MembersOrdered]
  | cons entry rest inductionHypothesis =>
    rw [MembersOrdered, inductionHypothesis, List.forall_mem_cons]

/-- A value as it is read where there is room for so many levels of containers. -/
structure Sound (room : Nat) (value : Json) : Prop where
  ordered : value.Ordered
  fits : value.levels ≤ room
  inRange : ∀ number ∈ value.numbers, number.InRange

namespace Sound

variable {room : Nat}

theorem scalar {value : Json} (ordered : value.Ordered) (flat : value.levels = 0)
    (numberless : value.numbers = []) : value.Sound room := by
  refine ⟨ordered, by omega, ?_⟩
  rw [numberless]
  exact List.forall_mem_nil _

theorem array {items : List Json} (some : 0 < room)
    (sound : ∀ item ∈ items, item.Sound (room - 1)) : (Json.array items).Sound room where
  ordered := itemsOrdered_iff.2 fun item member => (sound item member).ordered
  fits := by
    have := itemLevels_le_iff.2 fun item member => (sound item member).fits
    rw [levels]
    omega
  inRange := forall_itemNumbers_iff.2 fun item member => (sound item member).inRange

theorem object {members : List (String × Json)} (some : 0 < room)
    (ascending : Object.Ascending members)
    (sound : ∀ entry ∈ members, entry.2.Sound (room - 1)) : (Json.object members).Sound room where
  ordered := ⟨ascending, membersOrdered_iff.2 fun entry member => (sound entry member).ordered⟩
  fits := by
    have := memberLevels_le_iff.2 fun entry member => (sound entry member).fits
    rw [levels]
    omega
  inRange := forall_memberNumbers_iff.2 fun entry member => (sound entry member).inRange

end Sound

mutual

/-- The value with every number as it is read; a number that is not read at all stays. -/
def reread : Json → Json
  | int value => ofNumber ((Number.int value).reread?.getD (.int value))
  | real value => ofNumber ((Number.real value).reread?.getD (.real value))
  | array items => array (rereadItems items)
  | object members => object (rereadMembers members)
  | null => null
  | bool value => bool value
  | string text => string text

def rereadItems : List Json → List Json
  | [] => []
  | item :: rest => item.reread :: rereadItems rest

def rereadMembers : List (String × Json) → List (String × Json)
  | [] => []
  | (key, value) :: rest => (key, value.reread) :: rereadMembers rest

end

theorem keys_rereadMembers (members : Object) :
    Object.keys (rereadMembers members) = members.keys := by
  induction members with
  | nil => rfl
  | cons entry rest inductionHypothesis =>
    rw [rereadMembers, Object.keys, List.map_cons, ← Object.keys, inductionHypothesis]
    rfl

mutual

/-- A value is the same if every number is read as it was written. -/
theorem reread_eq_self (value : Json)
    (same : ∀ number ∈ value.numbers, number.reread? = some number) : value.reread = value :=
  match value with
  | null | bool _ | string _ => rfl
  | int value => by
    rw [reread, same _ (List.mem_singleton_self _)]
    rfl
  | real value => by
    rw [reread, same _ (List.mem_singleton_self _)]
    rfl
  | array items => by
    rw [numbers] at same
    rw [reread, rereadItems_eq_self items same]
  | object members => by
    rw [numbers] at same
    rw [reread, rereadMembers_eq_self members same]

theorem rereadItems_eq_self (items : List Json)
    (same : ∀ number ∈ itemNumbers items, number.reread? = some number) :
    rereadItems items = items :=
  match items with
  | [] => rfl
  | item :: rest => by
    rw [itemNumbers, List.forall_mem_append] at same
    rw [rereadItems, reread_eq_self item same.1, rereadItems_eq_self rest same.2]

theorem rereadMembers_eq_self (members : List (String × Json))
    (same : ∀ number ∈ memberNumbers members, number.reread? = some number) :
    rereadMembers members = members :=
  match members with
  | [] => rfl
  | (key, value) :: rest => by
    rw [memberNumbers, List.forall_mem_append] at same
    rw [rereadMembers, reread_eq_self value same.1, rereadMembers_eq_self rest same.2]

end

end Json

/-! ### Reading what was written -/

/-- Ascending members are ascending with other values. -/
theorem Object.Ascending.of_keys_eq {members other : Object} (ascending : members.Ascending)
    (same : other.keys = members.keys) : other.Ascending := by
  have ascendingKeys : members.keys.Pairwise (· < ·) := List.pairwise_map.2 ascending
  rw [← same] at ascendingKeys
  exact List.pairwise_map.1 ascendingKeys

namespace Source

open Workflow.Tree Workflow.Json

theorem yields_number (written : Number) (room : Nat) :
    Yields ((number written.numeral).value room) (written.reread?.isSome)
      (ofNumber (written.reread?.getD written)) := by
  rw [Source.value, show written.numeral.value? = written.reread? from rfl]
  cases written.reread? with
  | none => exact (Yields.error _ _).of_iff (by simp)
  | some found => exact (Yields.ok _).of_iff (by simp)

mutual

/-- When a value is read again from its text, and as what. -/
theorem yields_value (written : Json) (ordered : written.Ordered) (room : Nat) :
    Yields (written.tree.source.value room)
      (written.levels ≤ room ∧ ∀ number ∈ written.numbers, number.reread?.isSome)
      written.reread :=
  match written with
  | .null | .bool _ => (Yields.ok _).of_iff (by simp [levels, numbers])
  | .int value => (yields_number (.int value) room).of_iff (by simp [levels, numbers])
  | .real value => (yields_number (.real value) room).of_iff (by simp [levels, numbers])
  | .string text => by
    rw [Json.tree, Tree.source, Source.value, textOf_pieces]
    exact (Yields.ok _).of_iff (by simp [levels, numbers])
  | .array items => by
    rw [Ordered] at ordered
    rw [Json.tree, Tree.source, Source.value, levels, numbers, reread]
    split
    · exact (Yields.error _ _).of_iff (iff_false_intro fun holds => by omega)
    · exact .of_iff ((yields_itemValues items ordered (room - 1)).bind_ok rfl)
        (and_congr_left' (by omega))
  | .object members => by
    rw [Ordered] at ordered
    have ascending := ordered.1.of_keys_eq (keys_rereadMembers members)
    rw [Json.tree, Tree.source, Source.value, levels, numbers, reread, ← ascending.ofList]
    split
    · exact (Yields.error _ _).of_iff (iff_false_intro fun holds => by omega)
    · exact .of_iff ((yields_memberValues members ordered.2 (room - 1)).bind_ok rfl)
        (and_congr_left' (by omega))

theorem yields_itemValues (items : List Json) (ordered : ItemsOrdered items) (room : Nat) :
    Yields (itemValues room (itemSources (treesOf items)))
      (itemLevels items ≤ room ∧ ∀ number ∈ itemNumbers items, number.reread?.isSome)
      (rereadItems items) :=
  match items with
  | [] => (Yields.ok _).of_iff (by simp [itemLevels, itemNumbers])
  | item :: rest => by
    rw [ItemsOrdered] at ordered
    rw [treesOf, itemSources, itemValues, itemLevels, itemNumbers, rereadItems, max_le_iff,
      List.forall_mem_append]
    exact .of_iff ((yields_value item ordered.1 room).bind
      ((yields_itemValues rest ordered.2 room).bind_ok rfl)) and_and_and_comm

theorem yields_memberValues (members : List (String × Json)) (ordered : MembersOrdered members)
    (room : Nat) :
    Yields (memberValues room (memberSources (memberTreesOf members)))
      (memberLevels members ≤ room ∧ ∀ number ∈ memberNumbers members, number.reread?.isSome)
      (rereadMembers members) :=
  match members with
  | [] => (Yields.ok _).of_iff (by simp [memberLevels, memberNumbers])
  | (key, value) :: rest => by
    rw [MembersOrdered] at ordered
    rw [memberTreesOf, memberSources, memberValues, textOf_pieces, ok_bind, memberLevels,
      memberNumbers, rereadMembers, max_le_iff, List.forall_mem_append]
    exact .of_iff ((yields_value value ordered.1 room).bind
      ((yields_memberValues rest ordered.2 room).bind_ok rfl)) and_and_and_comm

end

/-! ### What is read -/

mutual

/-- What is read is sound. -/
theorem sound_of_value (source : Source) {room : Nat} {found : Json}
    (read : source.value room = .ok found) : found.Sound room :=
  match source with
  | .null | .bool _ => by
    rw [Source.value] at read
    cases read
    exact .scalar trivial rfl rfl
  | .number numeral => by
    rw [Source.value] at read
    split at read
    · next number isNumber =>
      have inRange := inRange_of_value? isNumber
      cases read
      cases number with
      | int value => exact ⟨trivial, Nat.zero_le room, List.forall_mem_singleton.2 inRange⟩
      | real value => exact ⟨trivial, Nat.zero_le room, List.forall_mem_singleton.2 inRange⟩
    · cases read
  | .string pieces => by
    rw [Source.value] at read
    obtain ⟨text, -, rfl⟩ := map_eq_ok.1 read
    exact .scalar trivial rfl rfl
  | .array items ending => by
    rw [Source.value] at read
    split at read
    · cases read
    · obtain ⟨values, itemsRead, read⟩ := bind_eq_ok.1 read
      obtain ⟨_, -, read⟩ := bind_eq_ok.1 read
      have sound := sound_of_itemValues items itemsRead
      cases read
      exact .array (by omega) sound
  | .object members ending => by
    rw [Source.value] at read
    split at read
    · cases read
    · obtain ⟨values, membersRead, read⟩ := bind_eq_ok.1 read
      obtain ⟨_, -, read⟩ := bind_eq_ok.1 read
      have sound := sound_of_memberValues members membersRead
      cases read
      exact .object (by omega) (Object.ascending_ofList values) fun entry member =>
        sound entry (Object.mem_of_mem_ofList member)
  | .missing flaw => by
    rw [Source.value] at read
    cases read

theorem sound_of_itemValues (items : List Source) {room : Nat} {found : List Json}
    (read : itemValues room items = .ok found) : ∀ item ∈ found, item.Sound room :=
  match items with
  | [] => by
    rw [itemValues] at read
    cases read
    exact List.forall_mem_nil _
  | item :: rest => by
    rw [itemValues] at read
    obtain ⟨first, firstRead, read⟩ := bind_eq_ok.1 read
    obtain ⟨others, othersRead, read⟩ := bind_eq_ok.1 read
    have sound := sound_of_value item firstRead
    have othersSound := sound_of_itemValues rest othersRead
    cases read
    exact List.forall_mem_cons.2 ⟨sound, othersSound⟩

theorem sound_of_memberValues (members : List (List Piece × Source)) {room : Nat}
    {found : List (String × Json)} (read : memberValues room members = .ok found) :
    ∀ entry ∈ found, entry.2.Sound room :=
  match members with
  | [] => by
    rw [memberValues] at read
    cases read
    exact List.forall_mem_nil _
  | (pieces, item) :: rest => by
    rw [memberValues] at read
    obtain ⟨key, -, read⟩ := bind_eq_ok.1 read
    obtain ⟨first, firstRead, read⟩ := bind_eq_ok.1 read
    obtain ⟨others, othersRead, read⟩ := bind_eq_ok.1 read
    have sound := sound_of_value item firstRead
    have othersSound := sound_of_memberValues rest othersRead
    cases read
    exact List.forall_mem_cons.2 ⟨sound, othersSound⟩

end

end Source

end Workflow
