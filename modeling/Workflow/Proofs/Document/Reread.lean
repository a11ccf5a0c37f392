/-
This file proves when a document is read again from its text, and as what.

Members that the format knows are written in a fixed order, each at most once; the
others follow in ascending order of their keys. As long as none of these has a key of
the format, they come back as they were. What is left to go wrong is a coordinate that
is not finite, a value that nests too deeply, and a number that is not read.
-/

import Workflow.Document.Export
import Workflow.Document.Reader
import Workflow.Proofs.Json.Reread

namespace Workflow

open Number Source

/-! ### Members read one after the other -/

section Members

variable {Draft Value Answer : Type} {read : Draft → String → Source → Except Problem Draft}
  {draft result : Draft} {condition : Prop}

/-- A member that is written only if there is a value, and what follows it. -/
theorem yields_optionalMember {key : String} {write : Value → Tree} {value? : Option Value}
    {rest : List (String × Tree)} {readable : Value → Prop} (reread : Value → Answer)
    (put : Option Answer → Draft) (unset : put none = draft)
    (first : ∀ value ∈ value?,
      Yields (read draft key (write value).source) (readable value) (put (some (reread value))))
    (others : Yields (readMembers read (put (value?.map reread)) (Tree.memberSources rest))
      condition result) :
    Yields (readMembers read draft (Tree.memberSources (optionalMember key write value? ++ rest)))
      ((∀ value ∈ value?, readable value) ∧ condition) result := by
  cases value? with
  | none =>
    rw [Option.map_none, unset] at others
    exact others.of_iff (by simp)
  | some value =>
    show Yields (do
      let key ← textOf (Tree.pieces key)
      let next ← read draft key (write value).source
      readMembers read next (Tree.memberSources rest)) _ _
    rw [textOf_pieces, ok_bind]
    exact ((first value rfl).bind others).of_iff (by simp)

/-- Members that the format does not know. -/
theorem yields_openMembers {known : List String} {room : Nat}
    (extend : Draft → List (String × Json) → Draft) (unchanged : ∀ draft, extend draft [] = draft)
    (further : ∀ draft entry rest,
      extend (extend draft [entry]) rest = extend draft (entry :: rest))
    (reads : ∀ draft key source, key ∉ known →
      read draft key source = (source.value room).map fun value => extend draft [(key, value)])
    {members : List (String × Json)} (unknown : ∀ entry ∈ members, entry.1 ∉ known)
    (ordered : Json.MembersOrdered members) (draft : Draft) :
    Yields (readMembers read draft (Tree.memberSources (Json.memberTreesOf members)))
      (Json.memberLevels members ≤ room ∧
        ∀ number ∈ Json.memberNumbers members, number.reread?.isSome)
      (extend draft (Json.rereadMembers members)) := by
  induction members generalizing draft with
  | nil =>
    rw [Json.rereadMembers, unchanged]
    exact (Yields.ok draft).of_iff (by simp [Json.memberLevels, Json.memberNumbers])
  | cons entry rest inductionHypothesis =>
    obtain ⟨key, value⟩ := entry
    rw [Json.MembersOrdered] at ordered
    obtain ⟨unknownKey, unknownKeys⟩ := List.forall_mem_cons.1 unknown
    rw [Json.memberTreesOf, Tree.memberSources, readMembers, textOf_pieces, ok_bind,
      reads draft key _ unknownKey, Json.memberLevels, Json.memberNumbers, Json.rereadMembers,
      max_le_iff, List.forall_mem_append, ← further]
    exact .of_iff (((yields_value value ordered.1 room).map _).bind
      (inductionHypothesis unknownKeys ordered.2 _)) and_and_and_comm

/-- A member that has no value yet. -/
theorem yields_once {reader : Source → Except Problem Answer} {source : Source} {answer : Answer}
    (yields : Yields (reader source) condition answer) (put : Option Answer → Draft) :
    Yields ((readOnce none reader source).map put) condition (put (some answer)) :=
  (yields.map some).map put

/-- A value that may be null, but is not. -/
theorem yields_readOptional {reader : Source → Except Problem Answer} {source : Source}
    {answer : Answer} (yields : Yields (reader source) condition answer) (given : source ≠ .null) :
    Yields (readOptional reader source) condition (some answer) := by
  have isRead : readOptional reader source = (reader source).map some := by
    rw [readOptional.eq_def]
    split
    · exact absurd rfl given
    · rfl
  rw [isRead]
  exact yields.map some

/-- Items that are written one by one. -/
theorem yields_readItems {reader : Source → Except Problem Answer} {write : Value → Tree}
    {readable : Value → Prop} {reread : Value → Answer} {items : List Value}
    (each : ∀ item ∈ items, Yields (reader (write item).source) (readable item) (reread item)) :
    Yields (readItems reader (Tree.itemSources (items.map write)))
      (∀ item ∈ items, readable item) (items.map reread) := by
  induction items with
  | nil => exact (Yields.ok _).of_iff (by simp)
  | cons item rest inductionHypothesis =>
    obtain ⟨first, others⟩ := List.forall_mem_cons.1 each
    rw [List.map_cons, Tree.itemSources, readItems, List.map_cons]
    exact .of_iff (first.bind ((inductionHypothesis others).bind_ok rfl)) List.forall_mem_cons

theorem yields_readObject {members : List (String × Tree)}
    (yields : Yields (readMembers read draft (Tree.memberSources members)) condition result) :
    Yields (readObject read draft (Tree.object members).source) condition result :=
  yields.bind_ok rfl

/-- What was read of a member that may be null. -/
theorem join_map_some (change : Value → Answer) (value? : Option Value) :
    (value?.map fun value => some (change value)).join = value?.map change := by
  cases value? <;> rfl

theorem join_map_some_self (value? : Option Value) : (value?.map some).join = value? := by
  cases value? <;> rfl

theorem yields_readText (text : String) :
    Yields (readText (Tree.string text).source) True text := by
  rw [Tree.source, readText, textOf_pieces]
  exact Yields.ok text

end Members

/-! ### Coordinates -/

/-- What a coordinate is read as once it is written. -/
def Number.Single.reread? (coordinate : Single) : Option Single :=
  (coordinate.numeral?.bind Numeral.value?).map Single.ofNumber

theorem Number.Single.numeral?_isSome_iff {coordinate : Single} :
    coordinate.numeral?.isSome ↔ ∃ value, coordinate = .finite value := by
  cases coordinate <;> simp [Single.numeral?]

/-- Finite coordinates are all that is read again. -/
theorem Number.Single.InFormat.reread?_isSome_iff {coordinate : Single}
    (inFormat : coordinate.InFormat) :
    coordinate.reread?.isSome ↔ ∃ value, coordinate = .finite value := by
  rw [Single.reread?, Option.isSome_map]
  cases coordinate with
  | finite value => simp [Single.numeral?, value?_single_isSome inFormat]
  | infinite negative => simp [Single.numeral?]
  | undefined => simp [Single.numeral?]

namespace Point

def coordinates (point : Point) : List Single := [point.x, point.y]

/-- The point with every coordinate as it is read. -/
def reread (point : Point) : Point :=
  ⟨point.x.reread?.getD point.x, point.y.reread?.getD point.y⟩

end Point

theorem yields_readCoordinate (coordinate : Single) :
    Yields (readCoordinate (coordinateTree coordinate).source) coordinate.reread?.isSome
      (coordinate.reread?.getD coordinate) := by
  rw [coordinateTree, Single.reread?]
  cases coordinate.numeral? with
  | none => exact (Yields.error _ _).of_iff (by simp)
  | some numeral =>
    show Yields (readCoordinate (.number numeral)) (numeral.value?.map Single.ofNumber).isSome
      ((numeral.value?.map Single.ofNumber).getD coordinate)
    rw [readCoordinate, readNumber]
    cases numeral.value? with
    | none => exact (Yields.error _ _).of_iff (by simp)
    | some number => exact (Yields.ok _).of_iff (by simp)

theorem yields_readPoint (point : Point) :
    Yields (readPoint point.tree.source)
      (∀ coordinate ∈ point.coordinates, coordinate.reread?.isSome) point.reread := by
  show Yields (do
    let x ← readCoordinate (coordinateTree point.x).source
    let y ← readCoordinate (coordinateTree point.y).source
    if ([] : List Source).isEmpty then do
      finish none
      .ok (⟨x, y⟩ : Point)
    else .error .malformed) _ _
  exact .of_iff ((yields_readCoordinate point.x).bind
    ((yields_readCoordinate point.y).bind_ok rfl)) (by simp [Point.coordinates])

/-! ### Nodes -/

/-- The members of an appearance that the format knows. -/
def appearanceMembers : List String := ["pos", "size", "title", "name", "color"]

/-- Members that stand beside those that the format knows. -/
structure Object.Open (known : List String) (members : Object) : Prop where
  ascending : members.Ascending
  ordered : Json.MembersOrdered members
  unknown : ∀ entry ∈ members, entry.1 ∉ known

theorem Object.Open.ofList_reread {known : List String} {members : Object}
    (isOpen : members.Open known) :
    Object.ofList (Json.rereadMembers members) = Json.rereadMembers members :=
  (isOpen.ascending.of_keys_eq (Json.keys_rereadMembers members)).ofList

namespace Appearance

def coordinates (appearance : Appearance) : List Single :=
  (appearance.position.toList ++ appearance.size.toList).flatMap Point.coordinates

/-- What it takes to read the appearance again. -/
structure Readable (appearance : Appearance) : Prop where
  coordinates : ∀ coordinate ∈ appearance.coordinates, coordinate.reread?.isSome
  shallow : Json.memberLevels appearance.others ≤ depthLimit - appearanceDepth
  numbers : ∀ number ∈ Json.memberNumbers appearance.others, number.reread?.isSome

/-- The appearance with every number as it is read. -/
def reread (appearance : Appearance) : Appearance :=
  { appearance with
    position := appearance.position.map Point.reread
    size := appearance.size.map Point.reread
    others := Json.rereadMembers appearance.others }

theorem readable_iff {appearance : Appearance} :
    appearance.Readable ↔
      (∀ point ∈ appearance.position, ∀ coordinate ∈ point.coordinates,
        coordinate.reread?.isSome) ∧
      (∀ point ∈ appearance.size, ∀ coordinate ∈ point.coordinates, coordinate.reread?.isSome) ∧
      Json.memberLevels appearance.others ≤ depthLimit - appearanceDepth ∧
      ∀ number ∈ Json.memberNumbers appearance.others, number.reread?.isSome := by
  have coordinates : (∀ coordinate ∈ appearance.coordinates, coordinate.reread?.isSome) ↔
      (∀ point ∈ appearance.position, ∀ coordinate ∈ point.coordinates,
        coordinate.reread?.isSome) ∧
      ∀ point ∈ appearance.size, ∀ coordinate ∈ point.coordinates, coordinate.reread?.isSome := by
    rw [Appearance.coordinates, List.flatMap_append, List.forall_mem_append]
    cases appearance.position <;> cases appearance.size <;> simp
  rw [← and_assoc, ← coordinates]
  exact ⟨fun readable => ⟨readable.coordinates, readable.shallow, readable.numbers⟩,
    fun ⟨coordinates, shallow, numbers⟩ => ⟨coordinates, shallow, numbers⟩⟩

theorem yields_readMembers {appearance : Appearance}
    (isOpen : appearance.others.Open appearanceMembers) :
    Yields (readMembers AppearanceDraft.read {} (Tree.memberSources
        (optionalMember "pos" Point.tree appearance.position ++
        (optionalMember "size" Point.tree appearance.size ++
        (optionalMember "title" Tree.string appearance.title ++
        (optionalMember "name" Tree.string appearance.name ++
        (optionalMember "color" Tree.string appearance.color ++
        appearance.others.memberTrees)))))))
      ((∀ point ∈ appearance.position, ∀ coordinate ∈ point.coordinates,
          coordinate.reread?.isSome) ∧
        (∀ point ∈ appearance.size, ∀ coordinate ∈ point.coordinates, coordinate.reread?.isSome) ∧
        (∀ text ∈ appearance.title, True) ∧ (∀ text ∈ appearance.name, True) ∧
        (∀ text ∈ appearance.color, True) ∧
        Json.memberLevels appearance.others ≤ depthLimit - appearanceDepth ∧
        ∀ number ∈ Json.memberNumbers appearance.others, number.reread?.isSome)
      { position := appearance.position.map fun point => some point.reread
        size := appearance.size.map fun point => some point.reread
        title := appearance.title.map some
        name := appearance.name.map some
        color := appearance.color.map some
        others := Json.rereadMembers appearance.others } := by
  have point (written : Point) :=
    yields_readOptional (yields_readPoint written) (by rw [Point.tree, Tree.source]; exact nofun)
  have text (written : String) :=
    yields_readOptional (yields_readText written) (by rw [Tree.source]; exact nofun)
  refine yields_optionalMember (fun point => some point.reread)
    (fun value => { position := value }) rfl
    (fun written _ => yields_once (point written) _) ?_
  refine yields_optionalMember (fun point => some point.reread)
    (fun value => { position := _, size := value }) rfl
    (fun written _ => yields_once (point written) _) ?_
  refine yields_optionalMember some (fun value => { position := _, size := _, title := value }) rfl
    (fun written _ => yields_once (text written) _) ?_
  refine yields_optionalMember some
    (fun value => { position := _, size := _, title := _, name := value }) rfl
    (fun written _ => yields_once (text written) _) ?_
  refine yields_optionalMember some
    (fun value => { position := _, size := _, title := _, name := _, color := value }) rfl
    (fun written _ => yields_once (text written) _) ?_
  refine yields_openMembers (fun (draft : AppearanceDraft) entries =>
    { draft with others := draft.others ++ entries }) (fun draft => by simp)
    (fun draft entry rest => by simp) (fun draft key source isUnknown => ?_) isOpen.unknown
    isOpen.ordered _
  rw [AppearanceDraft.read.eq_def]
  split <;> first | rfl | exact absurd (by decide) isUnknown

theorem yields_read {appearance : Appearance} (isOpen : appearance.others.Open appearanceMembers) :
    Yields (read appearance.tree.source) appearance.Readable appearance.reread := by
  rw [read, tree]
  simp only [List.append_assoc]
  refine .of_iff ((yields_readObject (yields_readMembers isOpen)).bind_ok ?_)
    (readable_iff.trans (by simp))
  rw [isOpen.ofList_reread]
  simp [reread, join_map_some, join_map_some_self]

end Appearance

namespace NodeEntry

/-- What it takes to read the node again. -/
structure Readable (node : NodeEntry) : Prop where
  appearance : ∀ appearance ∈ node.appearance, appearance.Readable
  shallow : Json.memberLevels node.fields ≤ depthLimit - nodeDepth
  numbers : ∀ number ∈ Json.memberNumbers node.fields, number.reread?.isSome

/-- The node with every number as it is read. -/
def reread (node : NodeEntry) : NodeEntry :=
  { node with
    appearance := node.appearance.map Appearance.reread
    fields := Json.rereadMembers node.fields }

/-- Members that stand beside those of the format do not have their keys. -/
structure Regular (node : NodeEntry) : Prop where
  fields : node.fields.Open reservedFields
  appearance : ∀ appearance ∈ node.appearance, appearance.others.Open appearanceMembers

theorem readable_iff {node : NodeEntry} :
    node.Readable ↔
      (∀ text ∈ some node.type, True) ∧ (∀ appearance ∈ node.appearance, appearance.Readable) ∧
      Json.memberLevels node.fields ≤ depthLimit - nodeDepth ∧
      ∀ number ∈ Json.memberNumbers node.fields, number.reread?.isSome :=
  ⟨fun readable => ⟨fun _ _ => trivial, readable.appearance, readable.shallow, readable.numbers⟩,
    fun ⟨_, appearance, shallow, numbers⟩ => ⟨appearance, shallow, numbers⟩⟩

theorem yields_readMembers {node : NodeEntry} (regular : node.Regular) :
    Yields (readMembers NodeDraft.read {} (Tree.memberSources
        (optionalMember "type" Tree.string (some node.type) ++
        (optionalMember "extra" Appearance.tree node.appearance ++ node.fields.memberTrees))))
      ((∀ text ∈ some node.type, True) ∧
        (∀ appearance ∈ node.appearance, appearance.Readable) ∧
        Json.memberLevels node.fields ≤ depthLimit - nodeDepth ∧
        ∀ number ∈ Json.memberNumbers node.fields, number.reread?.isSome)
      { type := some node.type
        appearance := node.appearance.map fun appearance => some appearance.reread
        fields := Json.rereadMembers node.fields } := by
  refine yields_optionalMember id (fun value => { type := value }) rfl
    (fun written _ => yields_once (yields_readText written) _) ?_
  refine yields_optionalMember (fun appearance => some appearance.reread)
    (fun value => { type := _, appearance := value }) rfl
    (fun written isWritten => yields_once (yields_readOptional
      (Appearance.yields_read (regular.appearance written isWritten)) ?_) _) ?_
  · rw [Appearance.tree, Tree.source]
    exact nofun
  refine yields_openMembers (fun (draft : NodeDraft) entries =>
    { draft with fields := draft.fields ++ entries }) (fun draft => by simp)
    (fun draft entry rest => by simp) (fun draft key source isUnknown => ?_)
    regular.fields.unknown regular.fields.ordered _
  rw [NodeDraft.read.eq_def]
  split <;> first | rfl | exact absurd (by decide) isUnknown

theorem yields_read {node : NodeEntry} (regular : node.Regular) :
    Yields (read node.tree.source) node.Readable node.reread := by
  refine .of_iff ((yields_readObject (yields_readMembers regular)).bind_ok ?_) readable_iff
  simp [required, ok_bind, reread, join_map_some, regular.fields.ofList_reread]

end NodeEntry

/-! ### Edges -/

/-- Natural numbers beyond 64 bits are no integers to a reader. -/
theorem Number.reread?_of_le {value : Nat} (large : twoTo 64 ≤ value) (number : Int) :
    (Number.int value).reread? ≠ some (.int number) := by
  show (Numeral.ofInt value).value? ≠ _
  rw [Numeral.value?, if_neg]
  · simp
  · rintro ⟨-, -, small⟩
    rw [Numeral.ofInt, if_neg (by simp), digitsValue_decimalDigits] at small
    omega

theorem yields_readPlace (place : Nat) :
    Yields (readPlace (natTree place).source) (place < twoTo 64) place := by
  show Yields (readPlace (.number (Number.int place).numeral)) _ _
  rw [readPlace, readNumber, show (Number.int place).numeral.value? = _ from rfl]
  by_cases small : place < twoTo 64
  · have inRange : (Number.int place).InRange := ⟨by simp only [twoTo]; omega, by omega⟩
    rw [show (Number.int place).numeral.value? = _ from Number.reread?_int inRange]
    exact (Yields.ok place).of_iff (by simp [small])
  · have other := Number.reread?_of_le (Nat.le_of_not_lt small)
    cases isRead : (Number.int place).numeral.value? with
    | none => exact (Yields.error _ _).of_iff (by simp [small])
    | some number =>
      cases number with
      | int value => exact absurd isRead (other value)
      | real value => exact (Yields.error _ _).of_iff (by simp [small])

theorem yields_readCarried {value : Json} (given : value ≠ .null) (ordered : value.Ordered) :
    Yields (readCarried value.tree.source)
      (value.levels ≤ depthLimit - edgeDepth ∧ ∀ number ∈ value.numbers, number.reread?.isSome)
      (some value.reread) := by
  refine yields_readOptional (yields_value value ordered _) ?_
  cases value <;> simp_all [Json.tree, Tree.source]

namespace EdgeEntry

/-- What it takes to read the edge again. -/
structure Readable (edge : EdgeEntry) : Prop where
  source : edge.source < twoTo 64
  target : edge.target < twoTo 64
  data : ∀ value ∈ edge.data, value.levels ≤ depthLimit - edgeDepth ∧
    ∀ number ∈ value.numbers, number.reread?.isSome
  extra : ∀ value ∈ edge.extra, value.levels ≤ depthLimit - edgeDepth ∧
    ∀ number ∈ value.numbers, number.reread?.isSome

/-- The edge with every number as it is read. -/
def reread (edge : EdgeEntry) : EdgeEntry :=
  { edge with
    data := edge.data.map Json.reread
    extra := edge.extra.map Json.reread }

/-- A value that the edge carries along is not null, which would be no value. -/
structure Regular (edge : EdgeEntry) : Prop where
  data : ∀ value ∈ edge.data, value ≠ .null ∧ value.Ordered
  extra : ∀ value ∈ edge.extra, value ≠ .null ∧ value.Ordered

/-- A loop is marked; other edges are not. -/
def loopMark (edge : EdgeEntry) : Option Bool := if edge.isLoop then some true else none

theorem tree_eq (edge : EdgeEntry) :
    edge.tree = .object
      (optionalMember "type" Tree.string (some edge.type) ++
      (optionalMember "source" natTree (some edge.source) ++
      (optionalMember "target" natTree (some edge.target) ++
      (optionalMember "source_slot" Tree.string (some edge.sourceSlot) ++
      (optionalMember "target_slot" Tree.string (some edge.targetSlot) ++
      (optionalMember "loop" Tree.bool edge.loopMark ++
      (optionalMember "data" Json.tree edge.data ++
      (optionalMember "extra" Json.tree edge.extra ++ [])))))))) := by
  have mark : optionalMember "loop" Tree.bool edge.loopMark =
      if edge.isLoop then [("loop", .bool true)] else [] := by
    rw [loopMark]
    cases edge.isLoop <;> rfl
  rw [tree, mark, List.append_nil, List.append_assoc, List.append_assoc]
  rfl

theorem readable_iff {edge : EdgeEntry} :
    edge.Readable ↔
      (∀ text ∈ some edge.type, True) ∧ (∀ place ∈ some edge.source, place < twoTo 64) ∧
      (∀ place ∈ some edge.target, place < twoTo 64) ∧
      (∀ text ∈ some edge.sourceSlot, True) ∧ (∀ text ∈ some edge.targetSlot, True) ∧
      (∀ value ∈ edge.loopMark, True) ∧
      (∀ value ∈ edge.data, value.levels ≤ depthLimit - edgeDepth ∧
        ∀ number ∈ value.numbers, number.reread?.isSome) ∧
      (∀ value ∈ edge.extra, value.levels ≤ depthLimit - edgeDepth ∧
        ∀ number ∈ value.numbers, number.reread?.isSome) ∧ True := by
  refine ⟨fun readable => ⟨fun _ _ => trivial, ?_, ?_, fun _ _ => trivial, fun _ _ => trivial,
    fun _ _ => trivial, readable.data, readable.extra, trivial⟩, ?_⟩
  · rintro place ⟨⟩
    exact readable.source
  · rintro place ⟨⟩
    exact readable.target
  · rintro ⟨-, source, target, -, -, -, data, extra, -⟩
    exact ⟨source _ rfl, target _ rfl, data, extra⟩

theorem yields_readMembers {edge : EdgeEntry} (regular : edge.Regular) :
    Yields (readMembers EdgeDraft.read {} (Tree.memberSources
        (optionalMember "type" Tree.string (some edge.type) ++
        (optionalMember "source" natTree (some edge.source) ++
        (optionalMember "target" natTree (some edge.target) ++
        (optionalMember "source_slot" Tree.string (some edge.sourceSlot) ++
        (optionalMember "target_slot" Tree.string (some edge.targetSlot) ++
        (optionalMember "loop" Tree.bool edge.loopMark ++
        (optionalMember "data" Json.tree edge.data ++
        (optionalMember "extra" Json.tree edge.extra ++ []))))))))))
      edge.Readable
      { type := some edge.type
        source := some edge.source
        target := some edge.target
        sourceSlot := some edge.sourceSlot
        targetSlot := some edge.targetSlot
        isLoop := edge.loopMark.map id
        data := edge.data.map fun value => some value.reread
        extra := edge.extra.map fun value => some value.reread } := by
  refine .of_iff ?_ readable_iff
  refine yields_optionalMember id (fun value => { type := value }) rfl
    (fun written _ => yields_once (yields_readText written) _) ?_
  refine yields_optionalMember id (fun value => { type := _, source := value }) rfl
    (fun written _ => yields_once (yields_readPlace written) _) ?_
  refine yields_optionalMember id (fun value => { type := _, source := _, target := value }) rfl
    (fun written _ => yields_once (yields_readPlace written) _) ?_
  refine yields_optionalMember id
    (fun value => { type := _, source := _, target := _, sourceSlot := value }) rfl
    (fun written _ => yields_once (yields_readText written) _) ?_
  refine yields_optionalMember id
    (fun value => { type := _, source := _, target := _, sourceSlot := _, targetSlot := value }) rfl
    (fun written _ => yields_once (yields_readText written) _) ?_
  refine yields_optionalMember id (fun value =>
    { type := _, source := _, target := _, sourceSlot := _, targetSlot := _, isLoop := value }) rfl
    (fun written _ => Yields.ok _) ?_
  refine yields_optionalMember (fun value => some value.reread) (fun value =>
    { type := _, source := _, target := _, sourceSlot := _, targetSlot := _, isLoop := _,
      data := value }) rfl
    (fun written isWritten => yields_once (yields_readCarried (regular.data written isWritten).1
      (regular.data written isWritten).2) _) ?_
  refine yields_optionalMember (fun value => some value.reread) (fun value =>
    { type := _, source := _, target := _, sourceSlot := _, targetSlot := _, isLoop := _, data := _,
      extra := value }) rfl
    (fun written isWritten => yields_once (yields_readCarried (regular.extra written isWritten).1
      (regular.extra written isWritten).2) _) ?_
  exact Yields.ok _

theorem yields_read {edge : EdgeEntry} (regular : edge.Regular) :
    Yields (read edge.tree.source) edge.Readable edge.reread := by
  rw [tree_eq]
  refine .of_iff ((yields_readObject (yields_readMembers regular)).bind_ok ?_) Iff.rfl
  have mark : edge.loopMark.getD false = edge.isLoop := by
    rw [loopMark]
    cases edge.isLoop <;> rfl
  simp [EdgeDraft.edge, required, ok_bind, reread, join_map_some, mark]

end EdgeEntry

/-! ### Documents -/

/-- The members of a document that the format knows. -/
def documentMembers : List String := ["type", "nodes", "edges"]

namespace Document

/-- What it takes to read the document again. -/
structure Readable (document : Document) : Prop where
  nodes : ∀ node ∈ document.nodes, node.Readable
  edges : ∀ edge ∈ document.edges, edge.Readable
  shallow : Json.memberLevels document.metadata ≤ depthLimit - 1
  numbers : ∀ number ∈ Json.memberNumbers document.metadata, number.reread?.isSome

/-- The document with every number as it is read. -/
def reread (document : Document) : Document :=
  { document with
    nodes := document.nodes.map NodeEntry.reread
    edges := document.edges.map EdgeEntry.reread
    metadata := Json.rereadMembers document.metadata }

/-- No open member has a key of the format, and no carried value is null. -/
structure Regular (document : Document) : Prop where
  nodes : ∀ node ∈ document.nodes, node.Regular
  edges : ∀ edge ∈ document.edges, edge.Regular
  metadata : document.metadata.Open documentMembers

theorem readable_iff {document : Document} :
    document.Readable ↔
      (∀ text ∈ some document.kind, True) ∧
      (∀ nodes ∈ some document.nodes, ∀ node ∈ nodes, node.Readable) ∧
      (∀ edges ∈ some document.edges, ∀ edge ∈ edges, edge.Readable) ∧
      Json.memberLevels document.metadata ≤ depthLimit - 1 ∧
      ∀ number ∈ Json.memberNumbers document.metadata, number.reread?.isSome := by
  refine ⟨fun readable => ⟨fun _ _ => trivial, ?_, ?_, readable.shallow, readable.numbers⟩, ?_⟩
  · rintro _ ⟨⟩
    exact readable.nodes
  · rintro _ ⟨⟩
    exact readable.edges
  · rintro ⟨-, nodes, edges, shallow, numbers⟩
    exact ⟨nodes _ rfl, edges _ rfl, shallow, numbers⟩

theorem yields_readMembers {document : Document} (regular : document.Regular) :
    Yields (readMembers DocumentDraft.read {} (Tree.memberSources
        (optionalMember "type" Tree.string (some document.kind) ++
        (optionalMember "nodes" (fun nodes => .array (nodes.map NodeEntry.tree))
          (some document.nodes) ++
        (optionalMember "edges" (fun edges => .array (edges.map EdgeEntry.tree))
          (some document.edges) ++
        document.metadata.memberTrees)))))
      document.Readable
      { kind := some document.kind
        nodes := some (document.nodes.map NodeEntry.reread)
        edges := some (document.edges.map EdgeEntry.reread)
        metadata := Json.rereadMembers document.metadata } := by
  refine .of_iff ?_ readable_iff
  refine yields_optionalMember id (fun value => { kind := value }) rfl
    (fun written _ => yields_once (yields_readText written) _) ?_
  refine yields_optionalMember (List.map NodeEntry.reread)
    (fun value => { kind := _, nodes := value }) rfl ?_ ?_
  · rintro _ ⟨⟩
    exact yields_once ((yields_readItems fun node member =>
      NodeEntry.yields_read (regular.nodes node member)).bind_ok rfl) _
  refine yields_optionalMember (List.map EdgeEntry.reread)
    (fun value => { kind := _, nodes := _, edges := value }) rfl ?_ ?_
  · rintro _ ⟨⟩
    exact yields_once ((yields_readItems fun edge member =>
      EdgeEntry.yields_read (regular.edges edge member)).bind_ok rfl) _
  refine yields_openMembers (fun (draft : DocumentDraft) entries =>
    { draft with metadata := draft.metadata ++ entries }) (fun draft => by simp)
    (fun draft entry rest => by simp) (fun draft key source isUnknown => ?_)
    regular.metadata.unknown regular.metadata.ordered _
  rw [DocumentDraft.read.eq_def]
  split <;> first | rfl | exact absurd (by decide) isUnknown

theorem yields_ofSource {document : Document} (regular : document.Regular) :
    Yields (ofSource document.tree.source) document.Readable document.reread := by
  refine .of_iff ((yields_readObject (yields_readMembers regular)).bind_ok ?_) Iff.rfl
  simp [reread, regular.metadata.ofList_reread]

end Document

end Workflow
