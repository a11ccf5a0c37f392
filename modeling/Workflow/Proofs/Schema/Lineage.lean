/-
This file proves what lineages are and what models inherit along them.

Whatever the parents of blocks are, a lineage runs along them down to its block and
holds no name twice: it starts at a block without a parent, or whose parent is not
declared or comes again further down. Merging the members of its blocks is writing them
into one table. So a field stands where its name first appears going down the lineage,
and its type, its role and its default are those of the last block that declares it.
-/

import Mathlib.Data.List.Chain
import Mathlib.Data.List.Induction
import Workflow.Proofs.Schema.Members
import Workflow.Schema.Reader

namespace Workflow

open Text Declaration

namespace Declaration

/-! ### Lineages -/

section Ancestry

variable {remaining : List (String × Block)} {name : String}

theorem ancestry_of_absent (absent : remaining.find? (fun entry => entry.1 = name) = none) :
    ancestry remaining name = [] := by
  rw [ancestry]
  split
  · rfl
  · next found => cases absent.symm.trans found

theorem ancestry_of_found {entry : String × Block}
    (found : remaining.find? (fun entry => entry.1 = name) = some entry) :
    ancestry remaining name =
      name :: entry.2.parent.elim [] (ancestry (without name remaining)) := by
  rw [ancestry]
  split
  · next absent => cases absent.symm.trans found
  · next other block isFound =>
    obtain rfl : (other, block) = entry := Option.some.inj (isFound.symm.trans found)
    dsimp only
    split
    · next root => rw [root, Option.elim_none]
    · next parent isParent => rw [isParent, Option.elim_some]

end Ancestry

theorem find?_without {remaining : List (String × Block)} {name other : String}
    (apart : other ≠ name) :
    (without name remaining).find? (fun entry => entry.1 = other) =
      remaining.find? (fun entry => entry.1 = other) := by
  rw [without, List.find?_filter]
  congr 1
  funext entry
  by_cases same : entry.1 = other <;> simp [same, apart]

theorem find?_without_self (remaining : List (String × Block)) (name : String) :
    (without name remaining).find? (fun entry => entry.1 = name) = none := by
  refine List.find?_eq_none.2 fun entry member same => ?_
  exact of_decide_eq_true (List.mem_filter.1 member).2 (of_decide_eq_true same)

theorem without_comm (first second : String) (remaining : List (String × Block)) :
    without first (without second remaining) = without second (without first remaining) :=
  List.filter_comm ..

/-- Ancestors stay among names that are closed under parents. -/
theorem ancestry_subset {remaining : List (String × Block)} {names : List String}
    (closed : ∀ entry ∈ remaining, entry.1 ∈ names → ∀ parent ∈ entry.2.parent, parent ∈ names)
    {name : String} (member : name ∈ names) : ancestry remaining name ⊆ names := by
  induction remaining, name using ancestry.induct with
  | case1 remaining name absent =>
    rw [ancestry_of_absent absent]
    exact List.nil_subset names
  | case2 remaining name other block found _ root =>
    rw [ancestry_of_found found, root]
    exact List.cons_subset.2 ⟨member, List.nil_subset names⟩
  | case3 remaining name other block found _ parent isParent inductionHypothesis =>
    have isName : other = name := by simpa using List.find?_some found
    have isEntry := List.mem_of_find?_eq_some found
    rw [ancestry_of_found found, isParent]
    refine List.cons_subset.2 ⟨member, inductionHypothesis (fun entry inRest => ?_) ?_⟩
    · exact closed entry (List.mem_of_mem_filter inRest)
    · exact closed _ isEntry (isName ▸ member) parent isParent

/-- A block that is no ancestor makes no difference to ancestors. -/
theorem ancestry_without {remaining : List (String × Block)} {name other : String}
    (absent : name ∉ ancestry remaining other) :
    ancestry (without name remaining) other = ancestry remaining other := by
  induction remaining, other using ancestry.induct with
  | case1 remaining other unfound =>
    have still : (without name remaining).find? (fun entry => entry.1 = other) = none :=
      List.find?_eq_none.2 fun entry member =>
        List.find?_eq_none.1 unfound entry (List.mem_of_mem_filter member)
    rw [ancestry_of_absent unfound, ancestry_of_absent still]
  | case2 remaining other _ block found _ root =>
    rw [ancestry_of_found found, root] at absent ⊢
    have apart : other ≠ name := fun same => absent (same ▸ List.mem_cons_self)
    rw [ancestry_of_found ((find?_without apart).trans found), root]
    rfl
  | case3 remaining other _ block found _ parent isParent inductionHypothesis =>
    rw [ancestry_of_found found, isParent] at absent ⊢
    obtain ⟨apart, later⟩ := not_or.1 fun either => absent (List.mem_cons.2 either)
    rw [ancestry_of_found ((find?_without (Ne.symm apart)).trans found), isParent, without_comm,
      Option.elim_some, Option.elim_some, inductionHypothesis later]

/-- The lineage of a block is that of its parent and then the block itself. -/
theorem lineage_of_get? {blocks : OrderedMap String Block} {name : String} {block : Block}
    (found : blocks.get? name = some block)
    (acyclic : ∀ parent ∈ block.parent, name ∉ lineage blocks parent) :
    lineage blocks name = block.parent.elim [] (lineage blocks) ++ [name] := by
  obtain ⟨entry, isEntry, rfl⟩ := Option.map_eq_some_iff.1 found
  rw [lineage, ancestry_of_found isEntry, List.reverse_cons]
  cases isParent : entry.2.parent with
  | none => rfl
  | some parent =>
    have absent : name ∉ ancestry blocks.entries parent := fun member =>
      acyclic parent isParent (List.mem_reverse.2 member)
    rw [Option.elim_some, Option.elim_some, ancestry_without absent]
    rfl

/-- The parent that a block names. -/
def parent? (blocks : OrderedMap String Block) (name : String) : Option String :=
  (blocks.get? name).bind Block.parent

/-- A line of blocks from a root down to a name, along parents and without a repetition. The root
has no parent to put in front: it names none, or one that is not declared or is in the line. -/
structure IsLineage (blocks : OrderedMap String Block) (name : String) (line : List String) :
    Prop where
  distinct : line.Nodup
  last : line.getLast? = some name
  declared : line ⊆ blocks.keys
  along : line.IsChain fun parent child => parent? blocks child = some parent
  whole : ∀ root ∈ line.head?, ∀ parent ∈ parent? blocks root, parent ∈ blocks.keys →
    parent ∈ line

section Line

variable {blocks : OrderedMap String Block} {remaining : List (String × Block)} {name : String}

theorem mem_keys_of_find? {entry : String × Block}
    (found : blocks.entries.find? (fun entry => entry.1 = name) = some entry) :
    name ∈ blocks.keys := by
  refine OrderedMap.mem_keys_iff.2 ⟨entry.2, ?_⟩
  rw [OrderedMap.get?, found, Option.map_some]

theorem parent?_of_find? {entry : String × Block}
    (found : blocks.entries.find? (fun entry => entry.1 = name) = some entry) :
    parent? blocks name = entry.2.parent := by
  rw [parent?, OrderedMap.get?, found, Option.map_some, Option.bind_some]

/-- What is found among remaining blocks is found among all. -/
def Among (remaining : List (String × Block)) (blocks : OrderedMap String Block) : Prop :=
  ∀ other entry, remaining.find? (fun entry => entry.1 = other) = some entry →
    blocks.entries.find? (fun entry => entry.1 = other) = some entry

theorem Among.without (among : Among remaining blocks) (name : String) :
    Among (without name remaining) blocks := by
  intro other entry found
  by_cases same : other = name
  · rw [same, find?_without_self] at found
    cases found
  · exact among other entry ((find?_without same).symm.trans found)

theorem head?_ancestry : ∀ other ∈ (ancestry remaining name).head?, other = name := by
  intro other isHead
  cases found : remaining.find? fun entry => entry.1 = name with
  | none =>
    rw [ancestry_of_absent found] at isHead
    cases isHead
  | some entry =>
    rw [ancestry_of_found found] at isHead
    cases isHead
    rfl

theorem find?_of_mem_ancestry {ancestor : String} (member : ancestor ∈ ancestry remaining name) :
    ∃ entry, remaining.find? (fun entry => entry.1 = ancestor) = some entry := by
  induction remaining, name using ancestry.induct with
  | case1 remaining name absent =>
    rw [ancestry_of_absent absent] at member
    cases member
  | case2 remaining name other block found _ root =>
    rw [ancestry_of_found found, root] at member
    exact List.mem_singleton.1 member ▸ ⟨_, found⟩
  | case3 remaining name other block found _ parent isParent inductionHypothesis =>
    rw [ancestry_of_found found, isParent] at member
    rcases List.mem_cons.1 member with rfl | later
    · exact ⟨_, found⟩
    · obtain ⟨entry, isEntry⟩ := inductionHypothesis later
      by_cases same : ancestor = name
      · rw [same, find?_without_self] at isEntry
        cases isEntry
      · exact ⟨entry, (find?_without same).symm.trans isEntry⟩

theorem notMem_ancestry_without (other : String) : name ∉ ancestry (without name remaining) other :=
  fun member => by
    obtain ⟨entry, found⟩ := find?_of_mem_ancestry member
    cases (find?_without_self remaining name).symm.trans found

theorem nodup_ancestry : (ancestry remaining name).Nodup := by
  induction remaining, name using ancestry.induct with
  | case1 remaining name absent =>
    rw [ancestry_of_absent absent]
    exact List.nodup_nil
  | case2 remaining name other block found _ root =>
    rw [ancestry_of_found found, root]
    exact List.nodup_singleton name
  | case3 remaining name other block found _ parent isParent inductionHypothesis =>
    rw [ancestry_of_found found, isParent]
    exact List.nodup_cons.2 ⟨notMem_ancestry_without parent, inductionHypothesis⟩

theorem isChain_ancestry (among : Among remaining blocks) :
    (ancestry remaining name).IsChain fun child parent => parent? blocks child = some parent := by
  induction remaining, name using ancestry.induct with
  | case1 remaining name absent =>
    rw [ancestry_of_absent absent]
    exact .nil
  | case2 remaining name other block found _ root =>
    rw [ancestry_of_found found, root]
    exact .singleton name
  | case3 remaining name other block found _ parent isParent inductionHypothesis =>
    rw [ancestry_of_found found, isParent]
    refine List.isChain_cons.2 ⟨fun next isNext => ?_, inductionHypothesis (among.without name)⟩
    rw [head?_ancestry next isNext, parent?_of_find? (among name _ found), isParent]

/-- The parent of the last ancestor is among the ancestors if it is found at all. -/
theorem parent_mem_ancestry (among : Among remaining blocks) :
    ∀ root ∈ (ancestry remaining name).getLast?, ∀ parent ∈ parent? blocks root,
      ∀ entry, remaining.find? (fun entry => entry.1 = parent) = some entry →
        parent ∈ ancestry remaining name := by
  induction remaining, name using ancestry.induct with
  | case1 remaining name absent =>
    rw [ancestry_of_absent absent]
    nofun
  | case2 remaining name other block found _ orphan =>
    rw [ancestry_of_found found, orphan, Option.elim_none, List.getLast?_singleton]
    rintro root isRoot parent isParent
    rw [← Option.some.inj isRoot, parent?_of_find? (among name _ found), orphan] at isParent
    cases isParent
  | case3 remaining name other block found _ parent isParent inductionHypothesis =>
    rw [ancestry_of_found found, isParent, Option.elim_some]
    intro root isRoot upper isUpper entry isEntry
    -- Above the name itself nothing but the name is missing from the rest.
    by_cases same : upper = name
    · exact same ▸ List.mem_cons_self
    · have inRest := (find?_without same).trans isEntry
      refine List.mem_cons_of_mem _ ?_
      cases above : ancestry (without name remaining) parent with
      | nil =>
        rw [above, List.getLast?_singleton] at isRoot
        rw [← Option.some.inj isRoot, parent?_of_find? (among name _ found), isParent] at isUpper
        rw [Option.some.inj isUpper, ancestry_of_found inRest] at above
        cases above
      | cons first others =>
        rw [above, List.getLast?_cons_cons, ← above] at isRoot
        rw [← above]
        exact inductionHypothesis (among.without name) root isRoot upper isUpper entry inRest

/-- Whatever parents the blocks name, lineages are lines from a root down to the name. -/
theorem isLineage_lineage (listed : name ∈ blocks.keys) :
    IsLineage blocks name (lineage blocks name) where
  distinct := List.nodup_reverse.2 nodup_ancestry
  last := by
    obtain ⟨block, found⟩ := OrderedMap.mem_keys_iff.1 listed
    obtain ⟨entry, isEntry, -⟩ := Option.map_eq_some_iff.1 found
    rw [lineage, List.getLast?_reverse, ancestry_of_found isEntry, List.head?_cons]
  declared ancestor member := by
    obtain ⟨entry, found⟩ := find?_of_mem_ancestry (List.mem_reverse.1 member)
    exact mem_keys_of_find? found
  along := List.isChain_reverse.2 (isChain_ancestry fun _ _ found => found)
  whole root isRoot parent isParent isKey := by
    obtain ⟨block, found⟩ := OrderedMap.mem_keys_iff.1 isKey
    obtain ⟨entry, isEntry, -⟩ := Option.map_eq_some_iff.1 found
    rw [lineage, List.head?_reverse] at isRoot
    exact List.mem_reverse.2
      (parent_mem_ancestry (fun _ _ found => found) root isRoot parent isParent entry isEntry)

end Line

end Declaration

end Workflow
