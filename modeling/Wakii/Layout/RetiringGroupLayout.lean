import Mathlib.Data.List.Sort
import Wakii.Layout.LayoutModel

/-!
# A group tree that loses groups

Every node of the tree is an occurrence by its place in it.  Removing a group
relinks the occurrences around its leaves; the tree is read off them at last.
-/

namespace Wakii.LayoutLoad

open List SplitTrees Wakii.LayoutModel

variable {P : Type}

structure GroupOccurrence (P : Type) where
  node : TabGroupLayoutNode P
  parent : Option ℕ
  start : ℕ
  finish : ℕ
  alive : Bool := true
  first : Option ℕ := none
  second : Option ℕ := none

structure RetiringGroupLayout (P : Type) where
  root : Option ℕ := none
  occurrences : ℕ → Option (GroupOccurrence P) := fun _ => none
  ordinal : ℕ := 0
  leaves : String → List ℕ := fun _ => []

namespace RetiringGroupLayout

/-! ## Indexing a tree -/

def put (layout : RetiringGroupLayout P) (entry : GroupOccurrence P) : RetiringGroupLayout P :=
  { layout with occurrences := Function.update layout.occurrences entry.start (some entry) }

def index : TabGroupLayoutNode P → Option ℕ → RetiringGroupLayout P → RetiringGroupLayout P
  | .leaf groupId, parent, layout =>
    let start := layout.ordinal
    { layout with
      ordinal := start + 1
      leaves := Function.update layout.leaves groupId (layout.leaves groupId ++ [start]) }.put
        { node := .leaf groupId, parent, start, finish := start + 1 }
  | .split data first second, parent, layout =>
    let start := layout.ordinal
    let firstDone := index first (some start) { layout with ordinal := start + 1 }
    let secondDone := index second (some start) firstDone
    secondDone.put
      { node := .split data first second
        parent
        start
        finish := secondDone.ordinal
        first := some (start + 1)
        second := some firstDone.ordinal }

def new (root : TabGroupLayoutNode P) : RetiringGroupLayout P :=
  { index root none {} with root := some 0 }

/-! ## Removing a group -/

def modify (layout : RetiringGroupLayout P) (ordinal : ℕ)
    (change : GroupOccurrence P → GroupOccurrence P) : RetiringGroupLayout P :=
  { layout with
    occurrences := Function.update layout.occurrences ordinal
      ((layout.occurrences ordinal).map change) }

def dies (entry : GroupOccurrence P) : GroupOccurrence P := { entry with alive := false }

/-- The parents of a group's live leaves, each once; a leaf that is the tree itself. -/
def candidates (layout : RetiringGroupLayout P) (groupId : String) : List ℕ :=
  ((layout.leaves groupId).filterMap fun leaf =>
    ((layout.occurrences leaf).filter (·.alive)).map fun entry => entry.parent.getD leaf).dedup

def startOf (layout : RetiringGroupLayout P) (ordinal : ℕ) : ℕ :=
  ((layout.occurrences ordinal).map (·.start)).getD 0

def finishOf (layout : RetiringGroupLayout P) (ordinal : ℕ) : ℕ :=
  ((layout.occurrences ordinal).map (·.finish)).getD 0

def order (layout : RetiringGroupLayout P) (entries : List ℕ) : List ℕ :=
  entries.insertionSort fun left right => layout.startOf left ≤ layout.startOf right

def frontierStep (layout : RetiringGroupLayout P) (state : List ℕ × ℕ) (candidate : ℕ) :
    List ℕ × ℕ :=
  if layout.startOf candidate ≥ state.2 then
    (state.1 ++ [candidate], layout.finishOf candidate)
  else state

def frontier (layout : RetiringGroupLayout P) (ordered : List ℕ) : List ℕ :=
  (ordered.foldl layout.frontierStep ([], 0)).1

def isLeafAt (layout : RetiringGroupLayout P) (ordinal : ℕ) (groupId : String) : Bool :=
  (layout.occurrences ordinal).any (·.node.isLeaf groupId)

def relink (layout : RetiringGroupLayout P) (parent : Option ℕ) (candidate sibling : ℕ) :
    RetiringGroupLayout P :=
  match parent with
  | none => { layout with root := some sibling }
  | some parent =>
    layout.modify parent fun entry =>
      if entry.first = some candidate then { entry with first := some sibling }
      else { entry with second := some sibling }

def collapse (groupId : String) (layout : RetiringGroupLayout P) (candidate : ℕ) :
    RetiringGroupLayout P :=
  match layout.occurrences candidate with
  | none => layout
  | some entry =>
    match entry.first, entry.second with
    | some first, some second =>
      let removeFirst := layout.isLeafAt first groupId
      let removed := if removeFirst then first else second
      let sibling := if removeFirst then second else first
      (((layout.modify removed dies).modify candidate dies).modify sibling
        fun other => { other with parent := entry.parent }).relink entry.parent candidate sibling
    | _, _ => { layout.modify candidate dies with root := none }

def remove (layout : RetiringGroupLayout P) (groupId : String) : RetiringGroupLayout P :=
  (layout.frontier (layout.order (layout.candidates groupId))).foldl (collapse groupId) layout

/-! ## The tree that is left -/

/-- The tree below an occurrence; `fuel` bounds its height. -/
def build (layout : RetiringGroupLayout P) : ℕ → ℕ → Option (TabGroupLayoutNode P)
  | 0, _ => none
  | fuel + 1, ordinal => do
    let entry ← layout.occurrences ordinal
    match entry.node with
    | .leaf groupId => return .leaf groupId
    | .split data _ _ =>
      let first ← build layout fuel (← entry.first)
      let second ← build layout fuel (← entry.second)
      return .split data first second

/-- No branch is higher than there are occurrences. -/
def materialize (layout : RetiringGroupLayout P) : Option (TabGroupLayoutNode P) :=
  layout.root.bind (layout.build layout.ordinal)

end RetiringGroupLayout

/-! ## Occurrences as a tree -/

/-- The live occurrences, each with the ordinals it spans. -/
inductive Occurrences (P : Type) where
  | leaf (start finish : ℕ) (groupId : String)
  | split (start finish : ℕ) (data : GroupSplit P) (first second : Occurrences P)

namespace Occurrences

def start : Occurrences P → ℕ
  | leaf start _ _ => start
  | split start _ _ _ _ => start

def tree : Occurrences P → TabGroupLayoutNode P
  | leaf _ _ groupId => .leaf groupId
  | split _ _ data first second => .split data first.tree second.tree

def starts : Occurrences P → List ℕ
  | leaf start _ _ => [start]
  | split start _ _ first second => start :: (first.starts ++ second.starts)

def leafStarts : Occurrences P → List (ℕ × String)
  | leaf start _ groupId => [(start, groupId)]
  | split _ _ _ first second => first.leafStarts ++ second.leafStarts

def isLeaf (groupId : String) : Occurrences P → Bool
  | leaf _ _ other => other = groupId
  | split _ _ _ _ _ => false

/-- Each branch spans its own ordinals, the first before the second. -/
def Laid : ℕ → ℕ → Occurrences P → Prop
  | low, high, leaf start finish _ => low ≤ start ∧ start < finish ∧ finish ≤ high
  | low, high, split start finish _ first second =>
    low ≤ start ∧ finish ≤ high ∧ ∃ middle, Laid (start + 1) middle first ∧
      Laid middle finish second

def removeGroup (groupId : String) : Occurrences P → Option (Occurrences P)
  | leaf start finish other => if other = groupId then none else some (leaf start finish other)
  | split start finish data first second =>
    if first.isLeaf groupId then some second
    else if second.isLeaf groupId then some first
    else
      (first.removeGroup groupId).bind fun first =>
        (second.removeGroup groupId).map fun second => split start finish data first second

theorem isLeaf_tree (groupId : String) (occurrences : Occurrences P) :
    occurrences.tree.isLeaf groupId = occurrences.isLeaf groupId := by
  cases occurrences <;> rfl

theorem removeGroup_isSome {groupId : String} {occurrences : Occurrences P}
    (hleaf : occurrences.isLeaf groupId = false) :
    ∃ rest, occurrences.removeGroup groupId = some rest := by
  induction occurrences with
  | leaf start finish other =>
    exact ⟨leaf start finish other, if_neg (by simpa [isLeaf] using hleaf)⟩
  | split start finish data first second ihFirst ihSecond =>
    rw [removeGroup]
    split_ifs with hfirst hsecond
    · exact ⟨second, rfl⟩
    · exact ⟨first, rfl⟩
    · obtain ⟨firstRest, hfirstRest⟩ := ihFirst (Bool.eq_false_iff.mpr hfirst)
      obtain ⟨secondRest, hsecondRest⟩ := ihSecond (Bool.eq_false_iff.mpr hsecond)
      exact ⟨_, by rw [hfirstRest, hsecondRest]; rfl⟩

theorem tree_removeGroup (groupId : String) (occurrences : Occurrences P) :
    (occurrences.removeGroup groupId).map tree = occurrences.tree.removeLeaf groupId := by
  induction occurrences with
  | leaf start finish other =>
    rw [removeGroup, tree, SplitTree.removeLeaf]
    split <;> rfl
  | split start finish data first second ihFirst ihSecond =>
    rw [removeGroup, tree, SplitTree.removeLeaf, isLeaf_tree, isLeaf_tree]
    split_ifs with hfirst hsecond
    · rfl
    · rfl
    · obtain ⟨firstRest, hfirstRest⟩ := removeGroup_isSome (Bool.eq_false_iff.mpr hfirst)
      obtain ⟨secondRest, hsecondRest⟩ := removeGroup_isSome (Bool.eq_false_iff.mpr hsecond)
      rw [← ihFirst, ← ihSecond, hfirstRest, hsecondRest]
      rfl

/-! ## Spans -/

variable {occurrences : Occurrences P} {low high : ℕ}

theorem start_mem (occurrences : Occurrences P) : occurrences.start ∈ occurrences.starts := by
  cases occurrences
  · exact mem_singleton_self _
  · exact mem_cons_self

theorem Laid.bounds (hlaid : occurrences.Laid low high) :
    ∀ ordinal ∈ occurrences.starts, low ≤ ordinal ∧ ordinal < high := by
  induction occurrences generalizing low high with
  | leaf start finish groupId =>
    intro ordinal hmem
    rw [mem_singleton.mp hmem]
    exact ⟨hlaid.1, hlaid.2.1.trans_le hlaid.2.2⟩
  | split start finish data first second ihFirst ihSecond =>
    obtain ⟨hlow, hhigh, middle, hfirst, hsecond⟩ := hlaid
    have hfirstStart := ihFirst hfirst _ first.start_mem
    have hsecondStart := ihSecond hsecond _ second.start_mem
    intro ordinal hmem
    rcases mem_cons.mp hmem with rfl | hmem
    · omega
    · rcases mem_append.mp hmem with hmem | hmem
      · have := ihFirst hfirst ordinal hmem
        omega
      · have := ihSecond hsecond ordinal hmem
        omega

theorem Laid.widen {wideLow wideHigh : ℕ} (hlaid : occurrences.Laid low high)
    (hlow : wideLow ≤ low) (hhigh : high ≤ wideHigh) : occurrences.Laid wideLow wideHigh := by
  cases occurrences with
  | leaf start finish groupId => exact ⟨hlow.trans hlaid.1, hlaid.2.1, hlaid.2.2.trans hhigh⟩
  | split start finish data first second =>
    exact ⟨hlow.trans hlaid.1, hlaid.2.1.trans hhigh, hlaid.2.2⟩

theorem mem_starts_of_leafStarts {ordinal : ℕ} {groupId : String}
    (hmem : (ordinal, groupId) ∈ occurrences.leafStarts) : ordinal ∈ occurrences.starts := by
  induction occurrences with
  | leaf start finish other =>
    rw [leafStarts, mem_singleton] at hmem
    cases hmem
    exact mem_singleton_self _
  | split start finish data first second ihFirst ihSecond =>
    rcases mem_append.mp hmem with hmem | hmem
    · exact mem_cons_of_mem _ (mem_append_left _ (ihFirst hmem))
    · exact mem_cons_of_mem _ (mem_append_right _ (ihSecond hmem))

end Occurrences

end Wakii.LayoutLoad
