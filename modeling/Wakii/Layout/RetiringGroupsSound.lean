import Wakii.Layout.RetiringGroupLayout

/-!
# What relinking leaves of a group tree

Removing groups from the occurrences leaves the tree that removing them from the
tree itself leaves, also where leaves repeat.
-/

namespace Wakii.LayoutLoad

open Function List

variable {P : Type} {layout next : RetiringGroupLayout P} {occurrences rest : Occurrences P}
  {groupId : String} {low high : ℕ}

namespace RetiringGroupLayout

/-! ## Occurrences that stand for a tree -/

/-- The occurrences of a branch below a parent are as they should be. -/
def Stands (layout : RetiringGroupLayout P) : Option ℕ → Occurrences P → Prop
  | parent, .leaf start finish groupId =>
    layout.occurrences start = some { node := .leaf groupId, parent, start, finish }
  | parent, .split start finish data first second =>
    (∃ firstNode secondNode, layout.occurrences start = some
      { node := .split data firstNode secondNode
        parent
        start
        finish
        first := some first.start
        second := some second.start }) ∧
    Stands layout (some start) first ∧ Stands layout (some start) second

theorem Stands.congr {parent : Option ℕ} (hstands : Stands layout parent occurrences)
    (hsame : ∀ ordinal ∈ occurrences.starts,
      next.occurrences ordinal = layout.occurrences ordinal) :
    Stands next parent occurrences := by
  induction occurrences generalizing parent with
  | leaf start finish other =>
    exact (hsame start (mem_singleton_self start)).trans hstands
  | split start finish data first second ihFirst ihSecond =>
    obtain ⟨⟨firstNode, secondNode, hentry⟩, hfirst, hsecond⟩ := hstands
    refine ⟨⟨firstNode, secondNode, (hsame start mem_cons_self).trans hentry⟩, ?_, ?_⟩
    · exact ihFirst hfirst fun ordinal hmem =>
        hsame ordinal (mem_cons_of_mem _ (mem_append_left _ hmem))
    · exact ihSecond hsecond fun ordinal hmem =>
        hsame ordinal (mem_cons_of_mem _ (mem_append_right _ hmem))

theorem Stands.entry {parent : Option ℕ} (hstands : Stands layout parent occurrences) :
    ∃ entry, layout.occurrences occurrences.start = some entry ∧ entry.parent = parent ∧
      entry.start = occurrences.start ∧
      ∀ groupId, entry.node.isLeaf groupId = occurrences.isLeaf groupId := by
  cases occurrences with
  | leaf start finish other => exact ⟨_, hstands, rfl, rfl, fun _ => rfl⟩
  | split start finish data first second =>
    obtain ⟨⟨firstNode, secondNode, hentry⟩, -, -⟩ := hstands
    exact ⟨_, hentry, rfl, rfl, fun _ => rfl⟩

theorem Stands.isLeafAt {parent : Option ℕ} (hstands : Stands layout parent occurrences) :
    layout.isLeafAt occurrences.start groupId = occurrences.isLeaf groupId := by
  obtain ⟨entry, hentry, -, -, hnode⟩ := hstands.entry
  rw [RetiringGroupLayout.isLeafAt, hentry, Option.any_some, hnode]

theorem Stands.reparent {parent newParent : Option ℕ} (hlaid : occurrences.Laid low high)
    (hstands : Stands layout parent occurrences)
    (hroot : next.occurrences occurrences.start = (layout.occurrences occurrences.start).map
      fun entry => { entry with parent := newParent })
    (hsame : ∀ ordinal ∈ occurrences.starts, ordinal ≠ occurrences.start →
      next.occurrences ordinal = layout.occurrences ordinal) :
    Stands next newParent occurrences := by
  cases occurrences with
  | leaf start finish other =>
    rw [Occurrences.start, show layout.occurrences start = _ from hstands] at hroot
    exact hroot
  | split start finish data first second =>
    obtain ⟨⟨firstNode, secondNode, hentry⟩, hfirst, hsecond⟩ := hstands
    obtain ⟨-, -, middle, hfirstLaid, hsecondLaid⟩ := hlaid
    have hmiddle := hfirstLaid.bounds _ first.start_mem
    rw [Occurrences.start, hentry] at hroot
    refine ⟨⟨firstNode, secondNode, hroot⟩, ?_, ?_⟩
    · refine hfirst.congr fun ordinal hmem => ?_
      have hbounds := hfirstLaid.bounds ordinal hmem
      exact hsame ordinal (mem_cons_of_mem _ (mem_append_left _ hmem))
        (by rw [Occurrences.start]; omega)
    · refine hsecond.congr fun ordinal hmem => ?_
      have hbounds := hsecondLaid.bounds ordinal hmem
      exact hsame ordinal (mem_cons_of_mem _ (mem_append_right _ hmem))
        (by rw [Occurrences.start]; omega)

/-! ## Places an occurrence is linked from -/

inductive Slot where
  | root
  | first (parent : ℕ)
  | second (parent : ℕ)
deriving DecidableEq

namespace Slot

def parent : Slot → Option ℕ
  | root => none
  | first parent => some parent
  | second parent => some parent

def write (sibling : ℕ) : Slot → GroupOccurrence P → GroupOccurrence P
  | root, entry => entry
  | first _, entry => { entry with first := some sibling }
  | second _, entry => { entry with second := some sibling }

def Points (layout : RetiringGroupLayout P) : Slot → ℕ → Prop
  | root, ordinal => layout.root = some ordinal
  | first parent, ordinal =>
    ∃ entry, layout.occurrences parent = some entry ∧ entry.first = some ordinal
  | second parent, ordinal =>
    ∃ entry, layout.occurrences parent = some entry ∧ entry.second = some ordinal

/-- A second place's split links none of the ordinals from its first place. -/
def Apart (layout : RetiringGroupLayout P) (ordinals : List ℕ) : Slot → Prop
  | second parent => ∀ entry, layout.occurrences parent = some entry →
      ∀ ordinal ∈ ordinals, entry.first ≠ some ordinal
  | _ => True

variable {slot : Slot} {ordinal sibling : ℕ}

theorem Points.congr (hpoints : slot.Points layout ordinal) (hroot : next.root = layout.root)
    (hsame : ∀ parent, slot.parent = some parent →
      next.occurrences parent = layout.occurrences parent) : slot.Points next ordinal := by
  cases slot with
  | root => exact hroot.trans hpoints
  | first parent =>
    obtain ⟨entry, hentry, hfirst⟩ := hpoints
    exact ⟨entry, (hsame parent rfl).trans hentry, hfirst⟩
  | second parent =>
    obtain ⟨entry, hentry, hsecond⟩ := hpoints
    exact ⟨entry, (hsame parent rfl).trans hentry, hsecond⟩

theorem Points.write (hpoints : slot.Points layout ordinal) {parent : ℕ}
    (hparent : slot.parent = some parent) :
    (layout.occurrences parent).map (slot.write ordinal) = layout.occurrences parent := by
  cases slot with
  | root => cases hparent
  | first other =>
    cases hparent
    obtain ⟨entry, hentry, hfirst⟩ := hpoints
    obtain ⟨node, parent', start, finish, alive, first, second⟩ := entry
    cases hfirst
    rw [hentry]
    rfl
  | second other =>
    cases hparent
    obtain ⟨entry, hentry, hsecond⟩ := hpoints
    obtain ⟨node, parent', start, finish, alive, first, second⟩ := entry
    cases hsecond
    rw [hentry]
    rfl

theorem Points.of_write (hpoints : slot.Points layout ordinal) (hroot : slot = root →
    next.root = some sibling) (hparent : ∀ parent, slot.parent = some parent →
      next.occurrences parent = (layout.occurrences parent).map (slot.write sibling)) :
    slot.Points next sibling := by
  cases slot with
  | root => exact hroot rfl
  | first parent =>
    obtain ⟨entry, hentry, -⟩ := hpoints
    refine ⟨{ entry with first := some sibling }, ?_, rfl⟩
    rw [hparent parent rfl, hentry]
    rfl
  | second parent =>
    obtain ⟨entry, hentry, -⟩ := hpoints
    refine ⟨{ entry with second := some sibling }, ?_, rfl⟩
    rw [hparent parent rfl, hentry]
    rfl

structure Linked (slot : Slot) (sibling : ℕ) (before after : RetiringGroupLayout P) : Prop where
  other : ∀ ordinal, slot.parent ≠ some ordinal →
    after.occurrences ordinal = before.occurrences ordinal
  parent : ∀ parent, slot.parent = some parent →
    after.occurrences parent = (before.occurrences parent).map (slot.write sibling)
  kept : slot ≠ Slot.root → after.root = before.root
  top : slot = Slot.root → after.root = some sibling
  ordinal : after.ordinal = before.ordinal
  leaves : after.leaves = before.leaves

theorem Points.relink (hpoints : slot.Points layout ordinal)
    (hapart : slot.Apart layout [ordinal]) :
    slot.Linked sibling layout (layout.relink slot.parent ordinal sibling) := by
  cases slot with
  | root =>
    exact ⟨fun _ _ => rfl, fun _ h => (by cases h), fun h => absurd rfl h, fun _ => rfl, rfl, rfl⟩
  | first parent =>
    obtain ⟨entry, hentry, hfirst⟩ := hpoints
    refine ⟨fun other hother => ?_, fun other hother => ?_, fun _ => rfl, fun h => (by cases h),
      rfl, rfl⟩
    · exact update_of_ne (fun h => hother (congrArg some h.symm)) _ _
    · cases hother
      change Function.update _ _ _ _ = _
      rw [update_self, hentry, Option.map_some, Option.map_some, if_pos hfirst]
      rfl
  | second parent =>
    obtain ⟨entry, hentry, -⟩ := hpoints
    have hfirst := hapart entry hentry ordinal (mem_singleton_self ordinal)
    refine ⟨fun other hother => ?_, fun other hother => ?_, fun _ => rfl, fun h => (by cases h),
      rfl, rfl⟩
    · exact update_of_ne (fun h => hother (congrArg some h.symm)) _ _
    · cases hother
      change Function.update _ _ _ _ = _
      rw [update_self, hentry, Option.map_some, Option.map_some, if_neg hfirst]
      rfl

end Slot

/-! ## Collapsing a split -/

def aliveAt (layout : RetiringGroupLayout P) (ordinal : ℕ) : Bool :=
  (layout.occurrences ordinal).any (·.alive)

/-- What is left of a branch stands in its place; the leaves it lost are dead. -/
structure Collapsed (slot : Slot) (before after : RetiringGroupLayout P)
    (occurrences rest : Occurrences P) : Prop where
  stands : Stands after slot.parent rest
  points : slot.Points after rest.start
  other : ∀ ordinal, ordinal ∉ occurrences.starts → slot.parent ≠ some ordinal →
    after.occurrences ordinal = before.occurrences ordinal
  parent : ∀ parent, slot.parent = some parent →
    after.occurrences parent = (before.occurrences parent).map (slot.write rest.start)
  kept : slot ≠ .root → after.root = before.root
  ordinal : after.ordinal = before.ordinal
  leaves : after.leaves = before.leaves
  dead : ∀ leaf ∈ occurrences.leafStarts, leaf ∉ rest.leafStarts → after.aliveAt leaf.1 = false

theorem modify_ne (layout : RetiringGroupLayout P) {ordinal other : ℕ} (hother : other ≠ ordinal)
    (change : GroupOccurrence P → GroupOccurrence P) :
    (layout.modify ordinal change).occurrences other = layout.occurrences other :=
  update_of_ne hother _ _

theorem modify_self (layout : RetiringGroupLayout P) (ordinal : ℕ)
    (change : GroupOccurrence P → GroupOccurrence P) :
    (layout.modify ordinal change).occurrences ordinal = (layout.occurrences ordinal).map change :=
  update_self _ _ _

/-- The steps of a collapse: one side dies with the split, the other takes its place. -/
def collapseTo (layout : RetiringGroupLayout P) (parent : Option ℕ)
    (candidate removed sibling : ℕ) : RetiringGroupLayout P :=
  (((layout.modify removed dies).modify candidate dies).modify sibling
    fun other => { other with parent }).relink parent candidate sibling

section Collapse

variable {slot : Slot} {start : ℕ} {gone stay : Occurrences P}

/-- A node left with one child collapses onto it. -/
theorem collapsed_collapseTo (hlaid : stay.Laid low high)
    (hstay : Stands layout (some start) stay) (hpoints : slot.Points layout start)
    (hapart : slot.Apart layout [start])
    (hstarts : ∀ ordinal, ordinal ∈ occurrences.starts ↔
      ordinal = start ∨ ordinal = gone.start ∨ ordinal ∈ stay.starts)
    (hleaves : ∀ leaf ∈ occurrences.leafStarts, leaf ∉ stay.leafStarts → leaf.1 = gone.start)
    (hstart : start ∉ stay.starts) (hgone : gone.start ∉ stay.starts) (hdiffer : gone.start ≠ start)
    (hslot : ∀ parent, slot.parent = some parent → parent ∉ occurrences.starts)
    (hstands : Stands layout (some start) gone) :
    Collapsed slot layout (layout.collapseTo slot.parent start gone.start stay.start)
      occurrences stay := by
  have hstayStart : stay.start ∈ stay.starts := stay.start_mem
  have hstayNe : stay.start ≠ start := fun h => hstart (h ▸ hstayStart)
  have hstayGone : stay.start ≠ gone.start := fun h => hgone (h ▸ hstayStart)
  rw [collapseTo]
  generalize hmiddle : ((layout.modify gone.start dies).modify start dies).modify stay.start
    (fun other => { other with parent := slot.parent }) = middle
  have hsame : ∀ ordinal, ordinal ≠ start → ordinal ≠ gone.start → ordinal ≠ stay.start →
      middle.occurrences ordinal = layout.occurrences ordinal := by
    intro ordinal hstart hgone hstay
    rw [← hmiddle, modify_ne _ hstay, modify_ne _ hstart, modify_ne _ hgone]
  have hmoved : middle.occurrences stay.start = (layout.occurrences stay.start).map
      fun other => { other with parent := slot.parent } := by
    rw [← hmiddle, modify_self, modify_ne _ hstayNe, modify_ne _ hstayGone]
  have hdied : middle.occurrences gone.start = (layout.occurrences gone.start).map dies := by
    rw [← hmiddle, modify_ne _ (Ne.symm hstayGone), modify_ne _ hdiffer, modify_self]
  -- what changed lies in the branch, so the place that links it stays
  have hplace : ∀ parent, slot.parent = some parent →
      middle.occurrences parent = layout.occurrences parent := by
    intro parent hparent
    have hout := hslot parent hparent
    rw [hstarts, not_or, not_or] at hout
    exact hsame parent hout.1 hout.2.1 fun h => hout.2.2 (h ▸ hstayStart)
  have hlinked : slot.Linked stay.start middle (middle.relink slot.parent start stay.start) := by
    refine Slot.Points.relink (hpoints.congr (by rw [← hmiddle]; rfl) hplace) ?_
    cases slot with
    | root => trivial
    | first parent => trivial
    | second parent =>
      intro entry hentry
      rw [hplace parent rfl] at hentry
      exact hapart entry hentry
  have hinside : ∀ ordinal ∈ occurrences.starts,
      (middle.relink slot.parent start stay.start).occurrences ordinal =
        middle.occurrences ordinal :=
    fun ordinal hmem => hlinked.other ordinal fun hparent => hslot ordinal hparent hmem
  have hstayMem : ∀ ordinal ∈ stay.starts, ordinal ∈ occurrences.starts :=
    fun ordinal hmem => (hstarts ordinal).mpr (Or.inr (Or.inr hmem))
  have hparent : ∀ parent, slot.parent = some parent →
      (middle.relink slot.parent start stay.start).occurrences parent =
        (layout.occurrences parent).map (slot.write stay.start) :=
    fun parent hparent => by rw [hlinked.parent parent hparent, hplace parent hparent]
  refine
    { stands := ?_
      points := hpoints.of_write hlinked.top hparent
      other := fun ordinal hmem hplaced => ?_
      parent := hparent
      kept := fun hne => (hlinked.kept hne).trans (by rw [← hmiddle]; rfl)
      ordinal := hlinked.ordinal.trans (by rw [← hmiddle]; rfl)
      leaves := hlinked.leaves.trans (by rw [← hmiddle]; rfl)
      dead := fun leaf hmem hlost => ?_ }
  · refine hstay.reparent hlaid ?_ fun ordinal hmem hne => ?_
    · rw [hinside _ (hstayMem _ hstayStart), hmoved]
    · rw [hinside _ (hstayMem _ hmem), hsame ordinal (fun h => hstart (h ▸ hmem))
        (fun h => hgone (h ▸ hmem)) hne]
  · rw [hstarts, not_or, not_or] at hmem
    rw [hlinked.other ordinal hplaced, hsame ordinal hmem.1 hmem.2.1
      fun h => hmem.2.2 (h ▸ hstayStart)]
  · obtain ⟨entry, hentry, -⟩ := hstands.entry
    rw [hleaves leaf hmem hlost, aliveAt,
      hinside _ ((hstarts _).mpr (Or.inr (Or.inl rfl))), hdied, hentry]
    rfl

end Collapse

end RetiringGroupLayout

end Wakii.LayoutLoad
