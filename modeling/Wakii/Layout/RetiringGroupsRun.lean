import Mathlib.Data.List.Dedup
import Wakii.Layout.RetiringGroupsSound

/-!
# Removing groups one after another

The frontier of a group holds the topmost splits that lose a side to it, so
collapsing them removes the group as the tree itself would.
-/

namespace Wakii.LayoutLoad

open Function List Wakii.LayoutModel

variable {P : Type} {layout next : RetiringGroupLayout P} {occurrences rest : Occurrences P}
  {groupId : String} {low high : ℕ}

namespace Occurrences

/-! ## The splits beside a group's leaves -/

def besideLeaf (groupId : String) (first second : Occurrences P) : Bool :=
  first.isLeaf groupId || second.isLeaf groupId

def parents (groupId : String) : Occurrences P → List ℕ
  | leaf _ _ _ => []
  | split start _ _ first second =>
    (if besideLeaf groupId first second then [start] else []) ++
      (first.parents groupId ++ second.parents groupId)

def tops (groupId : String) : Occurrences P → List ℕ
  | leaf _ _ _ => []
  | split start _ _ first second =>
    if besideLeaf groupId first second then [start]
    else first.tops groupId ++ second.tops groupId

theorem mem_parents_split {start finish ordinal : ℕ} {data : GroupSplit P}
    {first second : Occurrences P} :
    ordinal ∈ (split start finish data first second).parents groupId ↔
      ordinal = start ∧ (first.isLeaf groupId = true ∨ second.isLeaf groupId = true) ∨
        ordinal ∈ first.parents groupId ∨ ordinal ∈ second.parents groupId := by
  rw [parents, besideLeaf, mem_append, mem_append, ← Bool.or_eq_true]
  split_ifs with hbeside <;> simp [hbeside]

theorem mem_starts_of_parents {ordinal : ℕ} (hmem : ordinal ∈ occurrences.parents groupId) :
    ordinal ∈ occurrences.starts := by
  induction occurrences with
  | leaf start finish other => exact absurd hmem not_mem_nil
  | split start finish data first second ihFirst ihSecond =>
    rw [starts, mem_cons, mem_append]
    rcases mem_append.mp hmem with hmem | hmem
    · split_ifs at hmem
      · exact Or.inl (mem_singleton.mp hmem)
      · exact absurd hmem not_mem_nil
    · exact Or.inr ((mem_append.mp hmem).imp ihFirst ihSecond)

theorem Laid.pairwise_parents (hlaid : occurrences.Laid low high) :
    (occurrences.parents groupId).Pairwise (· < ·) := by
  induction occurrences generalizing low high with
  | leaf start finish other => exact List.Pairwise.nil
  | split start finish data first second ihFirst ihSecond =>
    obtain ⟨hlow, hhigh, middle, hfirst, hsecond⟩ := hlaid
    have hbelow : ∀ ordinal ∈ first.parents groupId, start < ordinal ∧ ordinal < middle :=
      fun ordinal hmem => hfirst.bounds ordinal (mem_starts_of_parents hmem)
    have habove : ∀ ordinal ∈ second.parents groupId, middle ≤ ordinal :=
      fun ordinal hmem => (hsecond.bounds ordinal (mem_starts_of_parents hmem)).1
    have hmiddle := (hfirst.bounds _ first.start_mem).1.trans_lt (hfirst.bounds _ first.start_mem).2
    refine pairwise_append.mpr ⟨?_, ?_, fun left hleft right hright => ?_⟩
    · split_ifs
      · exact pairwise_singleton _ _
      · exact List.Pairwise.nil
    · refine pairwise_append.mpr ⟨ihFirst hfirst, ihSecond hsecond,
        fun left hleft right hright => ?_⟩
      exact (hbelow left hleft).2.trans_le (habove right hright)
    · split_ifs at hleft
      · rw [mem_singleton.mp hleft]
        rcases mem_append.mp hright with hright | hright
        · exact (hbelow right hright).1
        · exact lt_of_lt_of_le (by omega) (habove right hright)
      · exact absurd hleft not_mem_nil

/-! ## What is left of a branch -/

theorem starts_of_isLeaf (hleaf : occurrences.isLeaf groupId = true) :
    occurrences.starts = [occurrences.start] ∧
      occurrences.leafStarts = [(occurrences.start, groupId)] := by
  cases occurrences with
  | leaf start finish other =>
    have hother : other = groupId := by simpa [isLeaf] using hleaf
    exact ⟨rfl, by rw [hother]; rfl⟩
  | split start finish data first second => exact absurd hleaf Bool.false_ne_true

theorem Laid.removeGroup (hlaid : occurrences.Laid low high)
    (hrest : occurrences.removeGroup groupId = some rest) :
    rest.Laid low high ∧ (∀ ordinal ∈ rest.starts, ordinal ∈ occurrences.starts) ∧
      ∀ leaf ∈ rest.leafStarts, leaf ∈ occurrences.leafStarts := by
  induction occurrences generalizing low high rest with
  | leaf start finish other =>
    rw [Occurrences.removeGroup] at hrest
    split_ifs at hrest
    cases hrest
    exact ⟨hlaid, fun _ h => h, fun _ h => h⟩
  | split start finish data first second ihFirst ihSecond =>
    obtain ⟨hlow, hhigh, middle, hfirst, hsecond⟩ := hlaid
    have hfirstBounds := hfirst.bounds _ first.start_mem
    have hsecondBounds := hsecond.bounds _ second.start_mem
    rw [Occurrences.removeGroup] at hrest
    split_ifs at hrest
    · cases hrest
      refine ⟨hsecond.widen (by omega) hhigh, fun ordinal hmem => ?_, fun leaf hmem => ?_⟩
      · exact mem_cons_of_mem _ (mem_append_right _ hmem)
      · exact mem_append_right _ hmem
    · cases hrest
      refine ⟨hfirst.widen (by omega) (by omega), fun ordinal hmem => ?_, fun leaf hmem => ?_⟩
      · exact mem_cons_of_mem _ (mem_append_left _ hmem)
      · exact mem_append_left _ hmem
    · obtain ⟨firstRest, hfirstRest, hrest⟩ := Option.bind_eq_some_iff.mp hrest
      obtain ⟨secondRest, hsecondRest, rfl⟩ := Option.map_eq_some_iff.mp hrest
      obtain ⟨hfirstLaid, hfirstStarts, hfirstLeaves⟩ := ihFirst hfirst hfirstRest
      obtain ⟨hsecondLaid, hsecondStarts, hsecondLeaves⟩ := ihSecond hsecond hsecondRest
      refine ⟨⟨hlow, hhigh, middle, hfirstLaid, hsecondLaid⟩, fun ordinal hmem => ?_,
        fun leaf hmem => ?_⟩
      · rcases mem_cons.mp hmem with rfl | hmem
        · exact mem_cons_self
        · exact mem_cons_of_mem _ (mem_append.mpr
            ((mem_append.mp hmem).imp (hfirstStarts ordinal) (hsecondStarts ordinal)))
      · exact mem_append.mpr ((mem_append.mp hmem).imp (hfirstLeaves leaf) (hsecondLeaves leaf))

end Occurrences

namespace RetiringGroupLayout

/-! ## Collapsing the topmost splits -/

variable {slot : Slot}

variable {parent : Option ℕ} (node : TabGroupLayoutNode P)

theorem collapse_eq_collapseTo {start finish : ℕ} {data : GroupSplit P}
    {first second : Occurrences P}
    (hstands : Stands layout parent (.split start finish data first second)) :
    collapse groupId layout start =
      if first.isLeaf groupId then layout.collapseTo parent start first.start second.start
      else layout.collapseTo parent start second.start first.start := by
  obtain ⟨⟨firstNode, secondNode, hentry⟩, hfirst, -⟩ := hstands
  rw [collapse, hentry]
  dsimp only
  rw [hfirst.isLeafAt]
  split_ifs <;> rfl

theorem Collapsed.self (hstands : Stands layout slot.parent occurrences)
    (hpoints : slot.Points layout occurrences.start) :
    Collapsed slot layout layout occurrences occurrences where
  stands := hstands
  points := hpoints
  other := fun _ _ _ => rfl
  parent := fun _ hparent => (hpoints.write hparent).symm
  kept := fun _ => rfl
  ordinal := rfl
  leaves := rfl
  dead := fun _ hmem hlost => absurd hmem hlost

/-- A split whose sides were collapsed, the first before the second. -/
theorem Collapsed.split {start finish middle : ℕ} {data : GroupSplit P}
    {first second firstRest secondRest : Occurrences P} {between : RetiringGroupLayout P}
    (hfirstLaid : first.Laid (start + 1) middle) (hsecondLaid : second.Laid middle finish)
    (hslot : ∀ parent, slot.parent = some parent → parent < start)
    (hstands : Stands layout slot.parent (.split start finish data first second))
    (hpoints : slot.Points layout start)
    (hfirstStarts : ∀ ordinal ∈ firstRest.starts, ordinal ∈ first.starts)
    (hfirst : Collapsed (.first start) layout between first firstRest)
    (hsecond : Collapsed (.second start) between next second secondRest) :
    Collapsed slot layout next (.split start finish data first second)
      (.split start finish data firstRest secondRest) := by
  obtain ⟨⟨firstNode, secondNode, hentry⟩, -, -⟩ := hstands
  have hmiddle := hfirstLaid.bounds _ first.start_mem
  have hfirstOut : ∀ ordinal ∈ first.starts, ordinal ∉ second.starts ∧ start ≠ ordinal := by
    intro ordinal hmem
    have hbounds := hfirstLaid.bounds ordinal hmem
    refine ⟨fun hother => ?_, by omega⟩
    have := hsecondLaid.bounds ordinal hother
    omega
  have hafter : ∀ ordinal ∈ first.starts, next.occurrences ordinal = between.occurrences ordinal :=
    fun ordinal hmem => hsecond.other ordinal (hfirstOut ordinal hmem).1
      fun h => (hfirstOut ordinal hmem).2 (Option.some.inj h)
  -- nothing outside the split changed, so its place still links it
  have houtside : ∀ ordinal, ordinal ∉ (Occurrences.split start finish data first second).starts →
      next.occurrences ordinal = layout.occurrences ordinal := by
    intro ordinal hmem
    rw [Occurrences.starts, mem_cons, mem_append, not_or, not_or] at hmem
    have hne : some start ≠ some ordinal := fun h => hmem.1 (Option.some.inj h).symm
    rw [hsecond.other ordinal hmem.2.2 hne, hfirst.other ordinal hmem.2.1 hne]
  have hplace : ∀ parent, slot.parent = some parent →
      next.occurrences parent = layout.occurrences parent := by
    intro parent hparent
    have hless := hslot parent hparent
    refine houtside parent fun hmem => ?_
    rcases mem_cons.mp hmem with rfl | hmem
    · omega
    · rcases mem_append.mp hmem with hmem | hmem
      · have := hfirstLaid.bounds _ hmem
        omega
      · have := hsecondLaid.bounds _ hmem
        omega
  have hroot : next.root = layout.root := (hsecond.kept nofun).trans (hfirst.kept nofun)
  refine
    { stands := ⟨⟨firstNode, secondNode, ?_⟩, ?_, hsecond.stands⟩
      points := hpoints.congr hroot hplace
      other := fun ordinal hmem _ => houtside ordinal hmem
      parent := fun parent hparent => ?_
      kept := fun _ => hroot
      ordinal := hsecond.ordinal.trans hfirst.ordinal
      leaves := hsecond.leaves.trans hfirst.leaves
      dead := fun leaf hmem hlost => ?_ }
  · rw [hsecond.parent start rfl, hfirst.parent start rfl, hentry]
    rfl
  · exact hfirst.stands.congr fun ordinal hmem => hafter ordinal (hfirstStarts ordinal hmem)
  · rw [hplace parent hparent]
    exact (hpoints.write hparent).symm
  · rw [Occurrences.leafStarts, mem_append, not_or] at hlost
    rcases mem_append.mp hmem with hmem | hmem
    · rw [aliveAt, hafter _ (Occurrences.mem_starts_of_leafStarts hmem)]
      exact hfirst.dead leaf hmem hlost.1
    · exact hsecond.dead leaf hmem hlost.2

/-- Collapsing the topmost splits beside a group's leaves removes the group. -/
theorem collapsed_tops (hlaid : occurrences.Laid low high)
    (hslot : ∀ parent, slot.parent = some parent → parent < low)
    (hstands : Stands layout slot.parent occurrences)
    (hpoints : slot.Points layout occurrences.start)
    (hapart : slot.Apart layout occurrences.starts) (hleaf : occurrences.isLeaf groupId = false) :
    ∃ rest, occurrences.removeGroup groupId = some rest ∧
      Collapsed slot layout ((occurrences.tops groupId).foldl (collapse groupId) layout)
        occurrences rest := by
  induction occurrences generalizing low high slot layout with
  | leaf start finish other =>
    refine ⟨_, if_neg (by simpa [Occurrences.isLeaf] using hleaf), ?_⟩
    exact Collapsed.self hstands hpoints
  | split start finish data first second ihFirst ihSecond =>
    obtain ⟨hlow, hhigh, middle, hfirstLaid, hsecondLaid⟩ := id hlaid
    have hbounds := hlaid.bounds
    have hmiddle := hfirstLaid.bounds _ first.start_mem
    have hstart : ∀ ordinal ∈ first.starts ++ second.starts, start < ordinal := by
      intro ordinal hmem
      rcases mem_append.mp hmem with hmem | hmem
      · exact (hfirstLaid.bounds ordinal hmem).1
      · have := (hsecondLaid.bounds ordinal hmem).1
        omega
    have hdisjoint : ∀ ordinal ∈ first.starts, ordinal ∉ second.starts := by
      intro ordinal hmem hother
      have hless := (hfirstLaid.bounds ordinal hmem).2
      have hmore := (hsecondLaid.bounds ordinal hother).1
      omega
    have hplace : ∀ parent, slot.parent = some parent →
        parent ∉ (Occurrences.split start finish data first second).starts := by
      intro parent hparent hmem
      have hless := hslot parent hparent
      have := (hbounds parent hmem).1
      omega
    have hapartStart : slot.Apart layout [start] := by
      cases slot with
      | root => trivial
      | first parent => trivial
      | second parent =>
        intro entry hentry ordinal hmem
        rw [mem_singleton.mp hmem]
        exact hapart entry hentry start mem_cons_self
    rw [Occurrences.removeGroup, Occurrences.tops, Occurrences.besideLeaf]
    by_cases hfirstLeaf : first.isLeaf groupId = true
    · obtain ⟨hstarts, hleaves⟩ := Occurrences.starts_of_isLeaf hfirstLeaf
      rw [if_pos hfirstLeaf, hfirstLeaf, Bool.true_or, if_pos rfl, foldl_cons,
        foldl_nil, collapse_eq_collapseTo hstands, if_pos hfirstLeaf]
      refine ⟨second, rfl, collapsed_collapseTo hsecondLaid hstands.2.2 hpoints hapartStart
        ?_ ?_ ?_ ?_ ?_ hplace hstands.2.1⟩
      · intro ordinal
        rw [Occurrences.starts, hstarts]
        simp
      · intro leaf hmem hlost
        rw [Occurrences.leafStarts, hleaves] at hmem
        rcases mem_append.mp hmem with hmem | hmem
        · rw [mem_singleton.mp hmem]
        · exact absurd hmem hlost
      · exact fun hmem => (hstart start (mem_append_right _ hmem)).false
      · exact hdisjoint first.start first.start_mem
      · exact (hstart first.start (mem_append_left _ first.start_mem)).ne'
    · by_cases hsecondLeaf : second.isLeaf groupId = true
      · obtain ⟨hstarts, hleaves⟩ := Occurrences.starts_of_isLeaf hsecondLeaf
        rw [if_neg hfirstLeaf, if_pos hsecondLeaf, hsecondLeaf, Bool.or_true, if_pos rfl,
          foldl_cons, foldl_nil, collapse_eq_collapseTo hstands, if_neg hfirstLeaf]
        refine ⟨first, rfl, collapsed_collapseTo hfirstLaid hstands.2.1 hpoints hapartStart
          ?_ ?_ ?_ ?_ ?_ hplace hstands.2.2⟩
        · intro ordinal
          rw [Occurrences.starts, hstarts]
          simp [or_comm]
        · intro leaf hmem hlost
          rw [Occurrences.leafStarts, hleaves] at hmem
          rcases mem_append.mp hmem with hmem | hmem
          · exact absurd hmem hlost
          · rw [mem_singleton.mp hmem]
        · exact fun hmem => (hstart start (mem_append_left _ hmem)).false
        · exact fun hmem => hdisjoint _ hmem second.start_mem
        · exact (hstart second.start (mem_append_right _ second.start_mem)).ne'
      · rw [if_neg hfirstLeaf, if_neg hsecondLeaf, Bool.eq_false_iff.mpr hfirstLeaf,
          Bool.eq_false_iff.mpr hsecondLeaf, Bool.or_false, if_neg Bool.false_ne_true,
          foldl_append]
        obtain ⟨⟨firstNode, secondNode, hentry⟩, hfirstStands, hsecondStands⟩ := id hstands
        obtain ⟨firstRest, hfirstRest, hfirst⟩ := @ihFirst _ _ _ (.first start) hfirstLaid
          (fun parent hparent => by cases hparent; omega) hfirstStands ⟨_, hentry, rfl⟩ trivial
          (Bool.eq_false_iff.mpr hfirstLeaf)
        have hfirstStarts := (hfirstLaid.removeGroup hfirstRest).2.1
        generalize hbetween : (first.tops groupId).foldl (collapse groupId) layout = between
          at hfirst
        have hwritten := hfirst.parent start rfl
        rw [hentry] at hwritten
        obtain ⟨secondRest, hsecondRest, hsecond⟩ :=
          @ihSecond between _ _ (.second start) hsecondLaid
            (fun parent hparent => by cases hparent; omega)
            (hsecondStands.congr fun ordinal hmem => hfirst.other ordinal
              (fun hother => hdisjoint ordinal hother hmem)
              fun h => (hstart ordinal (mem_append_right _ hmem)).ne (Option.some.inj h))
            ⟨_, hwritten, rfl⟩
            (fun entry hother ordinal hmem hsame => by
              rw [hwritten] at hother
              cases hother
              have hfirstMem := hfirstStarts _ firstRest.start_mem
              exact hdisjoint _ hfirstMem (Option.some.inj hsame ▸ hmem))
            (Bool.eq_false_iff.mpr hsecondLeaf)
        refine ⟨.split start finish data firstRest secondRest, ?_, ?_⟩
        · rw [hfirstRest, hsecondRest]
          rfl
        · exact Collapsed.split hfirstLaid hsecondLaid
            (fun parent hparent => (hslot parent hparent).trans_le hlow) hstands hpoints
            hfirstStarts hfirst hsecond

/-! ## The frontier of a group -/

theorem Stands.alive (hstands : Stands layout parent occurrences) :
    ∀ ordinal ∈ occurrences.starts, layout.aliveAt ordinal = true ∧
      layout.startOf ordinal = ordinal := by
  induction occurrences generalizing parent with
  | leaf start finish other =>
    intro ordinal hmem
    rw [mem_singleton.mp hmem, aliveAt, startOf,
      show layout.occurrences start = _ from hstands]
    exact ⟨rfl, rfl⟩
  | split start finish data first second ihFirst ihSecond =>
    obtain ⟨⟨firstNode, secondNode, hentry⟩, hfirst, hsecond⟩ := hstands
    intro ordinal hmem
    rcases mem_cons.mp hmem with rfl | hmem
    · rw [aliveAt, startOf, hentry]
      exact ⟨rfl, rfl⟩
    · rcases mem_append.mp hmem with hmem | hmem
      · exact ihFirst hfirst ordinal hmem
      · exact ihSecond hsecond ordinal hmem

theorem foldl_frontierStep_inside {ordinals kept : List ℕ} {limit : ℕ}
    (hinside : ∀ ordinal ∈ ordinals, layout.startOf ordinal < limit) :
    ordinals.foldl layout.frontierStep (kept, limit) = (kept, limit) := by
  induction ordinals with
  | nil => rfl
  | cons ordinal ordinals ih =>
    rw [foldl_cons, frontierStep, if_neg (not_le.mpr (hinside ordinal mem_cons_self)),
      ih fun other hmem => hinside other (mem_cons_of_mem _ hmem)]

/-- The frontier of a group's parents is its tops. -/
theorem foldl_frontierStep_parents {kept : List ℕ} {limit : ℕ}
    (hlaid : occurrences.Laid low high) (hstands : Stands layout parent occurrences)
    (hlimit : limit ≤ low) :
    ∃ after, (occurrences.parents groupId).foldl layout.frontierStep (kept, limit) =
      (kept ++ occurrences.tops groupId, after) ∧ after ≤ high := by
  induction occurrences generalizing low high parent kept limit with
  | leaf start finish other =>
    refine ⟨limit, by rw [Occurrences.tops, append_nil]; rfl, ?_⟩
    have := hlaid.1
    have := hlaid.2
    omega
  | split start finish data first second ihFirst ihSecond =>
    obtain ⟨hlow, hhigh, middle, hfirstLaid, hsecondLaid⟩ := id hlaid
    have hstarts := hstands.alive
    obtain ⟨⟨firstNode, secondNode, hentry⟩, hfirst, hsecond⟩ := hstands
    rw [Occurrences.parents, Occurrences.tops]
    by_cases hbeside : Occurrences.besideLeaf groupId first second = true
    · rw [if_pos hbeside, if_pos hbeside, singleton_append, foldl_cons, frontierStep,
        if_pos (by rw [(hstarts start mem_cons_self).2]; omega)]
      have hfinish : layout.finishOf start = finish := by
        rw [finishOf, hentry]
        rfl
      refine ⟨finish, ?_, hhigh⟩
      rw [hfinish]
      refine foldl_frontierStep_inside fun ordinal hmem => ?_
      have hmiddle := hsecondLaid.bounds _ second.start_mem
      rcases mem_append.mp hmem with hmem | hmem
      · have hin := Occurrences.mem_starts_of_parents hmem
        rw [(hstarts ordinal (mem_cons_of_mem _ (mem_append_left _ hin))).2]
        have := (hfirstLaid.bounds ordinal hin).2
        omega
      · have hin := Occurrences.mem_starts_of_parents hmem
        rw [(hstarts ordinal (mem_cons_of_mem _ (mem_append_right _ hin))).2]
        exact (hsecondLaid.bounds ordinal hin).2
    · rw [if_neg hbeside, if_neg hbeside, nil_append, foldl_append]
      obtain ⟨between, hbetween, hless⟩ := @ihFirst _ _ _ kept _ hfirstLaid hfirst
        (hlimit.trans (hlow.trans (Nat.le_succ start)))
      obtain ⟨after, hafter, hhigher⟩ :=
        @ihSecond _ _ _ (kept ++ first.tops groupId) _ hsecondLaid hsecond hless
      refine ⟨after, ?_, hhigher.trans hhigh⟩
      rw [hbetween, hafter, append_assoc]

/-- A group's leaves hang where its parents are. -/
theorem exists_leafStarts_parent {parent place : Option ℕ}
    (hstands : Stands layout parent occurrences) :
    (∃ leaf, (leaf, groupId) ∈ occurrences.leafStarts ∧
      ∃ entry, layout.occurrences leaf = some entry ∧ entry.parent = place) ↔
      (occurrences.isLeaf groupId = true ∧ place = parent) ∨
        ∃ start ∈ occurrences.parents groupId, place = some start := by
  induction occurrences generalizing parent with
  | leaf start finish other =>
    have hentry : layout.occurrences start = _ := hstands
    simp only [Occurrences.leafStarts, mem_singleton, Occurrences.isLeaf,
      Occurrences.parents, not_mem_nil, false_and, exists_false, or_false, Prod.mk.injEq,
      decide_eq_true_eq]
    constructor
    · rintro ⟨leaf, ⟨rfl, rfl⟩, entry, hleaf, rfl⟩
      rw [hentry] at hleaf
      cases hleaf
      exact ⟨rfl, rfl⟩
    · rintro ⟨rfl, rfl⟩
      exact ⟨start, ⟨rfl, rfl⟩, _, hentry, rfl⟩
  | split start finish data first second ihFirst ihSecond =>
    obtain ⟨-, hfirst, hsecond⟩ := hstands
    have hfirst := ihFirst hfirst
    have hsecond := ihSecond hsecond
    constructor
    · rintro ⟨leaf, hmem, hentry⟩
      refine Or.inr ?_
      rcases mem_append.mp hmem with hmem | hmem
      · rcases hfirst.mp ⟨leaf, hmem, hentry⟩ with ⟨hleaf, hplace⟩ | ⟨inner, hinner, hplace⟩
        · exact ⟨start, Occurrences.mem_parents_split.mpr (Or.inl ⟨rfl, Or.inl hleaf⟩), hplace⟩
        · exact ⟨inner, Occurrences.mem_parents_split.mpr (Or.inr (Or.inl hinner)), hplace⟩
      · rcases hsecond.mp ⟨leaf, hmem, hentry⟩ with ⟨hleaf, hplace⟩ | ⟨inner, hinner, hplace⟩
        · exact ⟨start, Occurrences.mem_parents_split.mpr (Or.inl ⟨rfl, Or.inr hleaf⟩), hplace⟩
        · exact ⟨inner, Occurrences.mem_parents_split.mpr (Or.inr (Or.inr hinner)), hplace⟩
    · rintro (⟨hleaf, -⟩ | ⟨ordinal, hmem, hplace⟩)
      · exact absurd hleaf Bool.false_ne_true
      · rcases Occurrences.mem_parents_split.mp hmem with ⟨rfl, hleaf | hleaf⟩ | hinner | hinner
        · obtain ⟨leaf, hleafMem, hentry⟩ := hfirst.mpr (Or.inl ⟨hleaf, hplace⟩)
          exact ⟨leaf, mem_append_left _ hleafMem, hentry⟩
        · obtain ⟨leaf, hleafMem, hentry⟩ := hsecond.mpr (Or.inl ⟨hleaf, hplace⟩)
          exact ⟨leaf, mem_append_right _ hleafMem, hentry⟩
        · obtain ⟨leaf, hleafMem, hentry⟩ := hfirst.mpr (Or.inr ⟨ordinal, hinner, hplace⟩)
          exact ⟨leaf, mem_append_left _ hleafMem, hentry⟩
        · obtain ⟨leaf, hleafMem, hentry⟩ := hsecond.mpr (Or.inr ⟨ordinal, hinner, hplace⟩)
          exact ⟨leaf, mem_append_right _ hleafMem, hentry⟩

/-! ## Layouts that show a tree -/

/-- A layout keeps the occurrences of what is left of its tree. -/
structure Live (layout : RetiringGroupLayout P) (current : Option (Occurrences P)) : Prop where
  root : layout.root = current.map Occurrences.start
  stands : ∀ occurrences ∈ current, Stands layout none occurrences
  laid : ∀ occurrences ∈ current, occurrences.Laid 0 layout.ordinal
  leaves : ∀ groupId leaf, leaf ∈ layout.leaves groupId ∧ layout.aliveAt leaf = true ↔
    ∃ occurrences ∈ current, (leaf, groupId) ∈ occurrences.leafStarts

variable {current : Option (Occurrences P)}

theorem Live.mem_candidates (hlive : Live layout current) {candidate : ℕ} :
    candidate ∈ layout.candidates groupId ↔ ∃ occurrences ∈ current,
      (occurrences.isLeaf groupId = true ∧ candidate = occurrences.start) ∨
        candidate ∈ occurrences.parents groupId := by
  rw [candidates, mem_dedup, mem_filterMap]
  constructor
  · rintro ⟨leaf, hmem, hcandidate⟩
    obtain ⟨entry, hfiltered, rfl⟩ := Option.map_eq_some_iff.mp hcandidate
    obtain ⟨hentry, halive⟩ := Option.filter_eq_some_iff.mp hfiltered
    obtain ⟨occurrences, hcurrent, hleaf⟩ := (hlive.leaves groupId leaf).mp
      ⟨hmem, by rw [aliveAt, hentry]; exact halive⟩
    refine ⟨occurrences, hcurrent, ?_⟩
    have hstands := hlive.stands occurrences hcurrent
    rcases (exists_leafStarts_parent hstands).mp ⟨leaf, hleaf, entry, hentry, rfl⟩ with
      ⟨hisLeaf, hparent⟩ | ⟨start, hstart, hparent⟩
    · rw [(Occurrences.starts_of_isLeaf hisLeaf).2, mem_singleton] at hleaf
      cases hleaf
      exact Or.inl ⟨hisLeaf, by rw [hparent]; rfl⟩
    · rw [hparent]
      exact Or.inr hstart
  · rintro ⟨occurrences, hcurrent, hcandidate⟩
    have hstands := hlive.stands occurrences hcurrent
    have hfound : ∃ leaf, (leaf, groupId) ∈ occurrences.leafStarts ∧ ∃ entry,
        layout.occurrences leaf = some entry ∧ candidate = entry.parent.getD leaf := by
      rcases hcandidate with ⟨hisLeaf, rfl⟩ | hparent
      · obtain ⟨entry, hentry, hnone, -⟩ := hstands.entry
        refine ⟨occurrences.start, ?_, entry, hentry, by rw [hnone]; rfl⟩
        rw [(Occurrences.starts_of_isLeaf hisLeaf).2]
        exact mem_singleton_self _
      · obtain ⟨leaf, hleaf, entry, hentry, hplace⟩ :=
          (exists_leafStarts_parent hstands).mpr (Or.inr ⟨candidate, hparent, rfl⟩)
        exact ⟨leaf, hleaf, entry, hentry, by rw [hplace]; rfl⟩
    obtain ⟨leaf, hleaf, entry, hentry, rfl⟩ := hfound
    have hmem := (hlive.leaves groupId leaf).mpr ⟨occurrences, hcurrent, hleaf⟩
    refine ⟨leaf, hmem.1, ?_⟩
    have halive : entry.alive = true := by
      have := hmem.2
      rwa [aliveAt, hentry] at this
    rw [hentry, Option.filter_some, if_pos halive, Option.map_some]

theorem order_eq {entries sorted : List ℕ} (hnodup : entries.Nodup)
    (hsorted : sorted.Pairwise (· < ·)) (hmem : ∀ ordinal, ordinal ∈ entries ↔ ordinal ∈ sorted)
    (hstart : ∀ ordinal ∈ sorted, layout.startOf ordinal = ordinal) :
    layout.order entries = sorted := by
  have hperm := perm_insertionSort
    (fun left right => layout.startOf left ≤ layout.startOf right) entries
  have hmemOrder : ∀ ordinal ∈ layout.order entries, ordinal ∈ sorted := fun ordinal hordinal =>
    (hmem ordinal).mp (hperm.mem_iff.mp hordinal)
  have hle : (layout.order entries).Pairwise (· ≤ ·) := by
    have htotal : Std.Total fun left right : ℕ => layout.startOf left ≤ layout.startOf right :=
      ⟨fun _ _ => Nat.le_total _ _⟩
    have htrans : IsTrans ℕ fun left right => layout.startOf left ≤ layout.startOf right :=
      ⟨fun _ _ _ => Nat.le_trans⟩
    refine Pairwise.imp_of_mem (fun {left right} hleft hright hless => ?_)
      (pairwise_insertionSort _ entries)
    rwa [hstart left (hmemOrder left hleft), hstart right (hmemOrder right hright)] at hless
  refine Perm.eq_of_pairwise (fun _ _ _ _ => Nat.le_antisymm) hle
    (hsorted.imp Nat.le_of_lt) (hperm.trans ?_)
  exact (perm_ext_iff_of_nodup hnodup (hsorted.imp Nat.ne_of_lt)).mpr hmem

/-! ## Removing a group -/

theorem aliveAt_modify {ordinal other : ℕ} {change : GroupOccurrence P → GroupOccurrence P}
    (hchange : ∀ entry, (change entry).alive = true → entry.alive = true)
    (halive : (layout.modify ordinal change).aliveAt other = true) :
    layout.aliveAt other = true := by
  by_cases hother : other = ordinal
  · rw [hother] at halive ⊢
    rw [aliveAt, modify_self] at halive
    obtain ⟨entry, hentry, hchanged⟩ := (Option.any_eq_true _ _).mp halive
    obtain ⟨before, hbefore, rfl⟩ := Option.map_eq_some_iff.mp hentry
    rw [aliveAt, hbefore]
    exact hchange before hchanged
  · rwa [aliveAt, modify_ne layout hother] at halive

theorem aliveAt_relink {candidate sibling ordinal : ℕ}
    (halive : (layout.relink parent candidate sibling).aliveAt ordinal = true) :
    layout.aliveAt ordinal = true := by
  cases parent with
  | none => exact halive
  | some parent =>
    refine aliveAt_modify (fun entry hentry => ?_) halive
    split_ifs at hentry <;> exact hentry

theorem alive_of_dies (entry : GroupOccurrence P) (halive : (dies entry).alive = true) :
    entry.alive = true := by cases halive

theorem aliveAt_collapse {candidate ordinal : ℕ}
    (halive : (collapse groupId layout candidate).aliveAt ordinal = true) :
    layout.aliveAt ordinal = true := by
  rw [collapse] at halive
  split at halive
  · exact halive
  · dsimp only at halive
    split at halive
    · refine aliveAt_modify alive_of_dies (aliveAt_modify alive_of_dies
        (aliveAt_modify (fun entry hentry => ?_) (aliveAt_relink halive)))
      exact hentry
    · exact aliveAt_modify alive_of_dies halive

theorem aliveAt_foldl_collapse {ordinal : ℕ} {candidates : List ℕ}
    (halive : (candidates.foldl (collapse groupId) layout).aliveAt ordinal = true) :
    layout.aliveAt ordinal = true := by
  induction candidates generalizing layout with
  | nil => exact halive
  | cons candidate candidates ih => exact aliveAt_collapse (ih halive)

/-- Removing a group from the occurrences removes it from the tree they show. -/
theorem Live.remove (hlive : Live layout current) (groupId : String) :
    Live (layout.remove groupId) (current.bind (·.removeGroup groupId)) := by
  have hcandidates := @Live.mem_candidates _ layout groupId _ hlive
  have hnodup : (layout.candidates groupId).Nodup := nodup_dedup _
  cases current with
  | none =>
    have hempty : layout.candidates groupId = [] :=
      eq_nil_iff_forall_not_mem.mpr fun candidate hmem =>
        (hcandidates.mp hmem).elim fun _ h => by cases h.1
    rw [RetiringGroupLayout.remove, hempty]
    exact hlive
  | some occurrences =>
    have hstands := hlive.stands occurrences rfl
    have hlaid := hlive.laid occurrences rfl
    have hmem : ∀ candidate, candidate ∈ layout.candidates groupId ↔
        (occurrences.isLeaf groupId = true ∧ candidate = occurrences.start) ∨
          candidate ∈ occurrences.parents groupId := by
      intro candidate
      rw [hcandidates]
      constructor
      · rintro ⟨other, hother, hcandidate⟩
        cases hother
        exact hcandidate
      · exact fun hcandidate => ⟨occurrences, rfl, hcandidate⟩
    rw [RetiringGroupLayout.remove, Option.bind_some]
    cases hleaf : occurrences.isLeaf groupId with
    | true =>
      cases occurrences with
      | split start finish data first second => exact absurd hleaf Bool.false_ne_true
      | leaf start finish other =>
        have hother : other = groupId := by simpa [Occurrences.isLeaf] using hleaf
        have hentry : layout.occurrences start = _ := hstands
        rw [@order_eq _ _ _ [start] hnodup (pairwise_singleton _ _) (fun ordinal => by
            rw [hmem, hleaf, mem_singleton]
            exact ⟨fun h => h.elim And.right fun h => absurd h not_mem_nil,
              fun h => Or.inl ⟨rfl, h⟩⟩)
          (fun ordinal hordinal => (hstands.alive ordinal hordinal).2)]
        rw [frontier, foldl_cons, foldl_nil, frontierStep,
          if_pos (Nat.zero_le _), nil_append, foldl_cons, foldl_nil, collapse,
          hentry, Occurrences.removeGroup, if_pos hother]
        refine ⟨rfl, (by rintro _ ⟨⟩), (by rintro _ ⟨⟩), fun other leaf => ?_⟩
        refine iff_of_false (fun hboth => ?_) fun h => h.elim fun _ h => by cases h.1
        -- the only live leaf is the one that died
        have hdead : (layout.modify start dies).aliveAt leaf = true := hboth.2
        have hlayout := aliveAt_modify alive_of_dies hdead
        obtain ⟨shown, hshown, hleafMem⟩ := (hlive.leaves other leaf).mp ⟨hboth.1, hlayout⟩
        cases hshown
        rw [Occurrences.leafStarts, mem_singleton] at hleafMem
        cases hleafMem
        rw [aliveAt, modify_self, hentry] at hdead
        exact absurd hdead Bool.false_ne_true
    | false =>
      have horder : layout.order (layout.candidates groupId) = occurrences.parents groupId :=
        order_eq hnodup hlaid.pairwise_parents
          (fun ordinal => by
            rw [hmem, hleaf]
            exact ⟨fun h => h.elim (fun h => absurd h.1 Bool.false_ne_true) id, Or.inr⟩)
          fun ordinal hordinal =>
            (hstands.alive ordinal (Occurrences.mem_starts_of_parents hordinal)).2
      obtain ⟨after, hfold, -⟩ := @foldl_frontierStep_parents _ _ _ groupId _ _ _ []
        _ hlaid hstands (Nat.zero_le 0)
      rw [horder, frontier, hfold, nil_append]
      have hbelow : ∀ place, (.root : Slot).parent = some place → place < 0 := by rintro _ ⟨⟩
      obtain ⟨rest, hrest, hcollapsed⟩ := @collapsed_tops _ _ _ _ _ _ .root hlaid hbelow hstands
        hlive.root trivial hleaf
      obtain ⟨hrestLaid, -, hrestLeaves⟩ := hlaid.removeGroup hrest
      rw [hrest]
      refine ⟨hcollapsed.points, ?_, ?_, fun other leaf => ?_⟩
      · rintro _ ⟨⟩
        exact hcollapsed.stands
      · rintro _ ⟨⟩
        rw [hcollapsed.ordinal]
        exact hrestLaid
      · rw [hcollapsed.leaves]
        constructor
        · rintro ⟨hleafMem, halive⟩
          obtain ⟨shown, hshown, hleafStarts⟩ :=
            (hlive.leaves other leaf).mp ⟨hleafMem, aliveAt_foldl_collapse halive⟩
          cases hshown
          by_contra hlost
          have hdead := hcollapsed.dead _ hleafStarts fun hkept => hlost ⟨rest, rfl, hkept⟩
          rw [halive] at hdead
          cases hdead
        · rintro ⟨shown, hshown, hleafStarts⟩
          cases hshown
          refine ⟨((hlive.leaves other leaf).mpr
            ⟨occurrences, rfl, hrestLeaves _ hleafStarts⟩).1, ?_⟩
          exact (hcollapsed.stands.alive leaf (Occurrences.mem_starts_of_leafStarts hleafStarts)).1

/-! ## Indexing and reading off -/

theorem index_spec (parent : Option ℕ) (layout : RetiringGroupLayout P) :
    ∃ occurrences : Occurrences P, occurrences.tree = node ∧ occurrences.start = layout.ordinal ∧
      occurrences.Laid layout.ordinal (index node parent layout).ordinal ∧
      Stands (index node parent layout) parent occurrences ∧
      (∀ ordinal < layout.ordinal,
        (index node parent layout).occurrences ordinal = layout.occurrences ordinal) ∧
      ∀ groupId leaf, leaf ∈ (index node parent layout).leaves groupId ↔
        leaf ∈ layout.leaves groupId ∨ (leaf, groupId) ∈ occurrences.leafStarts := by
  induction node generalizing parent layout with
  | leaf label =>
    refine ⟨.leaf layout.ordinal (layout.ordinal + 1) label, rfl, rfl,
      ⟨le_rfl, Nat.lt_succ_self _, le_rfl⟩, update_self _ _ _,
      fun ordinal hless => update_of_ne hless.ne _ _, fun groupId leaf => ?_⟩
    rw [Occurrences.leafStarts, mem_singleton, Prod.mk.injEq]
    change leaf ∈ Function.update layout.leaves label (layout.leaves label ++ [layout.ordinal])
      groupId ↔ _
    by_cases hgroup : groupId = label
    · subst hgroup
      rw [update_self, mem_append, mem_singleton]
      simp
    · rw [update_of_ne hgroup]
      simp [hgroup]
  | split data first second ihFirst ihSecond =>
    obtain ⟨firstShown, hfirstTree, hfirstStart, hfirstLaid, hfirstStands, hfirstBelow,
      hfirstLeaves⟩ := ihFirst (some layout.ordinal) { layout with ordinal := layout.ordinal + 1 }
    rw [index]
    generalize index first (some layout.ordinal) { layout with ordinal := layout.ordinal + 1 } =
      firstDone at *
    obtain ⟨secondShown, hsecondTree, hsecondStart, hsecondLaid, hsecondStands, hsecondBelow,
      hsecondLeaves⟩ := ihSecond (some layout.ordinal) firstDone
    generalize index second (some layout.ordinal) firstDone = secondDone at *
    have hmiddle := hfirstLaid.bounds _ firstShown.start_mem
    dsimp only at hmiddle hfirstStart hfirstBelow hfirstLeaves
    refine ⟨.split layout.ordinal secondDone.ordinal data firstShown secondShown, ?_, rfl,
      ⟨le_rfl, le_rfl, firstDone.ordinal, hfirstLaid, hsecondLaid⟩,
      ⟨⟨first, second, ?_⟩, ?_, ?_⟩, fun ordinal hless => ?_, fun groupId leaf => ?_⟩
    · rw [Occurrences.tree, hfirstTree, hsecondTree]
    · rw [hfirstStart, hsecondStart]
      exact update_self _ _ _
    · refine hfirstStands.congr fun ordinal hmem => ?_
      have hbounds : layout.ordinal + 1 ≤ ordinal ∧ ordinal < firstDone.ordinal :=
        hfirstLaid.bounds ordinal hmem
      rw [← hsecondBelow ordinal hbounds.2]
      exact update_of_ne (by dsimp only; omega) _ _
    · refine hsecondStands.congr fun ordinal hmem => ?_
      have hbounds := hsecondLaid.bounds ordinal hmem
      exact update_of_ne (by dsimp only; omega) _ _
    · rw [← hfirstBelow ordinal (by omega), ← hsecondBelow ordinal (by omega)]
      exact update_of_ne hless.ne _ _
    · rw [Occurrences.leafStarts, mem_append, ← or_assoc, ← hfirstLeaves]
      exact hsecondLeaves groupId leaf

theorem live_new :
    ∃ occurrences : Occurrences P, occurrences.tree = node ∧
      Live (new node) (some occurrences) := by
  obtain ⟨occurrences, htree, hstart, hlaid, hstands, -, hleaves⟩ := index_spec node none {}
  refine ⟨occurrences, htree, ?_, ?_, ?_, fun groupId leaf => ?_⟩
  · rw [Option.map_some, hstart]
    rfl
  · rintro _ ⟨⟩
    exact hstands.congr fun _ _ => rfl
  · rintro _ ⟨⟩
    exact hlaid
  · have hmem := hleaves groupId leaf
    rw [or_iff_right not_mem_nil] at hmem
    constructor
    · exact fun hboth => ⟨occurrences, rfl, hmem.mp hboth.1⟩
    · rintro ⟨shown, hshown, hleaf⟩
      cases hshown
      exact ⟨hmem.mpr hleaf, (hstands.alive leaf (Occurrences.mem_starts_of_leafStarts hleaf)).1⟩

theorem build_eq {fuel : ℕ} (hlaid : occurrences.Laid low high)
    (hstands : Stands layout parent occurrences) (hfuel : high ≤ low + fuel) :
    layout.build fuel occurrences.start = some occurrences.tree := by
  induction occurrences generalizing low high parent fuel with
  | leaf start finish other =>
    obtain ⟨hlow, hless, hhigh⟩ := hlaid
    cases fuel with
    | zero => omega
    | succ fuel =>
      rw [build, Occurrences.start, show layout.occurrences start = _ from hstands]
      rfl
  | split start finish data first second ihFirst ihSecond =>
    obtain ⟨hlow, hhigh, middle, hfirstLaid, hsecondLaid⟩ := hlaid
    obtain ⟨⟨firstNode, secondNode, hentry⟩, hfirst, hsecond⟩ := hstands
    have hfirstBounds := hfirstLaid.bounds _ first.start_mem
    have hsecondBounds := hsecondLaid.bounds _ second.start_mem
    cases fuel with
    | zero => omega
    | succ fuel =>
      have hfirstTree := @ihFirst _ _ _ fuel hfirstLaid hfirst (by omega)
      have hsecondTree := @ihSecond _ _ _ fuel hsecondLaid hsecond (by omega)
      rw [build, Occurrences.start, hentry, Option.bind_eq_bind, Option.bind_some]
      dsimp only [Option.bind_eq_bind, Option.bind_some]
      rw [hfirstTree, hsecondTree]
      rfl

theorem Live.materialize (hlive : Live layout current) :
    layout.materialize = current.map Occurrences.tree := by
  rw [RetiringGroupLayout.materialize, hlive.root]
  cases current with
  | none => rfl
  | some occurrences =>
    exact build_eq (hlive.laid occurrences rfl) (hlive.stands occurrences rfl) (by omega)

def Shows (layout : RetiringGroupLayout P) (tree : Option (TabGroupLayoutNode P)) : Prop :=
  ∃ current, Live layout current ∧ current.map Occurrences.tree = tree

theorem shows_new : Shows (new node) (some node) := by
  obtain ⟨occurrences, rfl, hlive⟩ := live_new node
  exact ⟨some occurrences, hlive, rfl⟩

theorem Shows.remove {tree : Option (TabGroupLayoutNode P)} (hshows : Shows layout tree)
    (groupId : String) : Shows (layout.remove groupId) (tree.bind (·.removeLeaf groupId)) := by
  obtain ⟨current, hlive, rfl⟩ := hshows
  refine ⟨_, hlive.remove groupId, ?_⟩
  cases current with
  | none => rfl
  | some occurrences => exact Occurrences.tree_removeGroup groupId occurrences

theorem Shows.materialize {tree : Option (TabGroupLayoutNode P)} (hshows : Shows layout tree) :
    layout.materialize = tree := by
  obtain ⟨current, hlive, rfl⟩ := hshows
  exact hlive.materialize

end RetiringGroupLayout

end Wakii.LayoutLoad
