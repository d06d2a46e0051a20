import Wakii.Layout.LoadRetirementSound

/-!
# Retiring all the panes that ended

One tombstone does to the index what it does to the model, so all of them do,
and what is written back is the model that is left.
-/

namespace Wakii.LayoutLoad

open List OrderedCollections SplitTrees OrderedMap AList
open Wakii.CommandSteps Wakii.LayoutCommands Wakii.LayoutModel Wakii.Transitions

variable {P : Type} {model : WorkspaceLayoutModel P} {state : Retirement P} {edit : LayoutEdit P}
  {entityId key : String} {incarnations : OrderedMap String String} {tombstone : SurfaceTombstone}

/-! ## One tombstone on the model -/

theorem applyTombstone_gone (hgone : locateExitedSurface edit.model tombstone.surface = .gone) :
    applyTombstone (edit, incarnations) tombstone =
      (edit, incarnations.erase tombstone.paneKey) := by
  rw [applyTombstone, retireExitedSurface, hgone]
  simp

theorem applyTombstone_replaced
    (hreplaced : locateExitedSurface edit.model tombstone.surface = .replaced) :
    applyTombstone (edit, incarnations) tombstone = (edit, incarnations) := by
  rw [applyTombstone, retireExitedSurface, hreplaced]
  rfl

theorem applyTombstone_found {location : TerminalTabLocation P}
    (hfound : locateExitedSurface edit.model tombstone.surface = .found location) :
    applyTombstone (edit, incarnations) tombstone =
      (retireTerminalPane edit location tombstone.leafId, incarnations) := by
  rw [applyTombstone, retireExitedSurface, hfound]
  simp [retireTerminalPane, withWorkspace, SurfaceTombstone.surface]

theorem locateExitedSurface_eq_gone {surface : ExitedSurface}
    (hnone : ∀ location, findTerminalTab model surface.terminalTabId = some location →
      layoutContainsLeafId location.tab.panes.root surface.leafId = false) :
    locateExitedSurface model surface = .gone := by
  have hfilter : (findTerminalTab model surface.terminalTabId).filter
      (fun location => layoutContainsLeafId location.tab.panes.root surface.leafId) = none := by
    rw [Option.filter_eq_none_iff]
    intro location hlocation
    rw [hnone location hlocation]
    exact Bool.false_ne_true
  rw [locateExitedSurface, hfilter]

theorem locateExitedSurface_eq {surface : ExitedSurface} {location : TerminalTabLocation P}
    (hlocation : findTerminalTab model surface.terminalTabId = some location)
    (hcontains : layoutContainsLeafId location.tab.panes.root surface.leafId = true) :
    locateExitedSurface model surface =
      if Retirement.isReplaced (leafOf location.workspace surface.leafId) surface then .replaced
      else .found location := by
  have hfilter : (findTerminalTab model surface.terminalTabId).filter
      (fun location => layoutContainsLeafId location.tab.panes.root surface.leafId) =
        some location := by
    rw [hlocation, Option.filter_some, if_pos hcontains]
  rw [locateExitedSurface, hfilter, Retirement.isReplaced]
  dsimp only
  simp only [Bool.or_eq_true]
  split_ifs <;> tauto

theorem layoutContainsLeafId_iff {root : Option (TerminalPaneLayoutNode P)} {leafId : String} :
    layoutContainsLeafId root leafId = true ↔ leafId ∈ SplitTree.leavesOf root := by
  cases root with
  | none => simp [layoutContainsLeafId]
  | some root => exact SplitTree.holds_iff

/-! ## A workspace that lost a pane -/

namespace RetiringWorkspace

variable {workspace : RetiringWorkspace P} {tab : LayoutTerminalTab P} {panes : RetiringPanes P}
  {leafId : String}

theorem cohort_retire (other : String) : (workspace.retire tab panes leafId).cohort other =
      if other = tab.id then
        if (panes.remove leafId).1 = true then { workspace.cohort tab.id with dead := true }
        else (workspace.cohort tab.id).lessPane tab panes leafId
      else workspace.cohort other := by
  rw [retire]
  dsimp only
  by_cases hempty : (panes.remove leafId).1 = true
  · rw [if_pos hempty, if_pos hempty]
    exact cohort_setCohort _ _ _ _
  · rw [if_neg hempty, if_neg hempty]
    exact cohort_setCohort _ _ _ _

theorem retire_written : (workspace.retire tab panes leafId).changed = true ∧
    (workspace.retire tab panes leafId).original = workspace.original := by
  rw [retire]
  dsimp only
  split_ifs <;> exact ⟨rfl, rfl⟩

end RetiringWorkspace

namespace Retirement

/-! ## One tombstone on the index -/

section Retired

variable {kept : Retirement P} {slot : TerminalSlot P} {panes : RetiringPanes P}
  {workspace : RetiringWorkspace P} {now : WorkspaceLayout P}
  (hkept : Kept model state kept edit entityId slot panes)
include hkept

theorem Kept.found : ∃ now, edit.workspace? slot.workspaceKey = some now ∧
    CommandSteps.findTerminalTab edit.model entityId = some ⟨slot.workspaceKey, now,
      (kept.cohortOf slot.workspaceKey slot.tab.id).currentTab slot.tab⟩ := by
  obtain ⟨current, hcurrent, hplace⟩ := hkept.current
  obtain ⟨hkey, htab⟩ := Prod.mk.inj hplace
  have hadmits : kept.admits entityId current = true := by
    have := hkept.admits
    rw [Retirement.admits] at this ⊢
    rwa [hkey, htab]
  obtain ⟨now, hnow, hfind⟩ := findTerminalTab_eq_some hkept.covers hkept.indexed hcurrent hadmits
  rw [hkey, htab] at hfind
  rw [hkey] at hnow
  exact ⟨now, hnow, hfind⟩

theorem Kept.entityId_eq : slot.tab.entityId = entityId := by
  obtain ⟨current, hcurrent, hplace⟩ := hkept.current
  have hin : placeOf current ∈ (kept.slotsOf entityId).map placeOf :=
    mem_map_of_mem (mem_of_getElem? hcurrent)
  rw [hkept.indexed.slots entityId, hplace] at hin
  exact of_decide_eq_true (mem_filter.mp hin).2

variable (hlookup : kept.workspaces.lookup slot.workspaceKey = some workspace)
include hlookup

omit hkept in
theorem cohortOf_slot :
    kept.cohortOf slot.workspaceKey slot.tab.id = workspace.cohort slot.tab.id := by
  rw [cohortOf, hlookup]
  rfl

theorem Kept.alive : (workspace.cohort slot.tab.id).dead = false := by
  rw [← cohortOf_slot hlookup]
  exact (admits_eq.mp hkept.admits).1

/-- The cohort that lost a pane is the one under the cursor of its row. -/
theorem Kept.indexed_retire (leafId : String) : Indexed model
    (kept.modifyWorkspace slot.workspaceKey fun workspace =>
      workspace.retire slot.tab panes leafId) := by
  have halive := hkept.alive hlookup
  refine hkept.indexed.modify hlookup (fun tabId hdead => ?_) (fun tabId template htemplate => ?_)
    fun tabId template htemplate => ?_
  · rw [RetiringWorkspace.cohort_retire]
    split_ifs with htabId hempty
    · rfl
    · rw [htabId, halive] at hdead
      cases hdead
    · exact hdead
  · rw [RetiringWorkspace.cohort_retire]
    split_ifs with htabId hempty
    · exact htabId ▸ htemplate
    · rw [htabId, Option.mem_def] at htemplate
      rw [Cohort.lessPane, htemplate]
      rfl
    · exact htemplate
  · rw [RetiringWorkspace.cohort_retire] at htemplate
    split_ifs at htemplate with htabId hempty
    · exact Or.inl (htabId ▸ htemplate)
    · rw [Cohort.lessPane, Option.mem_def, Option.some_inj] at htemplate
      cases hbefore : (workspace.cohort slot.tab.id).template with
      | none =>
        obtain ⟨current, hcurrent, hplace⟩ := hkept.current
        obtain ⟨hkey, htab⟩ := Prod.mk.inj hplace
        rw [hbefore, Option.getD_none] at htemplate
        subst htemplate
        refine Or.inr ⟨current, ?_, hkey, htab ▸ htabId.symm⟩
        rw [hkept.entityId_eq]
        exact hcurrent
      | some before =>
        rw [hbefore, Option.getD_some] at htemplate
        subst htemplate
        rw [htabId]
        exact Or.inl hbefore
    · exact Or.inl htemplate

/-- The workspace that is written is the one whose pane was retired. -/
theorem Kept.covers_retire (hknown : panes.Known)
    (hnow : edit.workspace? slot.workspaceKey = some now) (hretires : workspace.Retires now)
    (leafId : String) : Covers model
      (kept.modifyWorkspace slot.workspaceKey fun workspace =>
        workspace.retire slot.tab panes leafId)
      (retireTerminalPane edit ⟨slot.workspaceKey, now,
        (workspace.cohort slot.tab.id).currentTab slot.tab⟩ leafId) := by
  have hpanes := hkept.panes
  rw [cohortOf_slot hlookup] at hpanes
  obtain ⟨hchanged, hsame⟩ := @RetiringWorkspace.retire_written _ workspace slot.tab panes leafId
  have hmemKey : slot.workspaceKey ∈ edit.model.workspaces :=
    lookup_isSome.mp (by rw [show edit.model.workspaces.lookup _ = _ from hnow]; rfl)
  refine hkept.covers.modify hlookup hkept.covers.frame ?_ (fun other hother => ⟨?_, ?_⟩)
    ?_ hsame (hretires.retire (hkept.alive hlookup) hknown hpanes leafId) ?_
  · exact keys_set_of_mem _ hmemKey
  · exact lookup_set_ne _ _ hother
  · rw [retireTerminalPane, withWorkspace, mem_append, mem_singleton]
    exact or_iff_left hother
  · exact lookup_set_self _ _ _
  · rw [hchanged, retireTerminalPane, withWorkspace, mem_append, mem_singleton]
    exact iff_of_true (Or.inr rfl) rfl

end Retired

/-- The index stands for the layout under edit, and for the incarnations beside it. -/
structure Stands (model : WorkspaceLayoutModel P) (state : Retirement P)
    (retiring : Retiring P) : Prop where
  covers : Covers model state retiring.1
  indexed : Indexed model state
  incarnations : state.incarnations = retiring.2

section

variable (hstands : Stands model state (edit, incarnations))
include hstands

theorem Stands.forget (tombstone : SurfaceTombstone) :
    Stands model (state.forget tombstone) (edit, incarnations.erase tombstone.paneKey) where
  covers := hstands.covers.congr rfl
  indexed := ⟨hstands.indexed.slots, hstands.indexed.walked, hstands.indexed.passed,
    hstands.indexed.current⟩
  incarnations := congrArg (·.erase tombstone.paneKey) hstands.incarnations

/-- The walk meets the pane where the tab that the model finds shows it; then the pane is
retired in both, unless another terminal has it by now. -/
theorem Stands.retireSlot {entity : TerminalEntity P} {slot : TerminalSlot P}
    (hentity : state.entities.lookup tombstone.parentTabId = some entity)
    (hslot : entity.slots[entity.cursor]? = some slot)
    (hadmits : state.admits tombstone.parentTabId slot = true) :
    Stands model (state.retireSlot tombstone entity slot)
      (applyTombstone (edit, incarnations) tombstone) := by
  have hmem : slot ∈ state.slotsOf tombstone.parentTabId := by
    rw [(slotsOf_of_lookup hentity).1]
    exact mem_of_getElem? hslot
  have hspec := panesOf_spec hstands.covers hstands.indexed hmem
  obtain ⟨hcontains, hroot, hremoved, hknown⟩ := hspec.1.contains tombstone.leafId
  rw [Retirement.retireSlot]
  generalize (state.panesOf slot).contains tombstone.leafId = walk at *
  obtain ⟨isFound, panes⟩ := walk
  dsimp only at hcontains hroot hremoved hknown ⊢
  have hkept := kept_keepPanes hstands.covers hstands.indexed hentity hslot hadmits hknown hroot
    hremoved
  generalize state.keepPanes tombstone.parentTabId entity slot panes = kept at hkept ⊢
  have hkeptStands : Stands model kept (edit, incarnations) :=
    ⟨hkept.covers, hkept.indexed, hkept.incarnations.trans hstands.incarnations⟩
  obtain ⟨now, hnow, hfind⟩ := hkept.found
  have hisFound : isFound = true ↔ layoutContainsLeafId
      ((kept.cohortOf slot.workspaceKey slot.tab.id).currentTab slot.tab).panes.root
        tombstone.leafId = true := by
    rw [hcontains, layoutContainsLeafId_iff, ← hkept.panes, RetiringPanes.materialize,
      RetiringPanes.materialize, hroot, hremoved]
  cases hfoundCase : isFound with
  | false =>
    rw [hfoundCase] at hisFound
    have hgone : locateExitedSurface edit.model tombstone.surface = .gone := by
      refine locateExitedSurface_eq_gone fun location hlocation => ?_
      rw [show findTerminalTab edit.model tombstone.surface.terminalTabId = _ from hfind]
        at hlocation
      cases hlocation
      exact Bool.eq_false_iff.mpr fun hin => Bool.false_ne_true (hisFound.mpr hin)
    rw [applyTombstone_gone hgone]
    exact hkeptStands.forget tombstone
  | true =>
    have hin := hisFound.mp hfoundCase
    have hlocate := @locateExitedSurface_eq _ _ tombstone.surface _ hfind hin
    obtain ⟨original, horiginal⟩ : ∃ original,
        model.workspaces.lookup slot.workspaceKey = some original := by
      refine Option.isSome_iff_exists.mp (lookup_isSome.mpr ?_)
      rw [AList.mem_keys, ← hkept.covers.editKeys, ← AList.mem_keys]
      exact lookup_isSome.mp (by rw [show edit.model.workspaces.lookup _ = _ from hnow]; rfl)
    obtain ⟨workspace, other, hlookup, hother, -, hretires, hwritten⟩ :=
      hkept.covers.each slot.workspaceKey original horiginal
    rw [hnow] at hother
    cases hother
    have hleaf : kept.leafOf slot.workspaceKey tombstone.leafId =
        CommandSteps.leafOf now tombstone.leafId := by
      rw [Retirement.leafOf, hlookup, CommandSteps.leafOf, WorkspaceLayout.leaf?, hretires.leaves]
      rfl
    rw [hleaf]
    dsimp only at hlocate
    change locateExitedSurface _ _ = if isReplaced (CommandSteps.leafOf now tombstone.leafId)
      tombstone.surface = true then _ else _ at hlocate
    by_cases hreplaced : isReplaced (CommandSteps.leafOf now tombstone.leafId)
      tombstone.surface = true
    · rw [if_pos hreplaced] at hlocate ⊢
      rw [applyTombstone_replaced hlocate]
      exact hkeptStands
    · rw [if_neg hreplaced] at hlocate ⊢
      rw [applyTombstone_found hlocate, cohortOf_slot hlookup]
      exact ⟨hkept.covers_retire hlookup hknown hnow hretires tombstone.leafId,
        hkept.indexed_retire hlookup tombstone.leafId,
        (entities_modifyWorkspace kept slot.workspaceKey _).2.trans hkeptStands.incarnations⟩

/-- One tombstone does to the index what it does to the model. -/
theorem Stands.retireSurface
    (tombstone : SurfaceTombstone) : Stands model (state.retireSurface tombstone)
      (applyTombstone (edit, incarnations) tombstone) := by
  have hgone : ∀ {other : Retirement P}, Stands model other (edit, incarnations) →
      (other.slotsOf tombstone.parentTabId)[other.cursorOf tombstone.parentTabId]? = none →
        Stands model (other.forget tombstone)
          (applyTombstone (edit, incarnations) tombstone) := by
    intro other hother hnone
    have hfind := findTerminalTab_eq_none hother.covers hother.indexed hnone
    rw [applyTombstone_gone (locateExitedSurface_eq_gone fun location hlocation => by
      rw [show findTerminalTab edit.model tombstone.surface.terminalTabId = _ from hfind]
        at hlocation
      cases hlocation)]
    exact hother.forget tombstone
  rw [Retirement.retireSurface]
  cases hentity : state.entities.lookup tombstone.parentTabId with
  | none =>
    refine hgone hstands ?_
    rw [slotsOf, hentity]
    rfl
  | some entity =>
    dsimp only
    have hindexed := hstands.indexed.advance hentity
    have hadvanced : Stands model (state.setEntity tombstone.parentTabId
        (state.advance tombstone.parentTabId entity)) (edit, incarnations) :=
      ⟨hstands.covers.congr rfl, hindexed, hstands.incarnations⟩
    have hlookup : (state.setEntity tombstone.parentTabId
        (state.advance tombstone.parentTabId entity)).entities.lookup tombstone.parentTabId =
          some (state.advance tombstone.parentTabId entity) :=
      lookup_set_self _ _ _
    cases hslot : (state.advance tombstone.parentTabId entity).slots[(state.advance
        tombstone.parentTabId entity).cursor]? with
    | none =>
      refine hgone hadvanced ?_
      rw [(slotsOf_of_lookup hlookup).1, (slotsOf_of_lookup hlookup).2]
      exact hslot
    | some slot => exact hadvanced.retireSlot hlookup hslot (admits_advance hslot)

end

/-! ## The index of a loaded model -/

theorem lookup_foldl_addSlot (places : List (String × LayoutTerminalTab P))
    (entities : OrderedMap String (TerminalEntity P)) (entityId : String) :
    (((places.foldl addSlot entities).lookup entityId).getD {}) =
      { (entities.lookup entityId).getD {} with
        slots := ((entities.lookup entityId).getD {}).slots ++
          (places.filter (·.2.entityId = entityId)).map fun place =>
            { workspaceKey := place.1, tab := place.2 } } := by
  induction places generalizing entities with
  | nil => rw [foldl_nil, filter_nil, map_nil, append_nil]
  | cons place places ih =>
    rw [foldl_cons, ih, addSlot, lookup_set]
    by_cases hplace : place.2.entityId = entityId
    · subst hplace
      simp
    · rw [if_neg (Ne.symm hplace)]
      simp [hplace]

/-- A new retirement stands for the layout it is made of. -/
theorem stands_new (model : WorkspaceLayoutModel P) (incarnations : OrderedMap String String) :
    Stands model (.new model incarnations) ({ model }, incarnations) := by
  have hlookup : ∀ key, (new model incarnations).workspaces.lookup key =
      (model.workspaces.lookup key).map RetiringWorkspace.new :=
    fun key => lookup_mapValues _ _ _
  have hentity : ∀ entityId, ((new model incarnations).entities.lookup entityId).getD {} =
      { slots := (((tabPlaces model).filterMap terminalPlace).filter
          (·.2.entityId = entityId)).map fun place => { workspaceKey := place.1, tab := place.2 }
        cursor := 0 } := fun entityId => by
    rw [new, lookup_foldl_addSlot]
    rfl
  have hslots : ∀ entityId, (new model incarnations).slotsOf entityId =
      (((new model incarnations).entities.lookup entityId).getD {}).slots := fun entityId => by
    rw [slotsOf]
    cases (new model incarnations).entities.lookup entityId <;> rfl
  have hcursor : ∀ entityId, (new model incarnations).cursorOf entityId =
      (((new model incarnations).entities.lookup entityId).getD {}).cursor := fun entityId => by
    rw [cursorOf]
    cases (new model incarnations).entities.lookup entityId <;> rfl
  refine
    { covers :=
        { frame := ⟨rfl, rfl, rfl⟩
          keys := keys_mapValues _ _
          editKeys := rfl
          each := fun key original horiginal => ⟨.new original, original, ?_, horiginal, rfl,
            RetiringWorkspace.retires_new original, ?_⟩ }
      indexed := ⟨fun entityId => ?_, fun entityId slot hslot => ?_, fun entityId => ?_,
        fun key tabId halive template htemplate => ?_⟩
      incarnations := rfl }
  · rw [hlookup, horiginal, Option.map_some]
  · exact iff_of_false not_mem_nil Bool.false_ne_true
  · rw [hslots, hentity, map_map]
    exact map_id _
  · rw [hslots, hentity, mem_map] at hslot
    obtain ⟨place, -, rfl⟩ := hslot
    exact fun _ h => by cases h
  · rw [hcursor, hentity]
    exact fun _ h => absurd h not_mem_nil
  · have hcohort : (new model incarnations).cohortOf key tabId = {} := by
      rw [cohortOf, hlookup]
      cases model.workspaces.lookup key with
      | none => rfl
      | some original => exact RetiringWorkspace.cohort_new original tabId
    rw [hcohort] at htemplate
    cases htemplate

theorem stands_foldl (tombstones : List SurfaceTombstone) {retiring : Retiring P}
    (hstands : Stands model state retiring) :
    Stands model (tombstones.foldl retireSurface state)
      (tombstones.foldl applyTombstone retiring) := by
  induction tombstones generalizing state retiring with
  | nil => exact hstands
  | cons tombstone tombstones ih =>
    obtain ⟨edit, incarnations⟩ := retiring
    exact ih (hstands.retireSurface tombstone)

/-! ## Writing the workspaces back -/

/-- What writing some workspaces back leaves: those that changed are read off. -/
theorem foldl_written (entries : List (String × RetiringWorkspace P)) (next : LayoutEdit P)
    (hnodup : (entries.map Prod.fst).Nodup)
    (hkeys : ∀ entry ∈ entries, entry.1 ∈ next.model.workspaces)
    {after : LayoutEdit P} (hafter : entries.foldl (fun next entry =>
      if entry.2.changed then withWorkspace next entry.1 entry.2.materialize else next) next =
        after) :
    (after.model.hostId = next.model.hostId ∧ after.model.records = next.model.records ∧
      after.model.legacy = next.model.legacy) ∧
    after.model.workspaces.keys = next.model.workspaces.keys ∧
    (∀ key, key ∉ entries.map Prod.fst → after.workspace? key = next.workspace? key ∧
      (key ∈ after.written ↔ key ∈ next.written)) ∧
    ∀ entry ∈ entries, (after.workspace? entry.1 =
        if entry.2.changed then some entry.2.materialize else next.workspace? entry.1) ∧
      (entry.1 ∈ after.written ↔ entry.1 ∈ next.written ∨ entry.2.changed = true) := by
  induction entries generalizing next with
  | nil =>
    subst hafter
    exact ⟨⟨rfl, rfl, rfl⟩, rfl, fun _ _ => ⟨rfl, Iff.rfl⟩, fun _ h => absurd h not_mem_nil⟩
  | cons head entries ih =>
    rw [map_cons, nodup_cons] at hnodup
    rw [foldl_cons] at hafter
    generalize hstep : (if head.2.changed then withWorkspace next head.1 head.2.materialize
      else next) = between at hafter
    have hframe : (between.model.hostId = next.model.hostId ∧
        between.model.records = next.model.records ∧ between.model.legacy = next.model.legacy) ∧
        between.model.workspaces.keys = next.model.workspaces.keys := by
      rw [← hstep]
      split_ifs
      · exact ⟨⟨rfl, rfl, rfl⟩, keys_set_of_mem _ (hkeys head mem_cons_self)⟩
      · exact ⟨⟨rfl, rfl, rfl⟩, rfl⟩
    have hhead : (between.workspace? head.1 =
        if head.2.changed then some head.2.materialize else next.workspace? head.1) ∧
        (head.1 ∈ between.written ↔ head.1 ∈ next.written ∨ head.2.changed = true) := by
      rw [← hstep]
      split_ifs with hchanged
      · refine ⟨lookup_set_self _ _ _, iff_of_true ?_ (Or.inr hchanged)⟩
        exact mem_append_right _ (mem_singleton_self _)
      · exact ⟨rfl, (or_iff_left hchanged).symm⟩
    have hother : ∀ key, key ≠ head.1 → between.workspace? key = next.workspace? key ∧
        (key ∈ between.written ↔ key ∈ next.written) := by
      intro key hkey
      rw [← hstep]
      split_ifs
      · refine ⟨lookup_set_ne _ _ hkey, ?_⟩
        rw [withWorkspace, mem_append, mem_singleton]
        exact or_iff_left hkey
      · exact ⟨rfl, Iff.rfl⟩
    obtain ⟨hrestFrame, hrestKeys, hrestOther, hrestEntries⟩ := ih between hnodup.2
      (fun entry hentry => by
        rw [AList.mem_keys, hframe.2, ← AList.mem_keys]
        exact hkeys entry (mem_cons_of_mem _ hentry)) hafter
    refine ⟨⟨hrestFrame.1.trans hframe.1.1, hrestFrame.2.1.trans hframe.1.2.1,
      hrestFrame.2.2.trans hframe.1.2.2⟩, hrestKeys.trans hframe.2, fun key hkey => ?_,
      fun entry hentry => ?_⟩
    · rw [map_cons, mem_cons, not_or] at hkey
      obtain ⟨hworkspace, hwritten⟩ := hrestOther key hkey.2
      obtain ⟨hworkspaceHead, hwrittenHead⟩ := hother key hkey.1
      exact ⟨hworkspace.trans hworkspaceHead, hwritten.trans hwrittenHead⟩
    · rcases mem_cons.mp hentry with rfl | hentry
      · obtain ⟨hworkspace, hwritten⟩ := hrestOther entry.1 hnodup.1
        exact ⟨hworkspace.trans hhead.1, hwritten.trans hhead.2⟩
      · have hne : entry.1 ≠ head.1 := fun hsame =>
          hnodup.1 (hsame ▸ mem_map_of_mem hentry)
        obtain ⟨hworkspace, hwritten⟩ := hrestEntries entry hentry
        rw [(hother entry.1 hne).1] at hworkspace
        rw [(hother entry.1 hne).2] at hwritten
        exact ⟨hworkspace, hwritten⟩

theorem eq_of_fields {left right : WorkspaceLayoutModel P} (hhost : left.hostId = right.hostId)
    (hworkspaces : left.workspaces = right.workspaces) (hrecords : left.records = right.records)
    (hlegacy : left.legacy = right.legacy) : left = right := by
  obtain ⟨⟩ := left
  obtain ⟨⟩ := right
  exact (WorkspaceLayoutModel.mk.injEq ..).mpr ⟨hhost, hworkspaces, hrecords, hlegacy⟩

theorem Covers.written (hcovers : Covers model state edit) :
    (state.written model).model = edit.model ∧
      ∀ key ∈ model.workspaces, key ∈ (state.written model).written ↔ key ∈ edit.written := by
  obtain ⟨hframe, hkeys, -, hentries⟩ := foldl_written state.workspaces.pairs { model }
    (by rw [map_fst_pairs]; exact state.workspaces.keys_nodup)
    (fun entry hentry => by
      rw [AList.mem_keys, ← hcovers.keys, ← AList.mem_keys, ← lookup_isSome, mem_pairs.mp hentry]
      rfl)
    (show _ = state.written model from rfl)
  have hworkspaces : (state.written model).model.workspaces = edit.model.workspaces := by
    refine ext_keys_lookup (hkeys.trans hcovers.editKeys.symm) fun key => ?_
    cases horiginal : model.workspaces.lookup key with
    | none =>
      have hout : key ∉ model.workspaces := lookup_eq_none.mp horiginal
      rw [lookup_eq_none.mpr fun h => hout (by
          rwa [AList.mem_keys, hkeys, ← AList.mem_keys] at h),
        lookup_eq_none.mpr fun h => hout (by
          rwa [AList.mem_keys, hcovers.editKeys, ← AList.mem_keys] at h)]
    | some original =>
      obtain ⟨workspace, now, hlookup, hnow, rfl, hretires, -⟩ :=
        hcovers.each key original horiginal
      refine ((hentries (key, workspace) (mem_pairs.mpr hlookup)).1.trans ?_).trans hnow.symm
      dsimp only
      split_ifs with hchanged
      · rw [hretires.materialize]
      · rw [hretires.untouched (Bool.eq_false_iff.mpr hchanged)]
        exact horiginal
  refine ⟨?_, fun key hkey => ?_⟩
  · obtain ⟨hhost, hrecords, hlegacy⟩ := hframe
    obtain ⟨hhostEdit, hrecordsEdit, hlegacyEdit⟩ := hcovers.frame
    exact eq_of_fields (hhost.trans hhostEdit.symm) hworkspaces (hrecords.trans hrecordsEdit.symm)
      (hlegacy.trans hlegacyEdit.symm)
  · obtain ⟨original, horiginal⟩ := Option.isSome_iff_exists.mp (lookup_isSome.mpr hkey)
    obtain ⟨workspace, now, hlookup, -, -, -, hwritten⟩ := hcovers.each key original horiginal
    have hentry := (hentries (key, workspace) (mem_pairs.mpr hlookup)).2
    rw [hwritten]
    exact hentry.trans (or_iff_right not_mem_nil)

end Retirement

theorem updateLegacyPersistence_congr {left right : LayoutEdit P} {retired : List String}
    (hmodel : left.model = right.model)
    (hwritten : ∀ key ∈ model.workspaces, key ∈ left.written ↔ key ∈ right.written) :
    updateLegacyPersistence model left retired = updateLegacyPersistence model right retired := by
  obtain ⟨after, leftWritten⟩ := left
  obtain ⟨other, rightWritten⟩ := right
  cases hmodel
  have hstep : legacyStep model ⟨after, leftWritten⟩ = legacyStep model ⟨after, rightWritten⟩ := by
    funext changes key
    rw [legacyStep, legacyStep]
    cases hold : model.workspaces.lookup key with
    | none => cases hnext : after.workspaces.lookup key <;> simp [LayoutEdit.workspace?, hnext]
    | some old =>
      have hkey := hwritten key (lookup_isSome.mp (by rw [hold]; rfl))
      dsimp only at hkey
      simp only [LayoutEdit.workspace?, hkey]
  rw [updateLegacyPersistence, updateLegacyPersistence, hstep]

/-- Retiring over the index is retiring one pane at a time. -/
theorem retireLoadedLegacySurfaces_eq (model : WorkspaceLayoutModel P)
    (session : WorkspaceSessionState P) (incarnations : OrderedMap String String) :
    retireLoadedLegacySurfaces model session incarnations =
      applyLegacySurfaceTombstones model session incarnations := by
  rw [retireLoadedLegacySurfaces, applyLegacySurfaceTombstones]
  dsimp only
  split_ifs with hnone
  · rw [hnone]
    rfl
  · have hstands := Retirement.stands_foldl session.tombstones
      (Retirement.stands_new model incarnations)
    obtain ⟨hmodel, hwritten⟩ := hstands.covers.written
    rw [updateLegacyPersistence_congr hmodel hwritten, hstands.incarnations]

end Wakii.LayoutLoad
