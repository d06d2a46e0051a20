import Wakii.Layout.ContentCommandsSound

/-!
# Moving and renaming editor tabs keep a layout sound

Tabs that change workspaces are planned first, against the layout as it stands;
the plan then holds each new id once.  Renamed tabs are renamed in the groups
with the same map, which sends no two tabs to one id.
-/

namespace Wakii.EditorMovesSound

open List KeyedLists OrderedCollections OrderedMap
open Wakii.CommandSteps Wakii.CommandTypes Wakii.ContentCommands Wakii.ContentCommandsSound
open Wakii.GroupCommandsSound Wakii.LayoutModel Wakii.LayoutSoundness
open Wakii.StepsSound Wakii.TabCommandsSound

variable {P : Type} {spare : String → String → Prop} {edit : LayoutEdit P} {key : String}
  {workspace : WorkspaceLayout P}

/-! ## The plan of a move -/

variable {tab : LayoutTab P}

theorem paneIds_of_isEditorKind (hkind : isEditorKind tab = true) : tab.paneIds = [] := by
  cases tab with
  | terminal tab => cases hkind
  | content tab => rfl

/-- What is planned for a tab: it is an editor tab of the source, and no other
tab has its new id. -/
structure PlannedFrom (edit : LayoutEdit P) (fromKey : String) (source : WorkspaceLayout P)
    (planned : PlannedMove P) : Prop where
  held : planned.tab ∈ source.tabs
  id : planned.tab.id = planned.move.tabId
  kind : isEditorKind planned.tab = true
  free : isHeldByOther edit fromKey planned.move.tabId planned.move.newTabId = false

/-- The plan so far moves some of the tabs, in their order, and folds others. -/
structure PlanSound (edit : LayoutEdit P) (fromKey : String) (source : WorkspaceLayout P)
    (moves : List (EditorTabMove P)) (plan : MovePlan P) : Prop where
  planned : ∀ planned ∈ plan.moves, PlannedFrom edit fromKey source planned
  order : (plan.moves.map (·.move)).Sublist moves
  folds : ∀ tab ∈ plan.folds, tab ∈ source.tabs ∧ isEditorKind tab = true

variable (runtime : LayoutRuntime P) {fromKey : String} (toKey groupId : String)
  {source : WorkspaceLayout P} (context : LayoutContext) {ids : OrderedMap String String}
  {moves : List (EditorTabMove P)}

/-- One more move is planned. -/
theorem planSound_planMove {plan next : MovePlan P} {move : EditorTabMove P}
    (hplan : PlanSound edit fromKey source moves plan)
    (hnext : planMove runtime edit fromKey source plan move = .ok next) :
    PlanSound edit fromKey source (moves ++ [move]) next ∧
      (plan.moves ≠ [] ∨ plan.shown = ∅ → next.moves ≠ []) := by
  have horder := hplan.order.trans (sublist_append_left moves [move])
  rw [planMove] at hnext
  cases htab : findTab source move.tabId with
  | none =>
    rw [htab] at hnext
    cases hnext
  | some tab =>
    obtain ⟨hmem, hid⟩ := mem_of_findTab htab
    rw [htab] at hnext
    dsimp only at hnext
    split at hnext
    · cases hnext
    next hkind =>
      have hkind : isEditorKind tab = true := by simpa using hkind
      split at hnext
      next kept hshown =>
        cases hnext
        refine ⟨⟨hplan.planned, horder, fun other hother => ?_⟩, fun hstart => ?_⟩
        · rcases mem_append.mp hother with hold | hlast
          · exact hplan.folds other hold
          · rw [mem_singleton.mp hlast]
            exact ⟨hmem, hkind⟩
        · refine hstart.resolve_right fun hempty => ?_
          rw [hempty, AList.lookup_empty] at hshown
          cases hshown
      next =>
        split at hnext
        · cases hnext
        next hfree =>
          cases hnext
          refine ⟨⟨fun planned hplanned => ?_, ?_, hplan.folds⟩, fun _ => ?_⟩
          · rcases mem_append.mp hplanned with hold | hlast
            · exact hplan.planned planned hold
            · rw [mem_singleton.mp hlast]
              exact ⟨hmem, hid, hkind, by simpa using hfree⟩
          · rw [map_append]
            exact hplan.order.append (List.Sublist.refl _)
          · simp

theorem planSound_foldlM {done rest : List (EditorTabMove P)} {plan last : MovePlan P}
    (hplan : PlanSound edit fromKey source done plan)
    (hlast : rest.foldlM (planMove runtime edit fromKey source) plan = .ok last) :
    PlanSound edit fromKey source (done ++ rest) last ∧
      (rest ≠ [] → plan.moves ≠ [] ∨ plan.shown = ∅ → last.moves ≠ []) ∧
        (plan.moves ≠ [] → last.moves ≠ []) := by
  induction rest generalizing done plan with
  | nil =>
    cases hlast
    rw [append_nil]
    exact ⟨hplan, fun hrest => absurd rfl hrest, id⟩
  | cons move rest ih =>
    rw [foldlM_cons] at hlast
    cases hstep : planMove runtime edit fromKey source plan move with
    | error code =>
      rw [hstep] at hlast
      cases hlast
    | ok next =>
      rw [hstep] at hlast
      obtain ⟨hnext, hmoves⟩ := planSound_planMove runtime hplan hstep
      obtain ⟨hfinal, _, hkept⟩ := ih hnext hlast
      rw [append_assoc] at hfinal
      exact ⟨hfinal, fun _ hstart => hkept (hmoves hstart),
        fun hstart => hkept (hmoves (Or.inl hstart))⟩

/-! ## The steps of a move -/

theorem sound_withoutTab {spare : String → Prop} (hsound : WorkspaceSound spare workspace)
    {tabId : String} (hpanes : ∀ tab ∈ workspace.tabs, tab.id = tabId → tab.paneIds = []) :
    WorkspaceSound spare (withoutTab workspace tabId) ∧
      Evolves [] [] workspace (withoutTab workspace tabId) :=
  sound_withoutPanes hsound hpanes ⟨rfl, rfl, rfl, rfl, rfl⟩

theorem mem_tabs_withoutTab {tabId : String} :
    tab ∈ (withoutTab workspace tabId).tabs ↔ tab ∈ workspace.tabs ∧ tab.id ≠ tabId :=
  mem_removeKeyed LayoutTab.id

/-- The source of a move under way: some of its tabs are left, those still to be
taken have no panes. -/
structure SourceLeft (spare : String → Prop) (original current : WorkspaceLayout P) : Prop where
  sound : WorkspaceSound spare current
  evolves : Evolves [] [] original current
  tabs : ∀ tab ∈ current.tabs, tab ∈ original.tabs

theorem sourceLeft_withoutTab {spare : String → Prop} {original current : WorkspaceLayout P}
    (horiginal : WorkspaceSound spare original) (hleft : SourceLeft spare original current)
    (htab : tab ∈ original.tabs) (hkind : isEditorKind tab = true) :
    SourceLeft spare original (withoutTab current tab.id) := by
  have hpanes : ∀ other ∈ current.tabs, other.id = tab.id → other.paneIds = [] := by
    intro other hother hid
    rw [horiginal.tab_eq (hleft.tabs other hother) htab hid]
    exact paneIds_of_isEditorKind hkind
  obtain ⟨hsound, hevolves⟩ := sound_withoutTab hleft.sound hpanes
  exact ⟨hsound, hleft.evolves.trans hevolves,
    fun other hother => hleft.tabs other (mem_tabs_withoutTab.mp hother).1⟩

variable {original : WorkspaceLayout P}

theorem sourceLeft_folds {spare : String → Prop} (horiginal : WorkspaceSound spare original)
    {folds : List (LayoutTab P)}
    (hfolds : ∀ tab ∈ folds, tab ∈ original.tabs ∧ isEditorKind tab = true)
    {current : WorkspaceLayout P} (hleft : SourceLeft spare original current) :
    SourceLeft spare original
      (folds.foldl (fun source tab => withoutTab source tab.id) current) := by
  induction folds generalizing current with
  | nil => exact hleft
  | cons tab rest ih =>
    obtain ⟨htab, hkind⟩ := hfolds tab mem_cons_self
    exact ih (fun other hother => hfolds other (mem_cons_of_mem tab hother))
      (sourceLeft_withoutTab horiginal hleft htab hkind)

theorem id_movedTab (planned : PlannedMove P) : (movedTab planned).id = planned.move.newTabId := by
  rw [movedTab, LayoutTab.id, LayoutTab.fields_mapFields]

variable {planned : PlannedMove P}

theorem paneIds_movedTab (hkind : isEditorKind planned.tab = true) :
    (movedTab planned).paneIds = [] := by
  rw [movedTab, LayoutTab.paneIds_mapFields]
  exact paneIds_of_isEditorKind hkind

def newIdsOf (moves : List (PlannedMove P)) : List String := moves.map (·.move.newTabId)

/-- A tab joins the target; the group it goes to is then no spare. -/
theorem target_moveStep {spare spare' : String → Prop} {ends : MoveEnds P}
    (htarget : WorkspaceSound spare ends.target) (hkind : isEditorKind planned.tab = true)
    (hnew : planned.move.newTabId ∉ ends.target.tabIds)
    (hspare : ∀ otherId, spare otherId → spare' otherId ∨ ∀ placement : TabPlacement,
      placedGroupId runtime ends.target toKey placement context = otherId) :
    WorkspaceSound spare' (moveStep runtime toKey groupId context ends planned).target ∧
      Evolves [planned.move.newTabId] [] ends.target
        (moveStep runtime toKey groupId context ends planned).target ∧
      (moveStep runtime toKey groupId context ends planned).target.tabIds =
        ends.target.tabIds ++ [planned.move.newTabId] := by
  rw [moveStep]
  dsimp only
  generalize (((findGroup ends.target groupId).map (·.tabOrder)).getD []).length = index
  generalize ({ groupId := some groupId, index := some (index : ℤ) } : TabPlacement) = placement
  have hpanes := paneIds_movedTab hkind
  have hplaced := sound_placeNewTab runtime toKey placement context htarget
    (by rw [id_movedTab]; exact hnew) (by rw [hpanes]; exact nodup_nil)
    (by rw [hpanes]; exact fun _ hpane => absurd hpane not_mem_nil)
    (fun otherId hother hdiffer => (hspare otherId hother).resolve_right fun hall =>
      hdiffer (hall placement).symm)
  have hevolves := evolves_placeNewTab runtime ends.target toKey (movedTab planned) placement
    context
  rw [id_movedTab, hpanes] at hevolves
  have hids := tabIds_placeNewTab runtime ends.target toKey (movedTab planned) placement context
  rw [id_movedTab] at hids
  have hframe : ∀ {next : WorkspaceLayout P}, SameFrame (placeNewTab runtime ends.target toKey
      (movedTab planned) placement context) next →
        WorkspaceSound spare' next ∧ Evolves [planned.move.newTabId] [] ends.target next ∧
          next.tabIds = ends.target.tabIds ++ [planned.move.newTabId] := by
    intro next hsame
    exact ⟨hsame.sound hplaced, hevolves.trans hsame.evolves.mono, hsame.tabIds.trans hids⟩
  split
  · exact hframe ⟨rfl, rfl, rfl, rfl, rfl⟩
  · exact hframe ⟨rfl, rfl, rfl, rfl, rfl⟩

theorem source_moveStep (ends : MoveEnds P) (planned : PlannedMove P) :
    (moveStep runtime toKey groupId context ends planned).source =
      withoutTab ends.source planned.tab.id := rfl

/-- All the moves: the tabs are gone from the source and in the target. -/
theorem sound_foldl_moves {spare ready filled : String → Prop}
    (horiginal : WorkspaceSound spare original) {moves : List (PlannedMove P)}
    (hmoves : ∀ planned ∈ moves, planned.tab ∈ original.tabs ∧ isEditorKind planned.tab = true)
    (hapart : (newIdsOf moves).Nodup) {ends : MoveEnds P}
    (hnew : ∀ newTabId ∈ newIdsOf moves, newTabId ∉ ends.target.tabIds)
    (hsource : SourceLeft spare original ends.source) (htarget : WorkspaceSound ready ends.target)
    (hready : ∀ otherId, ready otherId → filled otherId ∨ (moves ≠ [] ∧ ∀ placement : TabPlacement,
        placedGroupId runtime ends.target toKey placement context = otherId)) :
    let last := moves.foldl (moveStep runtime toKey groupId context) ends
    SourceLeft spare original last.source ∧ (∀ tab ∈ last.source.tabs, tab ∈ ends.source.tabs ∧
        ∀ planned ∈ moves, tab.id ≠ planned.tab.id) ∧
      WorkspaceSound filled last.target ∧
      Evolves (newIdsOf moves) [] ends.target last.target := by
  induction moves generalizing ends ready with
  | nil =>
    refine ⟨hsource, fun tab htab => ⟨htab, fun _ hnone => absurd hnone not_mem_nil⟩, ?_,
      (Evolves.refl ends.target).mono⟩
    exact ⟨htarget.groups.mono fun otherId hother =>
      (hready otherId hother).resolve_right fun hnone => hnone.1 rfl, htarget.panes⟩
  | cons planned rest ih =>
    obtain ⟨hheld, hkind⟩ := hmoves planned mem_cons_self
    obtain ⟨hfirstApart, hrestApart⟩ := nodup_cons.mp hapart
    have hspare : ∀ otherId, ready otherId → filled otherId ∨ ∀ placement : TabPlacement,
        placedGroupId runtime ends.target toKey placement context = otherId :=
      fun otherId hother => (hready otherId hother).imp id And.right
    obtain ⟨hplaced, hevolves, hids⟩ := target_moveStep runtime toKey groupId context htarget
      hkind (hnew _ mem_cons_self) hspare
    have hleft := sourceLeft_withoutTab horiginal hsource hheld hkind
    rw [← source_moveStep runtime toKey groupId context ends planned] at hleft
    have hrestNew : ∀ newTabId ∈ newIdsOf rest, newTabId ∉
        (moveStep runtime toKey groupId context ends planned).target.tabIds := by
      intro newTabId hmem
      rw [hids, mem_append, mem_singleton, not_or]
      refine ⟨hnew newTabId (mem_cons_of_mem _ hmem), ?_⟩
      rintro rfl
      exact hfirstApart hmem
    obtain ⟨hsourceLast, htabs, hlast, hrest⟩ := ih
      (fun other hother => hmoves other (mem_cons_of_mem planned hother)) hrestApart
      hrestNew hleft hplaced fun _ hother => Or.inl hother
    refine ⟨hsourceLast, fun tab htab => ?_, hlast, ?_⟩
    · obtain ⟨hmem, hothers⟩ := htabs tab htab
      rw [source_moveStep, mem_tabs_withoutTab] at hmem
      refine ⟨hmem.1, fun other hother => ?_⟩
      rcases mem_cons.mp hother with rfl | hother
      · exact hmem.2
      · exact hothers other hother
    · refine (hevolves.widen ?_).trans (hrest.widen ?_)
      · intro newTabId hmem
        rw [mem_singleton.mp hmem]
        exact mem_cons_self
      · exact fun newTabId hmem => mem_cons_of_mem _ hmem

/-! ## A move -/

theorem not_mem_of_free (hlookup : edit.workspace? fromKey = some source)
    (hplanned : PlannedFrom edit fromKey source planned) :
    (∀ other workspace, other ≠ fromKey → edit.workspace? other = some workspace →
      planned.move.newTabId ∉ workspace.tabIds) ∧
      ∀ tab ∈ source.tabs, tab.id = planned.move.newTabId → tab.id = planned.tab.id := by
  have hfree := hplanned.free
  rw [isHeldByOther, ← Bool.not_eq_true, any_eq_true, not_exists] at hfree
  constructor
  · intro other workspace hother hworkspace hmem
    obtain ⟨tab, htab, hid⟩ := mem_map.mp hmem
    apply hfree (other, workspace)
    refine ⟨mem_pairs.mpr hworkspace, ?_⟩
    rw [if_neg hother, any_eq_true]
    exact ⟨tab, htab, decide_eq_true hid⟩
  · intro tab htab hid
    by_contra hdiffer
    rw [hplanned.id] at hdiffer
    apply hfree (fromKey, source)
    refine ⟨mem_pairs.mpr hlookup, ?_⟩
    rw [if_pos rfl, any_eq_true]
    refine ⟨tab, ?_, decide_eq_true hid⟩
    exact (mem_eraseP_of_neg (by simpa using hdiffer)).mpr htab

theorem moveTarget_cases {target next : WorkspaceLayout P} {groupId : String}
    {spare : String → Prop} (hsound : WorkspaceSound spare target)
    (hnext : moveTarget target groupId = .ok next) :
    next = target ∨ (target.groups = [] ∧ next.groups = [⟨groupId, []⟩] ∧
      WorkspaceSound (fun otherId => otherId = groupId) next ∧
        next.tabIds = target.tabIds ∧ Evolves [] [] target next) := by
  rw [moveTarget] at hnext
  split at hnext
  · exact Or.inl (Except.ok.inj hnext).symm
  · split at hnext
    · cases hnext
    next hnone =>
      have hempty : target.groups = [] := by simpa using hnone
      have hgroups := hsound.groups
      rw [hempty] at hgroups
      cases hnext
      exact Or.inr ⟨hempty, rfl, ⟨hgroups.first groupId, hsound.panes⟩, rfl,
        fun _ htab => Or.inl htab, fun _ hpane => Or.inl hpane, fun _ => Or.inl rfl⟩

theorem moveEditorFile_frame (ends : MoveEnds P) (file : Option (LayoutEditorFile P)) :
    SameFrame ends.source (moveEditorFile runtime ends file).source ∧
      SameFrame ends.target (moveEditorFile runtime ends file).target := by
  cases file with
  | none => exact ⟨⟨rfl, rfl, rfl, rfl, rfl⟩, ⟨rfl, rfl, rfl, rfl, rfl⟩⟩
  | some file => exact ⟨⟨rfl, rfl, rfl, rfl, rfl⟩, ⟨rfl, rfl, rfl, rfl, rfl⟩⟩

theorem shownFiles_of_groups_nil {workspace : WorkspaceLayout P}
    (hnone : workspace.groups = []) (groupId : String) :
    shownFiles runtime workspace groupId = ∅ := by
  rw [shownFiles, findGroup, hnone]
  split <;> rfl

/-- Files move between two workspaces of a sound layout. -/
theorem sound_moved (hsound : LayoutSound spare edit.model.workspaces) {fromKey toKey : String}
    (hdiffer : fromKey ≠ toKey) {source : WorkspaceLayout P}
    (hlookup : edit.workspace? fromKey = some source) (context : LayoutContext)
    (hapart : (moves.map (·.newTabId)).Nodup) {plan : MovePlan P}
    (hplan : PlanSound edit fromKey source moves plan) {groupId : String}
    {ready : WorkspaceLayout P}
    (hready : moveTarget (workspaceOrEmpty edit toKey) groupId = .ok ready)
    (hmoves : (workspaceOrEmpty edit toKey).groups = [] → plan.moves ≠ [])
    (file : Option (LayoutEditorFile P)) :
    let ends := moveEditorFile runtime (plan.moves.foldl (moveStep runtime toKey groupId context)
      { source := plan.folds.foldl (fun source tab => withoutTab source tab.id) source
        target := ready }) file
    LayoutSound spare (withWorkspace (withWorkspace edit fromKey ends.source) toKey
      ends.target).model.workspaces := by
  have hsource := hsound.workspace fromKey source hlookup
  have htarget := sound_workspaceOrEmpty hsound toKey
  have hfolded := sourceLeft_folds hsource hplan.folds
    ⟨hsource, Evolves.refl source, fun _ htab => htab⟩
  have hnewApart : (newIdsOf plan.moves).Nodup := by
    have horder := hplan.order.map (·.newTabId)
    rw [map_map] at horder
    exact horder.nodup hapart
  have hfree : ∀ newTabId ∈ newIdsOf plan.moves,
      (∀ other workspace, other ≠ fromKey → edit.workspace? other = some workspace →
        newTabId ∉ workspace.tabIds) ∧
      ∀ tab ∈ source.tabs, tab.id = newTabId → ∃ planned ∈ plan.moves, tab.id = planned.tab.id := by
    intro newTabId hmem
    obtain ⟨planned, hplanned, rfl⟩ := mem_map.mp hmem
    obtain ⟨hothers, hown⟩ := not_mem_of_free hlookup (hplan.planned planned hplanned)
    exact ⟨hothers, fun tab htab hid => ⟨planned, hplanned, hown tab htab hid⟩⟩
  have htargetNew : ∀ newTabId ∈ newIdsOf plan.moves,
      newTabId ∉ (workspaceOrEmpty edit toKey).tabIds := by
    intro newTabId hmem hheld
    cases htarget : edit.workspace? toKey with
    | none =>
      rw [workspaceOrEmpty, htarget] at hheld
      exact absurd hheld not_mem_nil
    | some target =>
      rw [workspaceOrEmpty_of_lookup htarget] at hheld
      exact (hfree newTabId hmem).1 toKey target hdiffer.symm htarget hheld
  -- The target of the moves, with the group that may still be empty.
  obtain ⟨spareReady, hreadySound, hreadyIds, hreadyEvolves, hreadySpare⟩ :
      ∃ spareReady : String → Prop, WorkspaceSound spareReady ready ∧
        ready.tabIds = (workspaceOrEmpty edit toKey).tabIds ∧
        Evolves [] [] (workspaceOrEmpty edit toKey) ready ∧
        ∀ otherId, spareReady otherId → spare toKey otherId ∨ (plan.moves ≠ [] ∧
          ∀ placement : TabPlacement,
            placedGroupId runtime ready toKey placement context = otherId) := by
    rcases moveTarget_cases htarget hready with rfl | ⟨hnone, hsingle, hsoundReady, hids, hevolves⟩
    · exact ⟨spare toKey, htarget, rfl, Evolves.refl _, fun _ hother => Or.inl hother⟩
    · refine ⟨_, hsoundReady, hids, hevolves, fun otherId hother => Or.inr ⟨hmoves hnone, ?_⟩⟩
      intro placement
      rw [placedGroupId_single runtime hsingle, hother]
  replace htargetNew : ∀ newTabId ∈ newIdsOf plan.moves, newTabId ∉ (MoveEnds.mk
      (plan.folds.foldl (fun source tab => withoutTab source tab.id) source)
      ready).target.tabIds := by
    rw [← hreadyIds] at htargetNew
    exact htargetNew
  obtain ⟨hleft, hgone, hfilled, hgained⟩ := sound_foldl_moves runtime toKey groupId context
    hsource (fun planned hplanned => ⟨(hplan.planned planned hplanned).held,
      (hplan.planned planned hplanned).kind⟩) hnewApart
    htargetNew hfolded hreadySound hreadySpare
  intro ends
  obtain ⟨hsourceFrame, htargetFrame⟩ := moveEditorFile_frame runtime
    (plan.moves.foldl (moveStep runtime toKey groupId context)
      ⟨plan.folds.foldl (fun source tab => withoutTab source tab.id) source, ready⟩) file
  have hfirst : LayoutSound spare (withWorkspace edit fromKey ends.source).model.workspaces :=
    sound_write hsound (workspaceOrEmpty_of_lookup hlookup)
      ⟨hsourceFrame.sound hleft.sound, hleft.evolves.trans hsourceFrame.evolves⟩
  have hkept : workspaceOrEmpty (withWorkspace edit fromKey ends.source) toKey =
      workspaceOrEmpty edit toKey := by
    rw [workspaceOrEmpty_withWorkspace, if_neg hdiffer.symm]
  refine hfirst.set hkept (htargetFrame.sound hfilled) (fun _ _ _ hgroup => hgroup)
    (((hreadyEvolves.widen (nil_subset _)).trans
      (hgained.trans htargetFrame.evolves.mono)).replaces ?_
        (fun _ hpane => absurd hpane not_mem_nil) "")
  intro newTabId hmem other workspace hworkspace
  rw [LayoutEdit.workspaces_withWorkspace, lookup_set] at hworkspace
  by_cases hother : other = fromKey
  · rw [if_pos hother, Option.some.injEq] at hworkspace
    rw [← hworkspace, hsourceFrame.tabIds]
    intro hheld
    obtain ⟨tab, htab, hid⟩ := mem_map.mp hheld
    obtain ⟨_, hothers⟩ := hgone tab htab
    obtain ⟨planned, hplanned, hsame⟩ := (hfree newTabId hmem).2 tab (hleft.tabs tab htab) hid
    exact hothers planned hplanned hsame
  · rw [if_neg hother] at hworkspace
    exact (hfree newTabId hmem).1 other workspace hother hworkspace

theorem keeps_moveTabToWorkspace
    (hsound : LayoutSound spare edit.model.workspaces) {source : WorkspaceLayout P}
    {command : MoveTabToWorkspace P} (hlookup : edit.workspace? command.workspace = some source)
    (context : LayoutContext) :
    Keeps spare (moveTabToWorkspace runtime edit source command context) := by
  rw [moveTabToWorkspace]
  dsimp only
  split
  · exact keeps_refuse _
  next hvalid =>
    simp only [Bool.or_eq_true, decide_eq_true_eq, Bool.not_eq_true', decide_eq_false_iff_not,
      not_or, not_not] at hvalid
    obtain ⟨⟨⟨hdiffer, hsome⟩, _⟩, hnewApart⟩ := hvalid
    generalize hstart : (⟨shownFiles runtime (workspaceOrEmpty edit command.toWorkspace)
      command.groupId, [], [], command.groupId⟩ : MovePlan P) = start
    have hempty : PlanSound edit command.workspace source [] start := by
      rw [← hstart]
      exact ⟨fun _ hmem => absurd hmem not_mem_nil, List.Sublist.refl _,
        fun _ hmem => absurd hmem not_mem_nil⟩
    intro next hnext
    cases hplan : command.tabs.foldlM (planMove runtime edit command.workspace source) start with
    | error code =>
      rw [hplan] at hnext
      cases hnext
    | ok plan =>
      rw [hplan] at hnext
      cases hready : moveTarget (workspaceOrEmpty edit command.toWorkspace) command.groupId with
      | error code =>
        rw [hready] at hnext
        cases hnext
      | ok ready =>
        rw [hready] at hnext
        obtain ⟨hplanSound, hmovesStart, _⟩ := planSound_foldlM runtime hempty hplan
        rw [nil_append] at hplanSound
        rw [← Except.ok.inj hnext]
        refine sound_moved runtime hsound hdiffer hlookup context hnewApart hplanSound hready
          (fun hnone => hmovesStart hsome (Or.inr ?_)) command.file
        rw [← hstart]
        exact shownFiles_of_groups_nil runtime hnone command.groupId

/-! ## Renamed files -/

theorem renamedId_of_lookup_none {id : String}
    (hnone : ids.lookup id = none) : renamedId ids id = id := by
  rw [renamedId, hnone]
  rfl

theorem renamedId_of_lookup {id renamed : String}
    (hsome : ids.lookup id = some renamed) : renamedId ids id = renamed := by
  rw [renamedId, hsome]
  rfl

theorem lookup_of_renamedId_ne {id : String}
    (hdiffer : renamedId ids id ≠ id) : ids.lookup id = some (renamedId ids id) := by
  cases hlookup : ids.lookup id with
  | none => exact absurd (renamedId_of_lookup_none hlookup) hdiffer
  | some renamed => rw [renamedId_of_lookup hlookup]

theorem lookup_renamedTabIdsOf {tabId renamed : String}
    (hlookup : (renamedTabIdsOf workspace ids).lookup tabId = some renamed) :
    (∃ tab ∈ workspace.tabs, isEditorKind tab = true ∧ tab.id = tabId) ∧
      ids.lookup tabId = some renamed := by
  obtain ⟨tab, htab, hpair⟩ := mem_map.mp (mem_of_lookup_ofPairs hlookup)
  rw [mem_filter, mem_filter, decide_eq_true_eq] at htab
  obtain ⟨⟨hmem, hkind⟩, hdiffer⟩ := htab
  rw [Prod.mk.injEq] at hpair
  obtain ⟨rfl, rfl⟩ := hpair
  exact ⟨⟨tab, hmem, hkind, rfl⟩, lookup_of_renamedId_ne hdiffer⟩

variable {renames : List (EditorFileRename P)}

theorem eq_of_renamed_eq (htargets : (renames.map (·.newFileId)).Nodup)
    {left right renamed : String} (hleft : (OrderedMap.ofPairs (renames.map fun rename =>
      (rename.fileId, rename.newFileId))).lookup left = some renamed)
    (hright : (OrderedMap.ofPairs (renames.map fun rename =>
      (rename.fileId, rename.newFileId))).lookup right = some renamed) : left = right := by
  obtain ⟨leftRename, hleftMem, hleftPair⟩ := mem_map.mp (mem_of_lookup_ofPairs hleft)
  obtain ⟨rightRename, hrightMem, hrightPair⟩ := mem_map.mp (mem_of_lookup_ofPairs hright)
  rw [Prod.mk.injEq] at hleftPair hrightPair
  have hsame : leftRename = rightRename := inj_on_of_nodup_map htargets hleftMem hrightMem
    (hleftPair.2.trans hrightPair.2.symm)
  rw [← hleftPair.1, ← hrightPair.1, hsame]

theorem id_renamedTab {spare : String → Prop} (hsound : WorkspaceSound spare workspace)
    (ids : OrderedMap String String) (htab : tab ∈ workspace.tabs) :
    (renamedTab ids (renamedTabIdsOf workspace ids) tab).id =
      renamedId (renamedTabIdsOf workspace ids) tab.id := by
  rw [renamedTab]
  split
  next => rw [LayoutTab.id, LayoutTab.fields_mapFields, LayoutTab.id]
  next hkept =>
    cases hlookup : (renamedTabIdsOf workspace ids).lookup tab.id with
    | none => rw [renamedId_of_lookup_none hlookup]
    | some renamed =>
      obtain ⟨⟨other, hother, hkind, hid⟩, _⟩ := lookup_renamedTabIdsOf hlookup
      have hmem : tab.id ∈ renamedTabIdsOf workspace ids :=
        AList.lookup_isSome.mp (by rw [hlookup]; rfl)
      rw [hsound.tab_eq hother htab hid] at hkind
      simp [hkind, hmem] at hkept

theorem paneIds_renamedTab (ids tabIds : OrderedMap String String) (tab : LayoutTab P) :
    (renamedTab ids tabIds tab).paneIds = tab.paneIds := by
  rw [renamedTab]
  split
  · exact LayoutTab.paneIds_mapFields _ tab
  · rfl

/-- Renaming a workspace's files in place keeps the layout sound. -/
theorem sound_renameInWorkspace (hsound : LayoutSound spare edit.model.workspaces)
    (hlookup : edit.workspace? key = some workspace) {renamed : RenamedWorkspace P}
    (hrenamed : renameInWorkspace edit workspace renames = .ok renamed) :
    LayoutSound spare (withWorkspace edit key renamed.workspace).model.workspaces := by
  have hworkspace := hsound.workspace key workspace hlookup
  rw [renameInWorkspace] at hrenamed
  dsimp only at hrenamed
  split at hrenamed
  · cases hrenamed
  next hvalid =>
    split at hrenamed
    · cases hrenamed
    · split at hrenamed
      · cases hrenamed
      next hfree =>
        simp only [Bool.or_eq_true, Bool.not_eq_true', decide_eq_false_iff_not, not_or,
          not_not] at hvalid
        generalize hids : OrderedMap.ofPairs (renames.map fun rename =>
          (rename.fileId, rename.newFileId)) = ids at hrenamed hfree
        have hkeyOf : ∀ tabId renamed, (renamedTabIdsOf workspace ids).lookup tabId =
            some renamed → tabId ∈ workspace.tabIds := by
          intro tabId renamed hsome
          obtain ⟨⟨tab, htab, _, hid⟩, _⟩ := lookup_renamedTabIdsOf hsome
          exact mem_map.mpr ⟨tab, htab, hid⟩
        -- A tab that has a new id already is renamed itself.
        have htaken : ∀ tabId renamed other held,
            (renamedTabIdsOf workspace ids).lookup tabId = some renamed →
              edit.workspace? other = some held → renamed ∈ held.tabIds →
                renamed ∈ renamedTabIdsOf workspace ids := by
          intro tabId renamed other held hsome hheld hmem
          by_contra hnotRenamed
          apply hfree
          rw [any_eq_true]
          refine ⟨held, mem_values.mpr ⟨other, hheld⟩, ?_⟩
          rw [any_eq_true]
          refine ⟨renamed, hmem, ?_⟩
          rw [Bool.and_eq_true, contains_iff_mem, decide_eq_true_eq]
          exact ⟨mem_values.mpr ⟨tabId, hsome⟩, hnotRenamed⟩
        have hinjective : ∀ left ∈ workspace.tabIds, ∀ right ∈ workspace.tabIds,
            renamedId (renamedTabIdsOf workspace ids) left =
              renamedId (renamedTabIdsOf workspace ids) right → left = right := by
          intro left hleftMem right hrightMem hsame
          cases hleft : (renamedTabIdsOf workspace ids).lookup left with
          | none =>
            rw [renamedId_of_lookup_none hleft] at hsame
            cases hright : (renamedTabIdsOf workspace ids).lookup right with
            | none => rwa [renamedId_of_lookup_none hright] at hsame
            | some renamedRight =>
              rw [renamedId_of_lookup hright] at hsame
              subst hsame
              have hmem := htaken right left key workspace hright hlookup hleftMem
              rw [← AList.lookup_isSome, hleft] at hmem
              cases hmem
          | some renamedLeft =>
            rw [renamedId_of_lookup hleft] at hsame
            cases hright : (renamedTabIdsOf workspace ids).lookup right with
            | none =>
              rw [renamedId_of_lookup_none hright] at hsame
              subst hsame
              have hmem := htaken left renamedLeft key workspace hleft hlookup hrightMem
              rw [← AList.lookup_isSome, hright] at hmem
              cases hmem
            | some renamedRight =>
              rw [renamedId_of_lookup hright] at hsame
              subst hsame
              have hleftFile := (lookup_renamedTabIdsOf hleft).2
              have hrightFile := (lookup_renamedTabIdsOf hright).2
              rw [← hids] at hleftFile hrightFile
              exact eq_of_renamed_eq hvalid.2 hleftFile hrightFile
        have hrenamedIds : (workspace.tabs.map
            (renamedTab ids (renamedTabIdsOf workspace ids))).map LayoutTab.id =
              workspace.tabIds.map (renamedId (renamedTabIdsOf workspace ids)) := by
          rw [map_map, WorkspaceLayout.tabIds, map_map]
          exact map_congr_left fun tab htab => id_renamedTab hworkspace ids htab
        have hrenamedPanes : (workspace.tabs.map
            (renamedTab ids (renamedTabIdsOf workspace ids))).flatMap LayoutTab.paneIds =
              workspace.paneIds := by
          rw [flatMap_map]
          exact flatMap_congr fun tab _ => paneIds_renamedTab ids _ tab
        have hgroups := hworkspace.groups.renamed (Nodup.map_on hinjective hworkspace.groups.nodup)
        cases hrenamed
        refine hsound.set (workspaceOrEmpty_of_lookup hlookup) ⟨?_, ?_⟩ (fun _ _ _ hgroup => hgroup)
          (?_ : Replaces _ _ _ "")
        · rw [← hrenamedIds] at hgroups
          exact hgroups
        · rw [WorkspaceLayout.paneIds, hrenamedPanes]
          exact hworkspace.panes
        · refine ⟨?_, ?_, fun _ _ => Or.inl rfl, Or.inl rfl⟩
          · intro tabId hmem
            rw [WorkspaceLayout.tabIds, hrenamedIds] at hmem
            obtain ⟨old, hold, rfl⟩ := mem_map.mp hmem
            cases hsome : (renamedTabIdsOf workspace ids).lookup old with
            | none =>
              rw [renamedId_of_lookup_none hsome]
              exact Or.inl hold
            | some renamed =>
              rw [renamedId_of_lookup hsome]
              by_cases hown : renamed ∈ workspace.tabIds
              · exact Or.inl hown
              · right
                intro other held hheld hmem
                have htabIds := htaken old renamed other held hsome hheld hmem
                obtain ⟨next, hnext⟩ := Option.isSome_iff_exists.mp
                  (AList.lookup_isSome.mpr htabIds)
                exact hown (hkeyOf renamed next hnext)
          · intro paneId hmem
            rw [WorkspaceLayout.paneIds, hrenamedPanes] at hmem
            exact Or.inl hmem

theorem sound_renamePart {progress next : RenameProgress P} {part : WorkspaceRenames P}
    (hsound : LayoutSound spare progress.edit.model.workspaces)
    (hnext : renamePart progress part = .ok next) :
    LayoutSound spare next.edit.model.workspaces := by
  rw [renamePart] at hnext
  cases hlookup : progress.edit.workspace? part.workspace with
  | none =>
    rw [hlookup] at hnext
    cases hnext
  | some workspace =>
    rw [hlookup] at hnext
    dsimp only at hnext
    cases hrenamed : renameInWorkspace progress.edit workspace part.renames with
    | error code =>
      rw [hrenamed] at hnext
      cases hnext
    | ok renamed =>
      rw [hrenamed] at hnext
      rw [← Except.ok.inj hnext]
      exact sound_renameInWorkspace hsound hlookup hrenamed

theorem sound_foldlM_renamePart {parts : List (WorkspaceRenames P)}
    {progress last : RenameProgress P}
    (hsound : LayoutSound spare progress.edit.model.workspaces)
    (hlast : parts.foldlM renamePart progress = .ok last) :
    LayoutSound spare last.edit.model.workspaces := by
  induction parts generalizing progress with
  | nil =>
    cases hlast
    exact hsound
  | cons part rest ih =>
    rw [foldlM_cons] at hlast
    cases hstep : renamePart progress part with
    | error code =>
      rw [hstep] at hlast
      cases hlast
    | ok next =>
      rw [hstep] at hlast
      exact ih (sound_renamePart hsound hstep) hlast

theorem keeps_renameEditorFiles (hsound : LayoutSound spare edit.model.workspaces)
    (workspaceKey : String) (renames : List (EditorFileRename P))
    (alsoIn : List (WorkspaceRenames P)) :
    Keeps spare (renameEditorFiles edit workspaceKey renames alsoIn) := by
  rw [renameEditorFiles]
  split
  · exact keeps_refuse _
  · intro next hnext
    cases hparts : ((⟨workspaceKey, renames⟩ : WorkspaceRenames P) :: alsoIn).foldlM renamePart
        ({ edit } : RenameProgress P) with
    | error code =>
      rw [hparts] at hnext
      cases hnext
    | ok progress =>
      rw [hparts] at hnext
      rw [← Except.ok.inj hnext]
      exact sound_foldlM_renamePart hsound hparts

end Wakii.EditorMovesSound
