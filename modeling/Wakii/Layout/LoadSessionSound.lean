import Wakii.Layout.LoadSession
import Wakii.Layout.LoadTabsSound
import Wakii.Library.RelatedMaps

/-!
# Loading neither loses nor duplicates a terminal

Each stored row has one home.  The workspace of that home gives it its one
terminal, or redirects it to a terminal that the tab bar names, and no later
step of a load adds or drops a terminal.
-/

namespace Wakii.LayoutLoad

open List OrderedCollections RecordList OrderedMap
open Wakii.CommandSteps Wakii.CommandTypes Wakii.LayoutCommands Wakii.LayoutModel

variable {P : Type}

/-! ## Homes -/

def rowPlaces (session : WorkspaceSessionState P) : List (String × TerminalTab P) :=
  session.tabsByWorktree.pairs.flatMap fun entry => entry.2.map fun row => (entry.1, row)

theorem mem_rowPlaces {session : WorkspaceSessionState P} {key : String} {row : TerminalTab P} :
    (key, row) ∈ rowPlaces session ↔ row ∈ session.rows key := by
  rw [rowPlaces, mem_flatMap, WorkspaceSessionState.rows]
  constructor
  · rintro ⟨⟨other, rows⟩, hentry, hplace⟩
    obtain ⟨found, hfound, hsame⟩ := mem_map.mp hplace
    cases hsame
    rw [mem_pairs.mp hentry]
    exact hfound
  · intro hrow
    cases hrows : session.tabsByWorktree.lookup key with
    | none =>
      rw [hrows] at hrow
      cases hrow
    | some rows =>
      rw [hrows] at hrow
      exact ⟨(key, rows), mem_pairs.mpr hrows, mem_map_of_mem hrow⟩

variable (entityId : String) (session : WorkspaceSessionState P) (panes : LayoutTerminalPanes P)

theorem resolveTerminalHomes_eq : resolveTerminalHomes session = (rowPlaces session).foldl
      (fun homes place => placeRow session place.1 homes place.2) ∅ := by
  rw [resolveTerminalHomes, rowPlaces, foldl_flatMap]
  simp only [foldl_map]

/-- Every row has a home, which stores a row of its id. -/
theorem resolveTerminalHomes_spec (rowId : String) :
    (∀ key, (resolveTerminalHomes session).lookup rowId = some key →
      ∃ row ∈ session.rows key, row.id = rowId) ∧
    ∀ key, ∀ row ∈ session.rows key, row.id = rowId →
      ∃ home, (resolveTerminalHomes session).lookup rowId = some home := by
  suffices hplaces : ∀ places : List (String × TerminalTab P),
      (∀ key, (places.foldl (fun homes place => placeRow session place.1 homes place.2) ∅).lookup
        rowId = some key → ∃ row, (key, row) ∈ places ∧ row.id = rowId) ∧
      ∀ place ∈ places, place.2.id = rowId → ∃ home,
        (places.foldl (fun homes place => placeRow session place.1 homes place.2) ∅).lookup rowId =
          some home by
    obtain ⟨hhome, hplaced⟩ := hplaces (rowPlaces session)
    rw [resolveTerminalHomes_eq]
    refine ⟨fun key hkey => ?_, fun key row hrow hid => ?_⟩
    · obtain ⟨row, hrow, hid⟩ := hhome key hkey
      exact ⟨row, mem_rowPlaces.mp hrow, hid⟩
    · exact hplaced (key, row) (mem_rowPlaces.mpr hrow) hid
  intro places
  induction places using List.reverseRecOn with
  | nil =>
    exact ⟨fun key hkey => (by cases hkey), fun place hplace => absurd hplace not_mem_nil⟩
  | append_singleton places place ih =>
    rw [foldl_append, foldl_cons, foldl_nil]
    generalize List.foldl _ (∅ : OrderedMap String String) places = homes at ih ⊢
    obtain ⟨hhome, hplaced⟩ := ih
    rw [placeRow]
    split_ifs with htakes
    · refine ⟨fun key hkey => ?_, fun other hother hid => ?_⟩
      · rw [lookup_set] at hkey
        split_ifs at hkey with hsame
        · cases hkey
          exact ⟨place.2, mem_append_right _ (mem_singleton_self _), hsame.symm⟩
        · obtain ⟨row, hrow, hid⟩ := hhome key hkey
          exact ⟨row, mem_append_left _ hrow, hid⟩
      · rw [lookup_set]
        split_ifs with hsame
        · exact ⟨place.1, rfl⟩
        · rcases mem_append.mp hother with hother | hother
          · exact hplaced other hother hid
          · rw [mem_singleton] at hother
            exact absurd (hother ▸ hid.symm) hsame
    · refine ⟨fun key hkey => ?_, fun other hother hid => ?_⟩
      · obtain ⟨row, hrow, hid⟩ := hhome key hkey
        exact ⟨row, mem_append_left _ hrow, hid⟩
      · rcases mem_append.mp hother with hother | hother
        · exact hplaced other hother hid
        · rw [mem_singleton] at hother
          rw [hother] at hid
          rw [hid] at htakes
          cases hlookup : homes.lookup rowId with
          | none => rw [hlookup] at htakes; exact absurd rfl htakes
          | some home => exact ⟨home, rfl⟩

theorem nodup_workspaceKeys : (workspaceKeys session).Nodup := nodup_firstOnes _

theorem mem_workspaceKeys {session : WorkspaceSessionState P} {key : String}
    {row : TerminalTab P} (hrow : row ∈ session.rows key) : key ∈ workspaceKeys session := by
  have hkey : key ∈ session.tabsByWorktree.keys := by
    rw [WorkspaceSessionState.rows] at hrow
    rw [← AList.mem_keys, ← AList.lookup_isSome]
    cases hlookup : session.tabsByWorktree.lookup key with
    | none =>
      rw [hlookup] at hrow
      cases hrow
    | some rows => rfl
  rw [workspaceKeys, mem_firstOnes]
  simp only [mem_append]
  exact Or.inl (Or.inl (Or.inl (Or.inl (Or.inl hkey))))

/-! ## The loaded workspaces -/

/-- The rows of a workspace after a load up to some later workspace. -/
structure Took (args : WorkspaceLoadArgs P) (state : WorkspacesLoad P) (loaded : LoadedTabs P) :
    Prop where
  workspace : state.workspaces.lookup args.key = some (workspaceOf args loaded)
  loads : Loads args (takeRows args) loaded
  settles : ∀ row ∈ takeRows args, Settles args
    (readCanonicalPtyOwners args.session args.key (takeRows args)) loaded row
  rest : ∀ row ∈ takeRows args, state.layouts.lookup row.id = loaded.layouts.lookup row.id ∧
    state.canonicalTabIdBySubsumedTabId.lookup row.id =
      loaded.canonicalTabIdBySubsumedTabId.lookup row.id

section Keys

variable {args : String → WorkspaceLoadArgs P} {homes : OrderedMap String String}

theorem home_of_mem_takeRows (hhomes : ∀ key, (args key).terminalHomes = homes)
    (hkeys : ∀ key, (args key).key = key) {key : String} {row : TerminalTab P}
    (hrow : row ∈ takeRows (args key)) : homes.lookup row.id = some key := by
  have hhome := ((takeRows_spec (args key)).2 row).mp hrow
  rw [hhomes, hkeys] at hhome
  exact hhome.1

theorem not_mem_takeRows (args : String → WorkspaceLoadArgs P)
    (hhomes : ∀ key, (args key).terminalHomes = homes) (hkeys : ∀ key, (args key).key = key)
      {key : String} {rowId : String}
    (hother : homes.lookup rowId ≠ some key) : rowId ∉ (takeRows (args key)).map (·.id) := by
  intro hmem
  obtain ⟨row, hrow, rfl⟩ := mem_map.mp hmem
  exact hother (home_of_mem_takeRows hhomes hkeys hrow)

/-- Workspaces load one by one, each row into its home. -/
theorem loadNext_spec (args : String → WorkspaceLoadArgs P)
    (hhomes : ∀ key, (args key).terminalHomes = homes)
    (hkeys : ∀ key, (args key).key = key) (todo : List String) (hnodup : todo.Nodup)
    (state : WorkspacesLoad P) (hfresh : ∀ key ∈ todo, key ∉ state.workspaces)
    (hnone : ∀ rowId, ∀ key ∈ todo, homes.lookup rowId = some key →
      state.canonicalTabIdBySubsumedTabId.lookup rowId = none) :
    ((todo.foldl (loadNext args) state).workspaces.keys = state.workspaces.keys ++ todo ∧
      (∀ key ∉ todo, (todo.foldl (loadNext args) state).workspaces.lookup key =
        state.workspaces.lookup key)) ∧
    (∀ key ∈ todo, ∃ loaded, Took (args key) (todo.foldl (loadNext args) state) loaded ∧
      ∃ layouts redirected, loaded = loadTabs (args key) layouts redirected) ∧
    ∀ rowId, (∀ key ∈ todo, homes.lookup rowId ≠ some key) →
      (todo.foldl (loadNext args) state).layouts.lookup rowId = state.layouts.lookup rowId ∧
        (todo.foldl (loadNext args) state).canonicalTabIdBySubsumedTabId.lookup rowId =
          state.canonicalTabIdBySubsumedTabId.lookup rowId := by
  induction todo generalizing state with
  | nil =>
    exact ⟨⟨(append_nil _).symm, fun _ _ => rfl⟩,
      fun _ hkey => absurd hkey not_mem_nil, fun _ _ => ⟨rfl, rfl⟩⟩
  | cons key todo ih =>
    rw [nodup_cons] at hnodup
    rw [foldl_cons]
    obtain ⟨hloads, hrest, hsettles⟩ := loadTabs_spec (args key) state.layouts
      state.canonicalTabIdBySubsumedTabId fun row hrow =>
        hnone row.id key mem_cons_self (home_of_mem_takeRows hhomes hkeys hrow)
    generalize hloaded : loadTabs (args key) state.layouts
      state.canonicalTabIdBySubsumedTabId = loaded at hloads hrest hsettles
    have hnext : loadNext args state key =
        { workspaces := state.workspaces.set key (workspaceOf (args key) loaded)
          layouts := loaded.layouts
          canonicalTabIdBySubsumedTabId := loaded.canonicalTabIdBySubsumedTabId } := by
      rw [loadNext, loadWorkspace, hloaded]
    rw [hnext]
    have hhomed : ∀ rowId, ∀ other ∈ todo, homes.lookup rowId = some other →
        rowId ∉ (takeRows (args key)).map (·.id) := by
      intro rowId other hother hhome
      refine not_mem_takeRows args hhomes hkeys ?_
      rw [hhome, Ne, Option.some.injEq]
      rintro rfl
      exact hnodup.1 hother
    obtain ⟨⟨hends, hkept⟩, htook, hothers⟩ := ih hnodup.2
      { workspaces := state.workspaces.set key (workspaceOf (args key) loaded)
        layouts := loaded.layouts
        canonicalTabIdBySubsumedTabId := loaded.canonicalTabIdBySubsumedTabId }
      (fun other hother hmem => by
        rcases mem_set.mp hmem with rfl | hmem
        · exact hnodup.1 hother
        · exact hfresh other (mem_cons_of_mem _ hother) hmem)
      (fun rowId other hother hhome =>
        (hrest.redirected rowId (hhomed rowId other hother hhome)).trans
          (hnone rowId other (mem_cons_of_mem _ hother) hhome))
    refine ⟨⟨?_, fun other hother => ?_⟩, fun other hother => ?_, fun rowId hhome => ?_⟩
    · rw [hends, keys_set_of_not_mem _ (hfresh key mem_cons_self), append_assoc]
      rfl
    · rw [mem_cons, not_or] at hother
      exact (hkept other hother.2).trans (lookup_set_ne _ _ hother.1)
    · rcases mem_cons.mp hother with rfl | hother
      · refine ⟨loaded, ⟨?_, hloads, hsettles, fun row hrow => ?_⟩, _, _, hloaded.symm⟩
        · rw [hkeys, hkept other hnodup.1]
          exact lookup_set_self _ _ _
        · refine hothers row.id fun after hafter => ?_
          rw [home_of_mem_takeRows hhomes hkeys hrow, Ne, Option.some.injEq]
          rintro rfl
          exact hnodup.1 hafter
      · exact htook other hother
    · have hown := not_mem_takeRows args hhomes hkeys (hhome key mem_cons_self)
      obtain ⟨hlayouts, hredirected⟩ := hothers rowId fun other hother =>
        hhome other (mem_cons_of_mem _ hother)
      exact ⟨hlayouts.trans (hrest.layouts rowId hown),
        hredirected.trans (hrest.redirected rowId hown)⟩

end Keys

/-! ## What the later steps leave alone -/

def tabNames (tabs : List (LayoutTab P)) : List (String × Option String) :=
  tabs.map fun tab => (tab.id, (asTerminal tab).map (·.entityId))

/-- The tabs keep their ids, rows and groups; panes and data may change. -/
structure SameShell (before after : WorkspaceLayout P) : Prop where
  names : tabNames after.tabs = tabNames before.tabs
  groups : after.groups = before.groups

namespace SameShell

theorem refl (workspace : WorkspaceLayout P) : SameShell workspace workspace := ⟨rfl, rfl⟩

theorem trans (before middle after : WorkspaceLayout P)
    (hfirst : SameShell before middle) (hsecond : SameShell middle after) :
    SameShell before after :=
  ⟨hsecond.names.trans hfirst.names, hsecond.groups.trans hfirst.groups⟩

variable {before after : WorkspaceLayout P}

theorem rows (hshell : SameShell before after) :
    terminalRowIds after.tabs = terminalRowIds before.tabs := by
  have hsnd := congrArg (List.filterMap Prod.snd) hshell.names
  rw [tabNames, tabNames, filterMap_map, filterMap_map] at hsnd
  rw [terminalRowIds, map_filterMap, terminalRowIds, map_filterMap]
  exact hsnd

theorem of_tabs (htabs : after.tabs = before.tabs) (hgroups : after.groups = before.groups) :
    SameShell before after :=
  ⟨congrArg tabNames htabs, hgroups⟩

end SameShell

theorem related_placeClosedTabs (workspaces : OrderedMap String (WorkspaceLayout P)) :
    Related (fun before after => ∃ closedTerminalTabs, after = { before with closedTerminalTabs })
      workspaces (placeClosedTabs session workspaces).1 := by
  refine Related.foldl (fun workspace => ⟨workspace.closedTerminalTabs, rfl⟩) ?_ Prod.fst
    placeClosedTab (fun state closed => ?_) _ (workspaces, ∅)
  · rintro first _ _ ⟨_, rfl⟩ ⟨closed, rfl⟩
    exact ⟨closed, rfl⟩
  · rw [placeClosedTab]
    cases hfound : state.1.pairs.find? (·.2.worktreeId = closed.2.worktreeId) with
    | none => exact Related.refl (fun workspace => ⟨workspace.closedTerminalTabs, rfl⟩) state.1
    | some entry =>
      exact Related.set (fun workspace => ⟨workspace.closedTerminalTabs, rfl⟩)
        (mem_pairs.mp (mem_of_find?_eq_some hfound)) ⟨_, rfl⟩

theorem asTerminal_withPanes
    (tab : LayoutTab P) : (asTerminal (withPanes entityId panes tab)).map (·.entityId) =
      (asTerminal tab).map (·.entityId) := by
  cases tab with
  | content tab => rfl
  | terminal tab =>
    rw [withPanes]
    split_ifs <;> rfl

theorem id_withPanes (tab : LayoutTab P) : (withPanes entityId panes tab).id = tab.id := by
  cases tab with
  | content tab => rfl
  | terminal tab =>
    rw [withPanes]
    split_ifs <;> rfl

theorem tabNames_withPanes (tabs : List (LayoutTab P)) :
    tabNames (tabs.map (withPanes entityId panes)) = tabNames tabs := by
  rw [tabNames, map_map]
  refine map_congr_left fun tab _ => ?_
  exact Prod.ext (id_withPanes entityId panes tab) (asTerminal_withPanes entityId panes tab)

theorem related_loadTabLeaves (context : WorkspaceLayoutLoadContext P)
    (layouts : OrderedMap String (PaneLayout P)) (state : LeafLoad P) (place : String × String) :
    Related SameShell state.workspaces (loadTabLeaves context layouts state place).workspaces := by
  rw [loadTabLeaves]
  cases hfound : locateStored state.workspaces layouts place with
  | none => exact Related.refl SameShell.refl state.workspaces
  | some found =>
    obtain ⟨workspace, tab, stored⟩ := found
    obtain ⟨hworkspace, -, -⟩ := locateStored_eq_some.mp hfound
    refine Related.set SameShell.refl hworkspace ⟨?_, rfl⟩
    exact tabNames_withPanes _ _ workspace.tabs

theorem related_unbindDuplicate (state : Unbinding P) (pane : String × String) :
    Related (fun before after => ∃ leaves, after = { before with leaves }) state.workspaces
      (unbindDuplicate state pane).workspaces := by
  have hrefl : ∀ workspace : WorkspaceLayout P, ∃ leaves, workspace = { workspace with leaves } :=
    fun workspace => ⟨workspace.leaves, rfl⟩
  rw [unbindDuplicate]
  cases hfound : locateBound state.workspaces pane with
  | none => exact Related.refl hrefl state.workspaces
  | some found =>
    obtain ⟨workspace, leaf, ptyId⟩ := found
    obtain ⟨hworkspace, -, -⟩ := locateBound_eq_some.mp hfound
    dsimp only
    split_ifs
    · exact Related.set hrefl hworkspace ⟨_, rfl⟩
    · exact Related.refl hrefl state.workspaces

theorem related_loadLeaves (context : WorkspaceLayoutLoadContext P)
    (session : WorkspaceSessionState P) (layouts : OrderedMap String (PaneLayout P))
    (model : WorkspaceLayoutModel P) : Related SameShell model.workspaces
      (loadLeaves context session layouts model).1.workspaces :=
  Related.foldl SameShell.refl SameShell.trans LeafLoad.workspaces (loadTabLeaves context layouts)
    (related_loadTabLeaves context layouts) _ { workspaces := model.workspaces, records := _ }

theorem related_unbindDuplicateTerminals (model : WorkspaceLayoutModel P) :
    Related (fun before after => ∃ leaves, after = { before with leaves }) model.workspaces
      (unbindDuplicateTerminals model).workspaces := by
  refine Related.foldl (fun workspace => ⟨workspace.leaves, rfl⟩) ?_ Unbinding.workspaces
    unbindDuplicate related_unbindDuplicate _ { workspaces := model.workspaces }
  rintro first _ _ ⟨_, rfl⟩ ⟨leaves, rfl⟩
  exact ⟨leaves, rfl⟩

theorem related_boundModel (runtime : LayoutRuntime P) (hostId : String)
    (session : WorkspaceSessionState P) (context : WorkspaceLayoutLoadContext P) :
    Related SameShell (loadWorkspaces runtime hostId session context).workspaces
      (boundModel runtime hostId session context).1.workspaces := by
  rw [boundModel]
  generalize loadWorkspaces runtime hostId session context = loaded
  dsimp only
  have hplaced : Related SameShell loaded.workspaces
      (placedModel hostId session loaded).workspaces := by
    refine (related_placeClosedTabs session loaded.workspaces).mono ?_
    rintro before _ ⟨_, rfl⟩
    exact .of_tabs rfl rfl
  have hleaves := related_loadLeaves context session loaded.layouts
    (placedModel hostId session loaded)
  have hbound := (related_unbindDuplicateTerminals (loadLeaves context session loaded.layouts
    (placedModel hostId session loaded)).1).mono (S := SameShell) (by
      rintro before _ ⟨_, rfl⟩
      exact .of_tabs rfl rfl)
  exact (hplaced.trans SameShell.trans hleaves).trans SameShell.trans hbound

/-! ## Each row once -/

def terminalRows (model : WorkspaceLayoutModel P) : List (String × String) :=
  model.workspaces.pairs.flatMap fun entry =>
    (terminalRowIds entry.2.tabs).map fun rowId => (entry.1, rowId)

/-- What holds of a row that is left out. -/
structure Subsumed (session : WorkspaceSessionState P) (home : String) (row : TerminalTab P) :
    Prop where
  unnamed : ¬ NamedByEntry session home row.id
  claimed : ∀ ptyId ∈ (readPersistedTerminalPtyIds session row).owned,
    ∃ claimant ∈ session.rows home, NamedByEntry session home claimant.id ∧
      ptyId ∈ (readPersistedTerminalPtyIds session claimant).claimable

theorem flatMap_of_single {A B : Type} [DecidableEq A] {items : List A} (hnodup : items.Nodup)
    {item : A} (hitem : item ∈ items) {f : A → List B} (hf : ∀ other, other ≠ item → f other = []) :
    items.flatMap f = f item := by
  obtain ⟨before, after, rfl⟩ := mem_iff_append.mp hitem
  have hempty : ∀ part : List A, item ∉ part → part.flatMap f = [] := fun part hpart =>
    flatMap_eq_nil_iff.mpr fun other hother => hf other fun hsame => hpart (hsame ▸ hother)
  rw [nodup_middle, nodup_cons, mem_append, not_or] at hnodup
  rw [flatMap_append, flatMap_cons, hempty before hnodup.1.1, hempty after hnodup.1.2,
    nil_append, append_nil]

section Rows

variable (runtime : LayoutRuntime P) (hostId : String) (session : WorkspaceSessionState P)
  (context : WorkspaceLayoutLoadContext P)

theorem loadWorkspaces_spec :
    (loadWorkspaces runtime hostId session context).workspaces.keys = workspaceKeys session ∧
      ∀ key ∈ workspaceKeys session, ∃ loaded, Took (loadArgs runtime hostId session context key)
          (loadWorkspaces runtime hostId session context) loaded ∧
        ∃ layouts redirected,
          loaded = loadTabs (loadArgs runtime hostId session context key) layouts redirected := by
  obtain ⟨⟨hkeys, -⟩, htook, -⟩ := loadNext_spec
    (loadArgs runtime hostId session context) (fun _ => rfl) (fun _ => rfl)
    (workspaceKeys session) (nodup_workspaceKeys session) {} (fun _ _ hmem => by cases hmem)
    (fun _ _ _ _ => rfl)
  exact ⟨hkeys, htook⟩

theorem terminalRows_boundModel : terminalRows (boundModel runtime hostId session context).1 =
      (workspaceKeys session).flatMap fun key =>
        (((loadWorkspaces runtime hostId session context).workspaces.lookup key).map
          fun workspace =>
            (terminalRowIds workspace.tabs).map fun rowId => (key, rowId)).getD [] := by
  rw [terminalRows, (related_boundModel runtime hostId session context).flatMap_pairs
    (fun key before after hshell => by dsimp only; rw [hshell.rows]), flatMap_pairs,
    (loadWorkspaces_spec runtime hostId session context).1]

variable {runtime hostId session context} in
theorem rows_of_took {key : String} {loaded : LoadedTabs P}
    (htook : Took (loadArgs runtime hostId session context key)
      (loadWorkspaces runtime hostId session context) loaded) :
    (((loadWorkspaces runtime hostId session context).workspaces.lookup key).map
      fun workspace => (terminalRowIds workspace.tabs).map fun rowId => (key, rowId)).getD [] =
      loaded.merged.map fun rowId => (key, rowId) := by
  have hworkspace := htook.workspace
  rw [loadArgs] at hworkspace
  dsimp only at hworkspace
  rw [hworkspace, Option.map_some, Option.getD_some, ← htook.loads.terminals, terminalRowIds,
    (sameTabs_workspaceOf _ loaded).2, terminalRowIds]

variable {runtime hostId session context} in
theorem filter_terminalRows {home rowId : String} {loaded : LoadedTabs P}
    (hhome : (resolveTerminalHomes session).lookup rowId = some home)
    (hkey : home ∈ workspaceKeys session)
    (htook : Took (loadArgs runtime hostId session context home)
      (loadWorkspaces runtime hostId session context) loaded) :
    (terminalRows (boundModel runtime hostId session context).1).filter (·.2 = rowId) =
      if rowId ∈ loaded.merged then [(home, rowId)] else [] := by
  rw [terminalRows_boundModel, filter_flatMap, flatMap_of_single (nodup_workspaceKeys session) hkey]
  · rw [rows_of_took htook, filter_map]
    change (loaded.merged.filter fun other => decide (other = rowId)).map _ = _
    have hcount := filter_eq rowId (l := loaded.merged)
    split_ifs with hmerged
    · rw [hcount, count_eq_one_of_mem htook.loads.nodup hmerged]
      rfl
    · rw [hcount, count_eq_zero_of_not_mem hmerged]
      rfl
  · intro key hdiffer
    rw [filter_eq_nil_iff]
    intro place hplace
    rw [decide_eq_true_eq]
    rintro rfl
    by_cases hother : key ∈ workspaceKeys session
    · obtain ⟨other, hotherTook, -⟩ :=
        (loadWorkspaces_spec runtime hostId session context).2 key hother
      rw [rows_of_took hotherTook, mem_map] at hplace
      obtain ⟨rowId, hrowId, rfl⟩ := hplace
      refine not_mem_takeRows (loadArgs runtime hostId session context) (fun _ => rfl)
        (fun _ => rfl) (fun hsame => hdiffer ?_) (hotherTook.loads.known hrowId)
      exact Option.some.inj (hsame.symm.trans hhome)
    · rw [← (loadWorkspaces_spec runtime hostId session context).1, ← AList.mem_keys] at hother
      rw [AList.lookup_eq_none.mpr hother] at hplace
      cases hplace

theorem layout_load : (loadWorkspaceLayoutWithoutReport runtime hostId session context).layout =
      (retireLoadedLegacySurfaces (boundModel runtime hostId session context).1 session
        (boundModel runtime hostId session context).2.incarnations).1 := rfl

theorem terminalRows_load (hclean : session.tombstones = []) :
    terminalRows (loadWorkspaceLayoutWithoutReport runtime hostId session context).layout =
      terminalRows (boundModel runtime hostId session context).1 := by
  have hretired : ∀ model unplaced, retireLoadedLegacySurfaces model session unplaced =
      (updateLegacyPersistence model { model } [], unplaced) := by
    intro model unplaced
    rw [retireLoadedLegacySurfaces]
    exact if_pos hclean
  rw [layout_load, hretired, terminalRows, workspaces_updateLegacyPersistence, terminalRows]

/-- Each stored row is one terminal of its home, or leads to one that the tab bar names. -/
theorem loadedTerminals (hclean : session.tombstones = []) {key : String} {row : TerminalTab P}
    (hrow : row ∈ session.rows key) :
    let layout := (loadWorkspaceLayoutWithoutReport runtime hostId session context).layout
    let redirected :=
      (loadWorkspaces runtime hostId session context).canonicalTabIdBySubsumedTabId
    ∃ home kept, (resolveTerminalHomes session).lookup row.id = some home ∧
      rowOf (session.rows home) row.id = some kept ∧
      match redirected.lookup row.id with
      | none => (terminalRows layout).filter (·.2 = row.id) = [(home, row.id)]
      | some canonicalTabId =>
        Subsumed session home kept ∧ (terminalRows layout).filter (·.2 = row.id) = [] ∧
          (home, canonicalTabId) ∈ terminalRows layout := by
  dsimp only
  rw [terminalRows_load runtime hostId session context hclean]
  obtain ⟨home, hhome⟩ := (resolveTerminalHomes_spec session row.id).2 key row hrow rfl
  obtain ⟨stored, hstored, hid⟩ := (resolveTerminalHomes_spec session row.id).1 home hhome
  have hkey := mem_workspaceKeys hstored
  obtain ⟨loaded, htook, -⟩ := (loadWorkspaces_spec runtime hostId session context).2 home hkey
  obtain ⟨kept, hkept⟩ : ∃ kept, rowOf (session.rows home) row.id = some kept := by
    rw [← Option.isSome_iff_exists, ← Option.ne_none_iff_isSome, Ne, rowOf_eq_none, not_not]
    exact hid ▸ mem_map_of_mem hstored
  have hkeptId := (mem_of_rowOf hkept).2
  have htaken : kept ∈ takeRows (loadArgs runtime hostId session context home) := by
    refine ((takeRows_spec _).2 kept).mpr ?_
    rw [hkeptId]
    exact ⟨hhome, hkept⟩
  have hsettles := htook.settles kept htaken
  have hredirected := (htook.rest kept htaken).2
  rw [hkeptId] at hredirected
  refine ⟨home, kept, hhome, hkept, ?_⟩
  rw [filter_terminalRows hhome hkey htook, hredirected]
  rw [Settles, hkeptId] at hsettles
  split_ifs at hsettles ⊢ with hmerged
  · rw [hsettles]
  · obtain ⟨canonicalTabId, hclaim, hlookup⟩ := hsettles
    rw [hlookup]
    obtain ⟨hunnamed, hclaimed, claimant, hclaimant, rfl, hnamed⟩ := subsumed_spec hclaim
    have hrows : ∀ other ∈ takeRows (loadArgs runtime hostId session context home),
        other ∈ session.rows home := fun other hother =>
      (mem_of_rowOf (((takeRows_spec _).2 other).mp hother).2).1
    refine ⟨⟨hunnamed, fun ptyId hptyId => ?_⟩, rfl, ?_⟩
    · obtain ⟨other, hother, hothers⟩ := hclaimed ptyId hptyId
      exact ⟨other, hrows other hother, hothers⟩
    · have hmergedClaimant := merged_of_named _ (htook.settles claimant hclaimant) hnamed
      have hhomeClaimant := (((takeRows_spec _).2 claimant).mp hclaimant).1
      have honce := filter_terminalRows hhomeClaimant hkey htook
      rw [if_pos hmergedClaimant] at honce
      exact (mem_filter.mp (honce ▸ mem_singleton_self _)).1

end Rows

/-! ## A row that its twin replaces -/

def ownerRuntime : LayoutRuntime Unit where
  layoutOwnerIsMain := true
  evenRatio := ()
  isNearEven _ := true
  share _ _ := ()
  roundRatio ratio := ratio

def storedRow (id : String) (ptyId : Option String) : TerminalTab Unit where
  id
  ptyId
  worktreeId := "w"
  title := id
  customTitle := none
  color := none
  sortOrder := 0
  createdAt := 0

def storedEntry (id groupId : String) : Tab Unit where
  id
  entityId := id
  groupId
  worktreeId := "w"
  contentType := .terminal
  label := id
  customLabel := none
  color := none
  sortOrder := 0
  createdAt := 0

def twinSession : WorkspaceSessionState Unit where
  tabsByWorktree := .ofPairs [("w", [storedRow "a" (some "p"), storedRow "b" (some "p")])]
  unifiedTabs := .ofPairs [("w", [storedEntry "a" "g"])]
  tabGroups := .ofPairs [("w", [⟨"g", "w", ["a"]⟩])]

theorem loadedTerminals_twin : (loadWorkspaces ownerRuntime "local" twinSession
        nameBasedLoadContext).canonicalTabIdBySubsumedTabId.lookup "b" = some "a" ∧
      ∃ home, (home, "a") ∈ terminalRows (loadWorkspaceLayoutWithoutReport ownerRuntime "local"
        twinSession nameBasedLoadContext).layout := by
  have hredirected : (loadWorkspaces ownerRuntime "local" twinSession
      nameBasedLoadContext).canonicalTabIdBySubsumedTabId.lookup (storedRow "b" (some "p")).id =
        some "a" := by decide +kernel
  have hrow : storedRow "b" (some "p") ∈ twinSession.rows "w" := by decide +kernel
  obtain ⟨home, kept, -, -, hled⟩ := loadedTerminals ownerRuntime "local" twinSession
    nameBasedLoadContext rfl hrow
  rw [hredirected] at hled
  exact ⟨hredirected, home, hled.2.2⟩

end Wakii.LayoutLoad
