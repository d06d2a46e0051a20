import Wakii.Layout.LoadTabs

/-!
# Each row becomes one terminal

The loop over the tab bar and the loop over the rows together give every row
that the workspace keeps one terminal, or redirect it to another row's.
-/

namespace Wakii.LayoutLoad

open List OrderedCollections OrderedMap
open Wakii.CommandSteps Wakii.LayoutModel Wakii.PtyOwnership

variable {P : Type} {args : WorkspaceLoadArgs P}

/-! ## The rows a workspace keeps -/

def terminalRowIds (tabs : List (LayoutTab P)) : List String :=
  (tabs.filterMap asTerminal).map (·.entityId)

theorem terminalRowIds_append_terminal (tabs : List (LayoutTab P)) (tab : LayoutTerminalTab P) :
    terminalRowIds (tabs ++ [.terminal tab]) = terminalRowIds tabs ++ [tab.entityId] := by
  rw [terminalRowIds, filterMap_append, map_append]
  rfl

theorem terminalRowIds_append_content (tabs : List (LayoutTab P)) (tab : LayoutContentTab P) :
    terminalRowIds (tabs ++ [.content tab]) = terminalRowIds tabs := by
  rw [terminalRowIds, filterMap_append]
  exact congrArg _ (append_nil _)

theorem mem_terminalRowIds {tabs : List (LayoutTab P)} {tab : LayoutTerminalTab P}
    (htab : LayoutTab.terminal tab ∈ tabs) : tab.entityId ∈ terminalRowIds tabs :=
  mem_map_of_mem (mem_filterMap.mpr ⟨.terminal tab, htab, rfl⟩)

variable {rows : List (TerminalTab P)}

theorem mem_of_rowOf {rowId : String} {row : TerminalTab P} (hrow : rowOf rows rowId = some row) :
    row ∈ rows ∧ row.id = rowId :=
  ⟨mem_of_find?_eq_some hrow, by simpa using find?_some hrow⟩

theorem rowOf_append (rows others : List (TerminalTab P)) (rowId : String) :
    rowOf (rows ++ others) rowId = (rowOf rows rowId).or (rowOf others rowId) :=
  find?_append

theorem rowOf_singleton (row : TerminalTab P) (rowId : String) :
    rowOf [row] rowId = if row.id = rowId then some row else none := by
  split_ifs with hid
  · exact find?_cons_of_pos (by simpa using hid)
  · exact find?_cons_of_neg (by simpa using hid)

theorem rowOf_eq_none {rowId : String} : rowOf rows rowId = none ↔ rowId ∉ rows.map (·.id) := by
  simp [rowOf, find?_eq_none]

/-- A workspace keeps the first row of each id that it is the home of. -/
theorem takeRows_spec (args : WorkspaceLoadArgs P) : ((takeRows args).map (·.id)).Nodup ∧
      ∀ row, row ∈ takeRows args ↔ args.terminalHomes.lookup row.id = some args.key ∧
          rowOf (args.session.rows args.key) row.id = some row := by
  rw [takeRows]
  induction args.session.rows args.key using List.reverseRecOn with
  | nil =>
    refine ⟨nodup_nil, fun row => ⟨fun hrow => absurd hrow not_mem_nil, ?_⟩⟩
    rintro ⟨-, hrow⟩
    cases hrow
  | append_singleton rows row ih =>
    rw [foldl_append, foldl_cons, foldl_nil]
    generalize List.foldl _ [] rows = taken at ih ⊢
    obtain ⟨hnodup, htaken⟩ := ih
    split_ifs with hskip
    · refine ⟨hnodup, fun other => ?_⟩
      rw [htaken, rowOf_append, rowOf_singleton]
      refine and_congr_right fun hhome => ?_
      cases hother : rowOf rows other.id with
      | some found => rfl
      | none =>
        rw [Option.none_or]
        refine iff_of_false (nofun) fun hrow => ?_
        split_ifs at hrow
        cases hrow
        rcases hskip with hmem | hhomeless
        · obtain ⟨held, hheld, hid⟩ := mem_map.mp hmem
          rw [htaken, hid, hother] at hheld
          cases hheld.2
        · exact hhomeless hhome
    · obtain ⟨hmem, hhome⟩ := not_or.mp hskip
      rw [not_ne_iff] at hhome
      refine ⟨?_, fun other => ?_⟩
      · rw [map_append]
        refine hnodup.append (nodup_singleton _) fun rowId hrowId hsame => ?_
        rw [map_singleton, mem_singleton] at hsame
        exact hmem (hsame ▸ hrowId)
      · rw [mem_append, htaken, mem_singleton, rowOf_append, rowOf_singleton]
        constructor
        · rintro (⟨hotherHome, hother⟩ | rfl)
          · rw [hother]
            exact ⟨hotherHome, rfl⟩
          · cases hother : rowOf rows other.id with
            | none => exact ⟨hhome, by rw [Option.none_or, if_pos rfl]⟩
            | some found =>
              obtain ⟨hfound, hid⟩ := mem_of_rowOf hother
              refine absurd (mem_map.mpr ⟨found, ?_, hid⟩) hmem
              exact (htaken found).mpr ⟨hid.symm ▸ hhome, hid.symm ▸ hother⟩
        · rintro ⟨hotherHome, hother⟩
          cases hfound : rowOf rows other.id with
          | some found =>
            rw [hfound, Option.some_or] at hother
            exact Or.inl ⟨hotherHome, hother⟩
          | none =>
            rw [hfound, Option.none_or] at hother
            split_ifs at hother
            cases hother
            exact Or.inr rfl

/-! ## The tabs so far -/

/-- What every step of the loops keeps, over the rows of the workspace. -/
structure Loads (args : WorkspaceLoadArgs P) (rows : List (TerminalTab P))
    (loaded : LoadedTabs P) : Prop where
  terminals : terminalRowIds loaded.tabs = loaded.merged
  nodup : loaded.merged.Nodup
  known : loaded.merged ⊆ rows.map (·.id)
  tabs : loaded.tabs.map (·.id) = loaded.tabIds
  candidates : loaded.candidates.map (·.id) = loaded.tabIds
  layouts : ∀ tab, LayoutTab.terminal tab ∈ loaded.tabs → ∃ row entry, row.id = tab.entityId ∧
      loaded.layouts.lookup tab.entityId = some (loadPanes args row tab.entityId entry) ∧
        tab.panes.root = (loadPanes args row tab.entityId entry).root

/-- Other workspaces' rows keep what was loaded of them. -/
structure LeavesRest (rows : List (TerminalTab P)) (before after : LoadedTabs P) : Prop where
  layouts : ∀ rowId ∉ rows.map (·.id), after.layouts.lookup rowId = before.layouts.lookup rowId
  redirected : ∀ rowId ∉ rows.map (·.id), after.canonicalTabIdBySubsumedTabId.lookup rowId =
    before.canonicalTabIdBySubsumedTabId.lookup rowId

theorem LeavesRest.refl (rows : List (TerminalTab P)) (loaded : LoadedTabs P) :
    LeavesRest rows loaded loaded := ⟨fun _ _ => rfl, fun _ _ => rfl⟩

theorem LeavesRest.trans {before middle after : LoadedTabs P}
    (hfirst : LeavesRest rows before middle) (hsecond : LeavesRest rows middle after) :
    LeavesRest rows before after :=
  ⟨fun rowId hrow => (hsecond.layouts rowId hrow).trans (hfirst.layouts rowId hrow),
    fun rowId hrow => (hsecond.redirected rowId hrow).trans (hfirst.redirected rowId hrow)⟩

section Steps

variable {rows : List (TerminalTab P)} {loaded : LoadedTabs P} {row : TerminalTab P}

theorem loads_start (args : WorkspaceLoadArgs P) (rows : List (TerminalTab P))
    (layouts : OrderedMap String (PaneLayout P))
    (redirected : OrderedMap String String) :
    Loads args rows { layouts, canonicalTabIdBySubsumedTabId := redirected } where
  terminals := rfl
  nodup := nodup_nil
  known := nil_subset _
  tabs := rfl
  candidates := rfl
  layouts := fun _ htab => absurd htab not_mem_nil

theorem entityId_loadTerminalTab {entry : Option (Tab P)}
    (hentry : ∀ named, entry = some named → named.entityId = row.id) :
    (loadTerminalTab row entry).entityId = row.id := by
  cases entry with
  | none => rfl
  | some named => exact hentry named rfl

section

variable (hloads : Loads args rows loaded)
include hloads

theorem Loads.addTerminal (hrow : row ∈ rows)
    (hnew : row.id ∉ loaded.merged) {entry : Option (Tab P)}
    (hentry : ∀ named, entry = some named → named.entityId = row.id) :
    Loads args rows (addTerminal args row entry loaded) ∧
      LeavesRest rows loaded (addTerminal args row entry loaded) := by
  have hentity := entityId_loadTerminalTab hentry
  refine ⟨{
      terminals := ?_, nodup := ?_, known := ?_, tabs := ?_, candidates := ?_, layouts := ?_ },
    ?_, fun _ _ => rfl⟩
  · refine (terminalRowIds_append_terminal loaded.tabs _).trans ?_
    rw [hloads.terminals]
    exact congrArg (loaded.merged ++ [·]) hentity
  · refine hloads.nodup.append (nodup_singleton _) fun rowId hrowId hsame => ?_
    rw [mem_singleton] at hsame
    exact hnew (hsame ▸ hrowId)
  · refine append_subset.mpr ⟨hloads.known, ?_⟩
    rintro rowId hrowId
    rw [mem_singleton] at hrowId
    exact hrowId ▸ mem_map_of_mem hrow
  · refine map_append.trans ?_
    rw [hloads.tabs]
    rfl
  · refine map_append.trans ?_
    rw [hloads.candidates]
    rfl
  · intro tab htab
    dsimp only [LayoutLoad.addTerminal] at htab ⊢
    rw [mem_append, mem_singleton] at htab
    rcases htab with htab | htab
    · have hother : tab.entityId ≠ (loadTerminalTab row entry).entityId := by
        intro hsame
        rw [hentity] at hsame
        exact hnew (hsame ▸ hloads.terminals ▸ mem_terminalRowIds htab)
      rw [lookup_set_ne _ _ hother]
      exact hloads.layouts tab htab
    · cases htab
      exact ⟨row, entry, hentity.symm, lookup_set_self _ _ _, rfl⟩
  · intro rowId hrowId
    refine lookup_set_ne _ _ ?_
    rintro rfl
    exact hrowId (hentity ▸ mem_map_of_mem hrow)

theorem Loads.addContentTab {tab : LayoutContentTab P}
    {candidate : OrderCandidate} (hid : candidate.id = tab.id) :
    Loads args rows { loaded with
      tabs := loaded.tabs ++ [.content tab]
      candidates := loaded.candidates ++ [candidate]
      tabIds := loaded.tabIds ++ [tab.id] } where
  terminals := (terminalRowIds_append_content loaded.tabs tab).trans hloads.terminals
  nodup := hloads.nodup
  known := hloads.known
  tabs := by
    rw [map_append, hloads.tabs]
    rfl
  candidates := by
    rw [map_append, hloads.candidates, map_singleton, hid]
  layouts := by
    intro other hother
    rcases mem_append.mp hother with hother | hother
    · exact hloads.layouts other hother
    · rw [mem_singleton] at hother
      cases hother

theorem Loads.loadEntry (aliases : OrderedMap String String) (entry : Tab P) :
    Loads args rows (loadEntry args rows aliases loaded entry) ∧
      LeavesRest rows loaded (loadEntry args rows aliases loaded entry) := by
  rw [LayoutLoad.loadEntry]
  split_ifs
  · exact ⟨hloads, .refl rows loaded⟩
  cases entry.contentType with
  | terminal =>
    dsimp only
    cases hrow : rowOf rows entry.entityId with
    | none => exact ⟨hloads, .refl rows loaded⟩
    | some row =>
      obtain ⟨hmem, hid⟩ := mem_of_rowOf hrow
      dsimp only
      split_ifs with hmerged
      · exact ⟨hloads, .refl rows loaded⟩
      · refine hloads.addTerminal hmem hmerged ?_
        rintro named ⟨⟩
        exact hid.symm
  | content kind =>
    dsimp only
    split_ifs
    · exact ⟨hloads.addContentTab rfl, fun _ _ => rfl, fun _ _ => rfl⟩
    · exact ⟨hloads, .refl rows loaded⟩

theorem Loads.repairBrowserTab
    (groupId : Option String) (seen : List String) (record : BrowserWorkspace) :
    Loads args rows (repairBrowserTab args groupId (loaded, seen) record).1 ∧
      LeavesRest rows loaded (repairBrowserTab args groupId (loaded, seen) record).1 := by
  rw [LayoutLoad.repairBrowserTab]
  split_ifs
  · exact ⟨hloads, .refl rows loaded⟩
  exact ⟨hloads.addContentTab rfl, fun _ _ => rfl, fun _ _ => rfl⟩

end

theorem Loads.foldl {A : Type} {step : LoadedTabs P → A → LoadedTabs P}
    (hstep : ∀ loaded item, Loads args rows loaded →
      Loads args rows (step loaded item) ∧ LeavesRest rows loaded (step loaded item))
    (items : List A) (hloads : Loads args rows loaded) :
    Loads args rows (items.foldl step loaded) ∧
      LeavesRest rows loaded (items.foldl step loaded) := by
  induction items generalizing loaded with
  | nil => exact ⟨hloads, .refl rows loaded⟩
  | cons item items ih =>
    obtain ⟨hnext, hrest⟩ := hstep loaded item hloads
    obtain ⟨hend, hends⟩ := ih hnext
    exact ⟨hend, hrest.trans hends⟩

theorem Loads.repairBrowserTabs (hloads : Loads args rows loaded) :
    Loads args rows (repairBrowserTabs args loaded) ∧
      LeavesRest rows loaded (repairBrowserTabs args loaded) := by
  rw [LayoutLoad.repairBrowserTabs]
  split_ifs
  · exact ⟨hloads, .refl rows loaded⟩
  generalize browserRepairGroupId args loaded.candidates = groupId
  generalize browserEntities loaded.tabs = seen
  induction args.session.browserTabs args.key generalizing loaded seen with
  | nil => exact ⟨hloads, .refl rows loaded⟩
  | cons record records ih =>
    obtain ⟨hnext, hrest⟩ := hloads.repairBrowserTab groupId seen record
    obtain ⟨hend, hends⟩ :=
      ih hnext (LayoutLoad.repairBrowserTab args groupId (loaded, seen) record).2
    exact ⟨hend, hrest.trans hends⟩

/-! ## Redirected rows -/

theorem redirected_loadEntry (rows : List (TerminalTab P)) (aliases : OrderedMap String String)
    (loaded : LoadedTabs P) (entry : Tab P) :
    (loadEntry args rows aliases loaded entry).canonicalTabIdBySubsumedTabId =
      loaded.canonicalTabIdBySubsumedTabId := by
  rw [loadEntry]
  split_ifs
  · rfl
  cases entry.contentType with
  | terminal =>
    dsimp only
    cases rowOf rows entry.entityId with
    | none => rfl
    | some row =>
      dsimp only
      split_ifs <;> rfl
  | content kind =>
    dsimp only
    split_ifs <;> rfl

theorem redirected_repairBrowserTabs (loaded : LoadedTabs P) :
    (repairBrowserTabs args loaded).canonicalTabIdBySubsumedTabId =
      loaded.canonicalTabIdBySubsumedTabId := by
  rw [repairBrowserTabs]
  split_ifs
  · rfl
  refine List.foldlRecOn (args.session.browserTabs args.key) _
    (motive := fun state : LoadedTabs P × List String =>
    state.1.canonicalTabIdBySubsumedTabId = loaded.canonicalTabIdBySubsumedTabId) rfl
    fun state hstate record _ => ?_
  rw [repairBrowserTab]
  split_ifs
  · exact hstate
  · exact hstate

end Steps

/-! ## Every row settles -/

section Rows

variable {rows : List (TerminalTab P)} {canonical : CanonicalPtyOwners} {loaded : LoadedTabs P}

/-- The row has its terminal, or leads to the row that claims its terminals. -/
def Settles (args : WorkspaceLoadArgs P) (canonical : CanonicalPtyOwners)
    (loaded : LoadedTabs P) (row : TerminalTab P) : Prop :=
  if row.id ∈ loaded.merged then loaded.canonicalTabIdBySubsumedTabId.lookup row.id = none
  else
    ∃ canonicalTabId,
      resolveCanonicalPtyClaim args.session row canonical = .subsumed canonicalTabId ∧
        loaded.canonicalTabIdBySubsumedTabId.lookup row.id = some canonicalTabId

def SameOf (before after : LoadedTabs P) (rowId : String) : Prop :=
  (rowId ∈ after.merged ↔ rowId ∈ before.merged) ∧
    after.canonicalTabIdBySubsumedTabId.lookup rowId =
      before.canonicalTabIdBySubsumedTabId.lookup rowId

theorem Settles.congr {after : LoadedTabs P} {row : TerminalTab P}
    (hsettles : Settles args canonical loaded row) (hsame : SameOf loaded after row.id) :
    Settles args canonical after row := by
  rw [Settles] at hsettles ⊢
  simp only [hsame.1, hsame.2]
  exact hsettles

theorem Loads.settleRow (hloads : Loads args rows loaded)
    (canonical : CanonicalPtyOwners) {row : TerminalTab P} (hrow : row ∈ rows)
    (hnone : loaded.canonicalTabIdBySubsumedTabId.lookup row.id = none) :
    (Loads args rows (loadRow args canonical loaded row) ∧
      LeavesRest rows loaded (loadRow args canonical loaded row)) ∧
      Settles args canonical (loadRow args canonical loaded row) row ∧
        ∀ other, other ≠ row.id → SameOf loaded (loadRow args canonical loaded row) other := by
  rw [LayoutLoad.loadRow]
  split_ifs with hmerged
  · exact ⟨⟨hloads, .refl rows loaded⟩, by rw [Settles, if_pos hmerged]; exact hnone,
      fun _ _ => ⟨Iff.rfl, rfl⟩⟩
  cases hclaim : resolveCanonicalPtyClaim args.session row canonical with
  | subsumed canonicalTabId =>
    refine ⟨⟨{ hloads with }, fun _ _ => rfl, fun rowId hrowId => ?_⟩, ?_, fun other hother => ?_⟩
    · refine lookup_set_ne _ _ ?_
      rintro rfl
      exact hrowId (mem_map_of_mem hrow)
    · rw [Settles, if_neg hmerged]
      exact ⟨canonicalTabId, hclaim, lookup_set_self _ _ _⟩
    · exact ⟨Iff.rfl, lookup_set_ne _ _ hother⟩
  | retained =>
    have hadded := hloads.addTerminal hrow hmerged
      (fun named hnamed => nomatch (hnamed : none = some named))
    have hown : row.id ∈ (LayoutLoad.addTerminal args row none loaded).merged :=
      mem_append_right _ (mem_singleton_self _)
    refine ⟨hadded, ?_, fun other hother => ⟨?_, rfl⟩⟩
    · dsimp only
      rw [Settles, if_pos hown]
      exact hnone
    · refine mem_append.trans (or_iff_left ?_)
      rw [mem_singleton]
      exact hother

theorem Loads.settleRows (hloads : Loads args rows loaded)
    (canonical : CanonicalPtyOwners) (todo : List (TerminalTab P))
    (hnodup : (todo.map (·.id)).Nodup) (htodo : todo ⊆ rows)
    (hnone : ∀ row ∈ todo, loaded.canonicalTabIdBySubsumedTabId.lookup row.id = none) :
    (Loads args rows (todo.foldl (loadRow args canonical) loaded) ∧
      LeavesRest rows loaded (todo.foldl (loadRow args canonical) loaded)) ∧
      (∀ row ∈ todo, Settles args canonical (todo.foldl (loadRow args canonical) loaded) row) ∧
        ∀ other ∉ todo.map (·.id),
          SameOf loaded (todo.foldl (loadRow args canonical) loaded) other := by
  induction todo generalizing loaded with
  | nil =>
    exact ⟨⟨hloads, .refl rows loaded⟩, fun _ hrow => absurd hrow not_mem_nil,
      fun _ _ => ⟨Iff.rfl, rfl⟩⟩
  | cons row todo ih =>
    rw [map_cons, nodup_cons] at hnodup
    obtain ⟨⟨hnext, hrest⟩, hsettles, hothers⟩ :=
      hloads.settleRow canonical (htodo mem_cons_self) (hnone row mem_cons_self)
    have hne : ∀ other ∈ todo, other.id ≠ row.id := fun other hother hsame =>
      hnodup.1 (hsame ▸ mem_map_of_mem hother)
    obtain ⟨⟨hend, hends⟩, hsettled, hkept⟩ := ih hnext hnodup.2
      (fun other hother => htodo (mem_cons_of_mem _ hother))
      (fun other hother => by
        rw [(hothers other.id (hne other hother)).2]
        exact hnone other (mem_cons_of_mem _ hother))
    refine ⟨⟨hend, hrest.trans hends⟩, fun other hother => ?_, fun other hother => ?_⟩
    · rcases mem_cons.mp hother with rfl | hother
      · exact hsettles.congr (hkept _ hnodup.1)
      · exact hsettled other hother
    · rw [map_cons, mem_cons, not_or] at hother
      have hfirst := hothers other hother.1
      have hlast := hkept other hother.2
      exact ⟨hlast.1.trans hfirst.1, hlast.2.trans hfirst.2⟩

end Rows

/-- The rows kept of a workspace each settle, and nothing else of the load changes. -/
theorem loadTabs_spec (args : WorkspaceLoadArgs P) (layouts : OrderedMap String (PaneLayout P))
    (redirected : OrderedMap String String)
    (hnone : ∀ row ∈ takeRows args, redirected.lookup row.id = none) :
    Loads args (takeRows args) (loadTabs args layouts redirected) ∧
      LeavesRest (takeRows args) { layouts, canonicalTabIdBySubsumedTabId := redirected }
        (loadTabs args layouts redirected) ∧
      ∀ row ∈ takeRows args, Settles args
        (readCanonicalPtyOwners args.session args.key (takeRows args))
        (loadTabs args layouts redirected) row := by
  obtain ⟨hnamed, hnamedRest⟩ := (loads_start args (takeRows args) layouts redirected).foldl
    (fun loaded entry (hloads : Loads args (takeRows args) loaded) => hloads.loadEntry
      (duplicateEditorTabAliases args.runtime (args.session.entries args.key)) entry)
    (args.session.entries args.key)
  obtain ⟨hrepaired, hrepairedRest⟩ := hnamed.repairBrowserTabs
  obtain ⟨⟨hloads, hrest⟩, hsettles, -⟩ := hrepaired.settleRows
    (readCanonicalPtyOwners args.session args.key (takeRows args)) (takeRows args)
    (takeRows_spec args).1 (List.Subset.refl _) (fun row hrow => by
      rw [redirected_repairBrowserTabs]
      refine Eq.trans ?_ (hnone row hrow)
      exact congrArg (AList.lookup row.id) (List.foldlRecOn (args.session.entries args.key) _
        (motive := fun loaded : LoadedTabs P => loaded.canonicalTabIdBySubsumedTabId = redirected)
        rfl fun loaded hloaded entry _ => (redirected_loadEntry _ _ loaded entry).trans hloaded))
  exact ⟨hloads, (hnamedRest.trans hrepairedRest).trans hrest, hsettles⟩

/-! ## Claims -/

def NamedByEntry (session : WorkspaceSessionState P) (key rowId : String) : Prop :=
  ∃ entry ∈ session.entries key, entry.contentType = .terminal ∧ entry.entityId = rowId

section Claims

variable {session : WorkspaceSessionState P} {key : String} {rows : List (TerminalTab P)}
  {row : TerminalTab P}

theorem mem_canonical_tabIds {rowId : String} :
    rowId ∈ (readCanonicalPtyOwners session key rows).tabIds ↔ NamedByEntry session key rowId := by
  simp [readCanonicalPtyOwners, NamedByEntry, and_assoc]

theorem claimant_of_claimed {ptyId canonicalTabId : String}
    (hclaimed : (readCanonicalPtyOwners session key rows).tabIdByPtyId.lookup ptyId =
      some canonicalTabId) :
    ∃ claimant ∈ rows, claimant.id = canonicalTabId ∧ NamedByEntry session key claimant.id ∧
      ptyId ∈ (readPersistedTerminalPtyIds session claimant).claimable := by
  have hpair := mem_of_lookup_ofPairs hclaimed
  obtain ⟨claimant, hclaimant, hclaim⟩ := mem_flatMap.mp hpair
  obtain ⟨claimed, hptyId, hsame⟩ := mem_map.mp hclaim
  cases hsame
  obtain ⟨hrow, hnamed⟩ := mem_filter.mp hclaimant
  rw [Bool.and_eq_true, decide_eq_true_eq] at hnamed
  have hid : claimant.id ∈ (readCanonicalPtyOwners session key rows).tabIds := hnamed.1
  exact ⟨claimant, hrow, rfl, mem_canonical_tabIds.mp hid, hptyId⟩

theorem claimant_of_mem {ptyId : String}
    (hclaimed : ptyId ∈ (readCanonicalPtyOwners session key rows).tabIdByPtyId) :
    ∃ claimant ∈ rows, NamedByEntry session key claimant.id ∧
      ptyId ∈ (readPersistedTerminalPtyIds session claimant).claimable := by
  obtain ⟨canonicalTabId, hlookup⟩ := Option.isSome_iff_exists.mp (AList.lookup_isSome.mpr hclaimed)
  obtain ⟨claimant, hrow, -, hnamed, hclaim⟩ := claimant_of_claimed hlookup
  exact ⟨claimant, hrow, hnamed, hclaim⟩

/-- A row is left out only where the tab bar's rows claim all it owns. -/
theorem subsumed_spec {canonicalTabId : String}
    (hclaim : resolveCanonicalPtyClaim session row (readCanonicalPtyOwners session key rows) =
      .subsumed canonicalTabId) :
    ¬ NamedByEntry session key row.id ∧
      (∀ ptyId ∈ (readPersistedTerminalPtyIds session row).owned, ∃ claimant ∈ rows,
        NamedByEntry session key claimant.id ∧
          ptyId ∈ (readPersistedTerminalPtyIds session claimant).claimable) ∧
      ∃ claimant ∈ rows, claimant.id = canonicalTabId ∧ NamedByEntry session key claimant.id := by
  rw [resolveCanonicalPtyClaim] at hclaim
  split_ifs at hclaim with hnamed
  rw [mem_canonical_tabIds] at hnamed
  refine ⟨hnamed, ?_⟩
  dsimp only at hclaim
  generalize hclaimedIds : List.filter _ (readPersistedTerminalPtyIds session row).owned =
    claimed at hclaim
  cases hcanonical : truthy (claimed.head?.bind
      (readCanonicalPtyOwners session key rows).tabIdByPtyId.lookup) with
  | none =>
    rw [hcanonical] at hclaim
    cases hclaim
  | some found =>
    rw [hcanonical] at hclaim
    dsimp only at hclaim
    split_ifs at hclaim with hall
    cases hclaim
    have hkept := hclaimedIds ▸ hall
    rw [length_filter_eq_length_iff] at hkept
    refine ⟨fun ptyId hptyId => claimant_of_mem (of_decide_eq_true (hkept ptyId hptyId)), ?_⟩
    obtain ⟨ptyId, -, hlookup⟩ :=
      Option.bind_eq_some_iff.mp (Option.filter_eq_some_iff.mp hcanonical).1
    obtain ⟨claimant, hrow, hid, hclaimant, -⟩ := claimant_of_claimed hlookup
    exact ⟨claimant, hrow, hid, hclaimant⟩

theorem merged_of_named {loaded : LoadedTabs P} (args : WorkspaceLoadArgs P)
    (hsettles : Settles args (readCanonicalPtyOwners args.session args.key rows) loaded row)
    (hnamed : NamedByEntry args.session args.key row.id) : row.id ∈ loaded.merged := by
  by_contra hunmerged
  rw [Settles, if_neg hunmerged] at hsettles
  obtain ⟨canonicalTabId, hclaim, -⟩ := hsettles
  exact (subsumed_spec hclaim).1 hnamed

end Claims

end Wakii.LayoutLoad
