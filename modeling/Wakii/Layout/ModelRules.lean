import Mathlib.Data.List.Dedup
import Wakii.Layout.LayoutModel

/-!
# Structural breaches of a layout

The checks a layout passes before it is written.  Each breach names its rule,
the ids it is about and a text.  The last section says what a layout without
breaches is.
-/

namespace Wakii.ModelRules

open List OrderedCollections SplitTrees Wakii.LayoutModel Wakii.TerminalOwners OrderedMap

inductive WorkspaceLayoutRule where
  | terminalInTwoPanes | paneInTwoTabs | paneTwiceInOneTab | tabInTwoPlaces | tabWithoutGroup
  | groupEmpty | groupTreeMismatch | leafWithoutPane | leafSleepingAndResume | tabInTwoGroups
  | groupListsMissingTab
deriving DecidableEq

structure WorkspaceLayoutViolation where
  rule : WorkspaceLayoutRule
  hostId : String
  worktreeId : Option String
  ids : List String
  detail : String
deriving DecidableEq

structure PaneOwner where
  hostId : String
  worktreeId : String
  tabId : String
  leafId : String
  binding : TerminalBinding
deriving DecidableEq

variable {P : Type}

/-! ## Panes and their terminals -/

def describeOwner (owner : PaneOwner) : String :=
  owner.hostId ++ " " ++ owner.worktreeId ++ " " ++ owner.tabId ++ ":" ++ owner.leafId ++
    " → " ++ owner.binding.ptyId.getD "unbound"

def workspaceOwners (hostId : String) (workspace : WorkspaceLayout P) : List PaneOwner :=
  workspace.tabs.flatMap fun tab => tab.paneIds.map fun leafId =>
    { hostId
      worktreeId := workspace.worktreeId
      tabId := tab.entityId
      leafId
      binding := workspace.bindingOf leafId }

def paneOwners (model : WorkspaceLayoutModel P) : List PaneOwner :=
  model.workspaces.values.flatMap (workspaceOwners model.hostId)

/-- Owner partitions share PTY ids; a mirror of a remote server is checked alone. -/
def paneOwnerGroups (models : List (WorkspaceLayoutModel P)) : List (List PaneOwner) :=
  let shared := models.filter fun model => isTerminalOwnerPartition model.hostId
  let mirrors := models.filter fun model => !isTerminalOwnerPartition model.hostId
  shared.flatMap paneOwners :: mirrors.map paneOwners

def checkOwnerPair (left right : PaneOwner) : Option WorkspaceLayoutViolation :=
  let detail := describeOwner left ++ " | " ++ describeOwner right
  if left.leafId = right.leafId then
    some {
      rule :=
        if left.tabId = right.tabId && left.hostId = right.hostId then .paneTwiceInOneTab
        else .paneInTwoTabs
      hostId := left.hostId
      worktreeId := some left.worktreeId
      ids := [left.leafId, left.tabId, right.tabId]
      detail }
  else if isSameTerminal left.binding right.binding then
    some {
      rule := .terminalInTwoPanes
      hostId := left.hostId
      worktreeId := some left.worktreeId
      ids := [left.binding.ptyId.getD "", left.leafId, right.leafId]
      detail }
  else none

def checkOwners : List PaneOwner → List WorkspaceLayoutViolation
  | [] => []
  | left :: rest => rest.filterMap (checkOwnerPair left) ++ checkOwners rest

def checkPaneOwners (groups : List (List PaneOwner)) : List WorkspaceLayoutViolation :=
  groups.flatMap checkOwners

/-! ## Tabs of a host -/

def tabHomes (model : WorkspaceLayoutModel P) : List (String × String) :=
  model.workspaces.pairs.flatMap fun entry => entry.2.tabIds.map fun tabId => (tabId, entry.1)

def checkTabIds (model : WorkspaceLayoutModel P) : List WorkspaceLayoutViolation :=
  (OrderedMap.collect (tabHomes model)).pairs.flatMap fun entry =>
    if entry.2.length > 1 then
      [{ rule := .tabInTwoPlaces
         hostId := model.hostId
         worktreeId := none
         ids := [entry.1]
         detail := "tab " ++ entry.1 ++ " listed " ++ toString entry.2.length ++ " times: " ++
           ", ".intercalate entry.2 }]
    else []

/-! ## Groups and pane data of a workspace -/

def listings (workspace : WorkspaceLayout P) : List (String × String) :=
  workspace.groups.flatMap fun group => group.tabOrder.map fun tabId => (tabId, group.id)

def groupTreeIds (workspace : WorkspaceLayout P) : List String :=
  SplitTree.leavesOf workspace.groupLayout

def treeMatches (workspace : WorkspaceLayout P) : Bool :=
  match workspace.groupLayout with
  | some tree =>
    tree.leaves.length = workspace.groupIds.length &&
      (tree.leaves ++ workspace.groupIds).dedup.length = workspace.groupIds.length
  | none => workspace.groupIds.length ≤ 1

def kindText (tab : LayoutTab P) : String :=
  match tab.contentKind with
  | none => "terminal"
  | some .editor => "editor"
  | some .diff => "diff"
  | some .conflictReview => "conflict-review"
  | some .checkDetails => "check-details"
  | some .agentSession => "agent-session"
  | some .browser => "browser"
  | some .simulator => "simulator"

def leafEntries (workspace : WorkspaceLayout P) : List (String × LayoutLeaf P) :=
  (workspace.leaves.map OrderedMap.pairs).getD []

def strays (workspace : WorkspaceLayout P) : List String :=
  ((leafEntries workspace).map Prod.fst).filter fun leafId => leafId ∉ workspace.paneIds

def doubled (workspace : WorkspaceLayout P) : List String :=
  ((leafEntries workspace).filter fun entry =>
    entry.2.sleeping.isSome && entry.2.resume.isSome).map Prod.fst

def checkWorkspace (model : WorkspaceLayoutModel P) (workspace : WorkspaceLayout P) :
    List WorkspaceLayoutViolation :=
  let breach (rule : WorkspaceLayoutRule) (ids : List String) (detail : String) :
      WorkspaceLayoutViolation :=
    { rule, hostId := model.hostId, worktreeId := some workspace.worktreeId, ids, detail }
  let groupsByTab := OrderedMap.collect (listings workspace)
  let groupBreaches := workspace.groups.flatMap fun group =>
    (if group.tabOrder = [] then
      [breach .groupEmpty [group.id] ("group " ++ group.id ++ " holds no tab")]
    else []) ++
    group.tabOrder.flatMap fun tabId =>
      if tabId ∈ workspace.tabIds then []
      else
        [breach .groupListsMissingTab [group.id, tabId]
          ("group " ++ group.id ++ " lists " ++ tabId)]
  let tabBreaches := workspace.tabs.flatMap fun tab =>
    let owners := (groupsByTab.lookup tab.id).getD []
    if owners.length = 0 then
      [breach .tabWithoutGroup [tab.id]
        ("tab " ++ tab.id ++ " (" ++ kindText tab ++ ") is in no group")]
    else if owners.length > 1 then
      [breach .tabInTwoGroups (tab.id :: owners)
        ("tab " ++ tab.id ++ " is listed " ++ toString owners.length ++ " times")]
    else []
  let treeBreaches :=
    if treeMatches workspace then []
    else
      [breach .groupTreeMismatch (groupTreeIds workspace)
        ("group tree [" ++ ", ".intercalate (groupTreeIds workspace) ++ "] but groups [" ++
          ", ".intercalate workspace.groupIds ++ "]")]
  let strayBreaches :=
    if strays workspace = [] then []
    else [breach .leafWithoutPane (strays workspace) "pane data for panes no tab holds"]
  let doubledBreaches :=
    if doubled workspace = [] then []
    else
      [breach .leafSleepingAndResume (doubled workspace)
        "panes with both a sleep and a resume record"]
  groupBreaches ++ tabBreaches ++ treeBreaches ++ strayBreaches ++ doubledBreaches

/-- The check without earlier models to compare ids with. -/
def checkWorkspaceLayoutModelRules (models : List (WorkspaceLayoutModel P)) :
    List WorkspaceLayoutViolation :=
  checkPaneOwners (paneOwnerGroups models) ++ models.flatMap checkTabIds ++
    models.flatMap fun model => model.workspaces.values.flatMap (checkWorkspace model)

/-! ## Layouts without breaches -/

def Apart (left right : PaneOwner) : Prop :=
  left.leafId ≠ right.leafId ∧ isSameTerminal left.binding right.binding = false

theorem Apart.symm {left right : PaneOwner} (hapart : Apart left right) : Apart right left :=
  ⟨hapart.1.symm, by rw [isSameTerminal_comm, hapart.2]⟩

structure WorkspaceBreachFree (workspace : WorkspaceLayout P) : Prop where
  filled : ∀ group ∈ workspace.groups, group.tabOrder ≠ []
  known : ∀ tabId ∈ workspace.listed, tabId ∈ workspace.tabIds
  once : ∀ tabId ∈ workspace.tabIds, workspace.listed.count tabId = 1
  tree : treeMatches workspace
  held : ∀ leafId leaf, workspace.leaf? leafId = some leaf → leafId ∈ workspace.paneIds
  single : ∀ leafId leaf, workspace.leaf? leafId = some leaf →
    (leaf.sleeping.isSome && leaf.resume.isSome) = false

structure BreachFree (model : WorkspaceLayoutModel P) : Prop where
  panes : (paneOwners model).Pairwise Apart
  tabs : (model.workspaces.values.flatMap (·.tabIds)).Nodup
  workspaces : ∀ workspace ∈ model.workspaces.values, WorkspaceBreachFree workspace

theorem checkOwnerPair_eq_none {left right : PaneOwner} :
    checkOwnerPair left right = none ↔ Apart left right := by
  by_cases hleaf : left.leafId = right.leafId
  · simp [checkOwnerPair, Apart, hleaf]
  · simp [checkOwnerPair, Apart, hleaf]

theorem checkOwners_eq_nil {owners : List PaneOwner} :
    checkOwners owners = [] ↔ owners.Pairwise Apart := by
  induction owners with
  | nil => simp [checkOwners]
  | cons left rest ih =>
    rw [checkOwners, append_eq_nil_iff, filterMap_eq_nil_iff, ih, pairwise_cons]
    simp only [checkOwnerPair_eq_none]

variable (model : WorkspaceLayoutModel P) (workspace : WorkspaceLayout P)

theorem checkPaneOwners_single :
    checkPaneOwners (paneOwnerGroups [model]) = [] ↔ (paneOwners model).Pairwise Apart := by
  by_cases hhost : isTerminalOwnerPartition model.hostId
  · simp [checkPaneOwners, paneOwnerGroups, hhost, checkOwners_eq_nil]
  · simp [checkPaneOwners, paneOwnerGroups, hhost, checkOwners_eq_nil]

theorem map_fst_tabHomes :
    (tabHomes model).map Prod.fst = model.workspaces.values.flatMap (·.tabIds) := by
  simp [tabHomes, OrderedMap.pairs, OrderedMap.values, map_flatMap, flatMap_map, Function.comp_def]

theorem checkTabIds_eq_nil :
    checkTabIds model = [] ↔ (model.workspaces.values.flatMap (·.tabIds)).Nodup := by
  rw [checkTabIds, flatMap_eq_nil_iff, nodup_iff_count_le_one, ← map_fst_tabHomes]
  constructor
  · intro hchecked tabId
    by_cases htab : tabId ∈ OrderedMap.collect (tabHomes model)
    · obtain ⟨keys, hkeys⟩ := Option.isSome_iff_exists.mp (AList.lookup_isSome.mpr htab)
      have hentry := hchecked (tabId, keys) (mem_pairs.mpr hkeys)
      have hlength := length_collected (tabHomes model) tabId
      rw [← getD_lookup_collect, hkeys, Option.getD_some] at hlength
      rw [← hlength]
      by_contra hmany
      rw [if_pos (by dsimp only; omega)] at hentry
      exact cons_ne_nil _ _ hentry
    · rw [mem_collect] at htab
      rw [count_eq_zero_of_not_mem htab]
      exact Nat.zero_le 1
  · rintro hcount ⟨tabId, keys⟩ hentry
    have hlength := length_collected (tabHomes model) tabId
    rw [← getD_lookup_collect, mem_pairs.mp hentry, Option.getD_some] at hlength
    have hle := hcount tabId
    rw [← hlength] at hle
    exact if_neg (by dsimp only; omega)

theorem map_fst_listings : (listings workspace).map Prod.fst = workspace.listed := by
  simp [listings, WorkspaceLayout.listed, map_flatMap, Function.comp_def]

theorem length_owners (tabId : String) :
    (((OrderedMap.collect (listings workspace)).lookup tabId).getD []).length =
      workspace.listed.count tabId := by
  rw [getD_lookup_collect, length_collected, map_fst_listings]

theorem mem_leafEntries {workspace : WorkspaceLayout P} {leafId : String} {leaf : LayoutLeaf P} :
    (leafId, leaf) ∈ leafEntries workspace ↔ workspace.leaf? leafId = some leaf := by
  cases hleaves : workspace.leaves with
  | none => simp [leafEntries, WorkspaceLayout.leaf?, hleaves]
  | some leaves => simp [leafEntries, WorkspaceLayout.leaf?, hleaves, mem_pairs]

/-- The check finds nothing exactly where there is nothing to find. -/
theorem checkWorkspace_eq_nil :
    checkWorkspace model workspace = [] ↔ WorkspaceBreachFree workspace := by
  simp only [checkWorkspace, append_eq_nil_iff, flatMap_eq_nil_iff, length_owners]
  constructor
  · rintro ⟨⟨⟨⟨hgroups, htabs⟩, htree⟩, hstrays⟩, hdoubled⟩
    refine ⟨?_, ?_, ?_, ?_, ?_, ?_⟩
    · intro group hgroup hempty
      have hbreach := (hgroups group hgroup).1
      rw [if_pos hempty] at hbreach
      exact cons_ne_nil _ _ hbreach
    · intro tabId hlisted
      rw [WorkspaceLayout.listed, mem_flatMap] at hlisted
      obtain ⟨group, hgroup, htab⟩ := hlisted
      by_contra hmissing
      have hbreach := (hgroups group hgroup).2 tabId htab
      rw [if_neg hmissing] at hbreach
      exact cons_ne_nil _ _ hbreach
    · intro tabId htab
      rw [WorkspaceLayout.tabIds, mem_map] at htab
      obtain ⟨tab, htab, rfl⟩ := htab
      have hbreach := htabs tab htab
      by_cases hnone : workspace.listed.count tab.id = 0
      · rw [if_pos hnone] at hbreach
        exact absurd hbreach (cons_ne_nil _ _)
      · rw [if_neg hnone] at hbreach
        by_cases hmany : workspace.listed.count tab.id > 1
        · rw [if_pos hmany] at hbreach
          exact absurd hbreach (cons_ne_nil _ _)
        · omega
    · by_contra hmismatch
      rw [if_neg hmismatch] at htree
      exact cons_ne_nil _ _ htree
    · intro leafId leaf hleaf
      by_contra hstray
      have hmem : leafId ∈ strays workspace :=
        mem_filter.mpr ⟨mem_map.mpr ⟨(leafId, leaf), mem_leafEntries.mpr hleaf, rfl⟩,
          by simpa using hstray⟩
      rw [if_neg (ne_nil_of_mem hmem)] at hstrays
      exact cons_ne_nil _ _ hstrays
    · intro leafId leaf hleaf
      by_contra hboth
      have hmem : leafId ∈ doubled workspace :=
        mem_map.mpr ⟨(leafId, leaf), mem_filter.mpr ⟨mem_leafEntries.mpr hleaf,
          Bool.eq_true_of_not_eq_false hboth⟩, rfl⟩
      rw [if_neg (ne_nil_of_mem hmem)] at hdoubled
      exact cons_ne_nil _ _ hdoubled
  · intro hfree
    refine ⟨⟨⟨⟨?_, ?_⟩, ?_⟩, ?_⟩, ?_⟩
    · intro group hgroup
      refine ⟨if_neg (hfree.filled group hgroup), fun tabId htab => if_pos (hfree.known tabId ?_)⟩
      exact mem_flatMap.mpr ⟨group, hgroup, htab⟩
    · intro tab htab
      have honce := hfree.once tab.id (mem_map.mpr ⟨tab, htab, rfl⟩)
      rw [if_neg (by omega), if_neg (by omega)]
    · exact if_pos hfree.tree
    · apply if_pos
      rw [strays, filter_eq_nil_iff]
      intro leafId hleaf
      obtain ⟨⟨_, leaf⟩, hentry, rfl⟩ := mem_map.mp hleaf
      simpa using hfree.held _ leaf (mem_leafEntries.mp hentry)
    · apply if_pos
      rw [doubled, map_eq_nil_iff, filter_eq_nil_iff]
      rintro ⟨leafId, leaf⟩ hentry
      simpa using hfree.single leafId leaf (mem_leafEntries.mp hentry)

theorem checkWorkspaceLayoutModelRules_single :
    checkWorkspaceLayoutModelRules [model] = [] ↔ BreachFree model := by
  rw [checkWorkspaceLayoutModelRules, append_eq_nil_iff, append_eq_nil_iff,
    checkPaneOwners_single, flatMap_singleton, checkTabIds_eq_nil, flatMap_singleton,
    flatMap_eq_nil_iff]
  simp only [checkWorkspace_eq_nil]
  exact ⟨fun ⟨⟨hpanes, htabs⟩, hworkspaces⟩ => ⟨hpanes, htabs, hworkspaces⟩,
    fun hfree => ⟨⟨hfree.panes, hfree.tabs⟩, hfree.workspaces⟩⟩

end Wakii.ModelRules
