import Wakii.Layout.LoadRetirement
import Wakii.Layout.RetiringGroupsRun

/-!
# What a retiring workspace stands for

A workspace with its cohorts, counted groups and group tree stands for the
workspace that retiring the same panes one at a time leaves.
-/

namespace Wakii.LayoutLoad

open List KeyedLists OrderedCollections
open Wakii.CommandSteps Wakii.LayoutModel

variable {P : Type} {root tree : Option (TabGroupLayoutNode P)}
  {layout : Option (RetiringGroupLayout P)} {group : GroupState} {tabId : String}

/-! ## Groups that lose a tab -/

/-- The tree a workspace shows; it is indexed once the first group leaves it. -/
def ShowsTree (root : Option (TabGroupLayoutNode P)) (layout : Option (RetiringGroupLayout P))
    (tree : Option (TabGroupLayoutNode P)) : Prop :=
  match layout with
  | none => tree = root
  | some layout => root.isSome ∧ layout.Shows tree

/-- A group counts the listings that are left; only closed tabs are off it. -/
structure Counted (closed : String → Prop) (group : GroupState) : Prop where
  remaining : group.remaining = (group.original.tabOrder.filter (· ∉ group.removed)).length
  removed : ∀ tabId ∈ group.removed, tabId ∈ group.original.tabOrder ∧ closed tabId

variable {closed closedNow : String → Prop}

theorem Counted.imp (hcounted : Counted closed group)
    (hclosed : ∀ tabId, closed tabId → closedNow tabId) : Counted closedNow group :=
  ⟨hcounted.remaining, fun tabId hremoved =>
    ⟨(hcounted.removed tabId hremoved).1, hclosed tabId (hcounted.removed tabId hremoved).2⟩⟩

def groupWithout (tabId : String) (group : LayoutGroup) : List LayoutGroup :=
  if tabId ∉ group.tabOrder then [group]
  else
    let tabOrder := group.tabOrder.filter (· ≠ tabId)
    if tabOrder = [] then [] else [{ group with tabOrder }]

def treeWithout (tabId : String) (groups : List LayoutGroup)
    (tree : Option (TabGroupLayoutNode P)) : Option (TabGroupLayoutNode P) :=
  (groupsHoldingOnly groups tabId).foldl (fun layout group => layout.bind (·.removeLeaf group.id))
    tree

theorem treeWithout_singleton (tabId : String) (group : LayoutGroup)
    (tree : Option (TabGroupLayoutNode P)) :
    treeWithout tabId [group] tree =
      if tabId ∈ group.tabOrder ∧ group.tabOrder.filter (· ≠ tabId) = [] then
        tree.bind (·.removeLeaf group.id)
      else tree := by
  rw [treeWithout, groupsHoldingOnly, filter_singleton]
  simp only [← Bool.decide_and]
  split_ifs with hgroup <;> rw [Bool.cond_decide]
  · rw [if_pos hgroup]
    rfl
  · rw [if_neg hgroup]
    rfl

def dropGroup (root : Option (TabGroupLayoutNode P)) (layout : Option (RetiringGroupLayout P))
    (groupId : String) : Option (RetiringGroupLayout P) :=
  match root with
  | none => layout
  | some root => some ((layout.getD (.new root)).remove groupId)

theorem ShowsTree.drop (hshows : ShowsTree root layout tree) (groupId : String) :
    ShowsTree root (dropGroup root layout groupId) (tree.bind (·.removeLeaf groupId)) := by
  cases root with
  | none =>
    cases layout with
    | none =>
      rw [show tree = none from hshows]
      rfl
    | some layout => exact absurd hshows.1 Bool.false_ne_true
  | some root =>
    refine ⟨rfl, RetiringGroupLayout.Shows.remove ?_ groupId⟩
    cases layout with
    | none =>
      rw [show tree = some root from hshows]
      exact RetiringGroupLayout.shows_new root
    | some layout => exact hshows.2

theorem leaveGroup_eq (root : Option (TabGroupLayoutNode P)) (tabId : String) (group : GroupState)
    (layout : Option (RetiringGroupLayout P)) :
    leaveGroup root tabId (group, layout) =
      ({ group with removed := group.removed.insert tabId, remaining := group.remaining - 1 },
        if group.remaining = 1 then dropGroup root layout group.original.id else layout) := by
  cases root with
  | none => simp [leaveGroup, dropGroup]
  | some root =>
    have hlast : group.remaining - 1 = 0 ↔ group.remaining = 1 := by omega
    rw [leaveGroup]
    dsimp only
    rw [if_congr hlast rfl rfl]
    split_ifs <;> rfl

/-- A group leaves the tree with the last of its listings. -/
theorem foldl_leaveGroup {listings : List String} (hlistings : listings ≠ [])
    (hcount : (listings.length : ℤ) ≤ group.remaining) :
    listings.foldl (fun state _ => leaveGroup root tabId state) (group, layout) = ({ group with
          removed := group.removed.insert tabId
          remaining := group.remaining - listings.length },
        if group.remaining = listings.length then dropGroup root layout group.original.id
        else layout) := by
  induction listings generalizing group layout with
  | nil => exact absurd rfl hlistings
  | cons listing listings ih =>
    rw [foldl_cons, leaveGroup_eq]
    by_cases hrest : listings = []
    · rw [hrest]
      rfl
    · have hpos : 0 < listings.length := length_pos_iff.mpr hrest
      rw [length_cons] at hcount ⊢
      have hmore : group.remaining ≠ 1 := by omega
      rw [if_neg hmore, ih hrest (by dsimp only; omega)]
      have hinsert : (group.removed.insert tabId).insert tabId = group.removed.insert tabId :=
        insert_of_mem mem_insert_self
      have hleft : group.remaining - 1 - listings.length =
          group.remaining - (listings.length + 1 : ℕ) := by omega
      have hlast : group.remaining - 1 = listings.length ↔
          group.remaining = (listings.length + 1 : ℕ) := by omega
      dsimp only
      rw [hinsert, hleft, if_congr hlast rfl rfl]

theorem shown_eq_some (hfresh : tabId ∉ group.removed) (hlisted : tabId ∈ group.original.tabOrder)
    {closed : String → Prop} (hcounted : Counted closed group) :
    group.shown = some { group.original with
      tabOrder := group.original.tabOrder.filter (· ∉ group.removed) } := by
  rw [GroupState.shown]
  by_cases hremoved : group.removed = []
  · rw [if_pos hremoved, hremoved, filter_eq_self.mpr fun _ _ => by simp]
  · have hmem : tabId ∈ group.original.tabOrder.filter (· ∉ group.removed) :=
      mem_filter.mpr ⟨hlisted, decide_eq_true hfresh⟩
    have hpos := length_pos_of_mem hmem
    rw [if_neg hremoved, if_neg (by rw [hcounted.remaining]; omega)]

/-- A tab that leaves its group leaves the tree with an emptied one. -/
theorem leave_group (hcounted : Counted closed group) (hfresh : tabId ∉ group.removed)
    (hclosed : ∀ other, closed other → closedNow other) (htab : closedNow tabId)
    (hshows : ShowsTree root layout tree) {after : GroupState × Option (RetiringGroupLayout P)}
    (hafter : (group.original.tabOrder.filter (· = tabId)).foldl
      (fun state _ => leaveGroup root tabId state) (group, layout) = after) :
    after.1.shown.toList = group.shown.toList.flatMap (groupWithout tabId) ∧
      ShowsTree root after.2 (treeWithout tabId group.shown.toList tree) ∧
      Counted closedNow after.1 ∧ after.1.original = group.original := by
  by_cases hlisted : tabId ∈ group.original.tabOrder
  · have hshown := shown_eq_some hfresh hlisted hcounted
    generalize hleft : group.original.tabOrder.filter (· ∉ group.removed) = left at hshown
    have hlistings : group.original.tabOrder.filter (· = tabId) = left.filter (· = tabId) := by
      rw [← hleft, filter_filter]
      refine filter_congr fun other _ => ?_
      by_cases hother : other = tabId
      · simp [hother, hfresh]
      · simp [hother]
    have hmem : tabId ∈ left := by
      rw [← hleft]
      exact mem_filter.mpr ⟨hlisted, decide_eq_true hfresh⟩
    have hstay : group.original.tabOrder.filter (· ∉ group.removed.insert tabId) =
        left.filter (· ≠ tabId) := by
      rw [← hleft, filter_filter]
      refine filter_congr fun other _ => ?_
      rw [← Bool.decide_and]
      exact decide_eq_decide.mpr (by rw [mem_insert_iff, not_or])
    have hsplit : left.length = (left.filter (· = tabId)).length +
        (left.filter (· ≠ tabId)).length := by
      simpa using length_eq_length_filter_add (l := left) fun other => decide (other = tabId)
    have hremaining : group.remaining = left.length := by rw [hcounted.remaining, hleft]
    rw [hlistings, foldl_leaveGroup (ne_nil_of_mem
      (mem_filter.mpr ⟨hmem, decide_eq_true rfl⟩)) (by rw [hremaining]; omega)] at hafter
    subst hafter
    have hcount : group.remaining - (left.filter (· = tabId)).length =
        ((left.filter (· ≠ tabId)).length : ℤ) := by rw [hremaining]; omega
    have hlast : group.remaining = (left.filter (· = tabId)).length ↔
        left.filter (· ≠ tabId) = [] := by
      rw [← length_eq_zero_iff, hremaining]
      omega
    have hnext : Counted closedNow { group with
        removed := group.removed.insert tabId
        remaining := group.remaining - (left.filter (· = tabId)).length } := by
      refine ⟨?_, fun other hother => ?_⟩
      · rw [hstay]
        exact hcount
      · rcases mem_insert_iff.mp hother with rfl | hother
        · exact ⟨hlisted, htab⟩
        · exact ⟨(hcounted.removed other hother).1, hclosed other (hcounted.removed other hother).2⟩
    refine ⟨?_, ?_, hnext, rfl⟩
    · have hne : group.removed.insert tabId ≠ [] := ne_nil_of_mem mem_insert_self
      have hzero : ((left.filter (· ≠ tabId)).length : ℤ) = 0 ↔ left.filter (· ≠ tabId) = [] := by
        rw [← length_eq_zero_iff]
        omega
      rw [hshown, GroupState.shown, if_neg hne, hcount, hstay, if_congr hzero rfl rfl,
        Option.toList_some, flatMap_singleton, groupWithout, if_neg (not_not.mpr hmem)]
      dsimp only
      split_ifs <;> rfl
    · rw [hshown, Option.toList_some, treeWithout_singleton, if_congr hlast rfl rfl]
      dsimp only
      by_cases hempty : left.filter (· ≠ tabId) = []
      · rw [if_pos hempty, if_pos ⟨hmem, hempty⟩]
        exact hshows.drop _
      · rw [if_neg hempty, if_neg fun hboth => hempty hboth.2]
        exact hshows
  · have hnone : group.original.tabOrder.filter (· = tabId) = [] :=
      filter_eq_nil_iff.mpr fun other hother => by
        simpa using ne_of_mem_of_not_mem hother hlisted
    rw [hnone] at hafter
    subst hafter
    have hout : ∀ shown ∈ group.shown.toList, tabId ∉ shown.tabOrder := by
      intro shown hshown hmem
      rw [Option.mem_toList, GroupState.shown] at hshown
      split_ifs at hshown <;> cases hshown
      · exact hlisted hmem
      · exact hlisted (mem_of_mem_filter hmem)
    refine ⟨?_, ?_, ⟨hcounted.remaining, fun other hother =>
      ⟨(hcounted.removed other hother).1, hclosed other (hcounted.removed other hother).2⟩⟩, rfl⟩
    · have hsame : ∀ shown ∈ group.shown.toList, groupWithout tabId shown = [shown] :=
        fun shown hshown => if_pos (hout shown hshown)
      rw [flatMap_congr hsame, flatMap_singleton']
      rfl
    · rw [treeWithout, groupsHoldingOnly,
        filter_eq_nil_iff.mpr fun shown hshown => by simp [hout shown hshown]]
      exact hshows

/-- A closed tab leaves every group that lists it. -/
theorem leave_groups {groups : List GroupState} (hcounted : ∀ group ∈ groups, Counted closed group)
    (hfresh : ∀ group ∈ groups, tabId ∉ group.removed)
    (hclosed : ∀ other, closed other → closedNow other) (htab : closedNow tabId)
    (hshows : ShowsTree root layout tree) {after : List GroupState × Option (RetiringGroupLayout P)}
    (hafter : leaveGroups root tabId groups layout = after) :
    after.1.filterMap GroupState.shown =
        (groups.filterMap GroupState.shown).flatMap (groupWithout tabId) ∧
      ShowsTree root after.2 (treeWithout tabId (groups.filterMap GroupState.shown) tree) ∧
      ∀ group ∈ after.1, Counted closedNow group := by
  have hcons : ∀ (group : GroupState) (groups : List GroupState),
      (group :: groups).filterMap GroupState.shown =
        group.shown.toList ++ groups.filterMap GroupState.shown := by
    intro group groups
    cases hshown : group.shown with
    | none => rw [filterMap_cons_none hshown, Option.toList_none, nil_append]
    | some shown => rw [filterMap_cons_some hshown, Option.toList_some, singleton_append]
  induction groups generalizing layout tree after with
  | nil =>
    subst hafter
    exact ⟨rfl, hshows, fun _ h => absurd h not_mem_nil⟩
  | cons group groups ih =>
    rw [leaveGroups] at hafter
    generalize hleft : (group.original.tabOrder.filter (· = tabId)).foldl
      (fun state _ => leaveGroup root tabId state) (group, layout) = left at hafter
    obtain ⟨hshown, htree, hnext, -⟩ := leave_group (hcounted group mem_cons_self)
      (hfresh group mem_cons_self) hclosed htab hshows hleft
    obtain ⟨first, between⟩ := left
    dsimp only at hafter hshown htree hnext
    generalize hrest : leaveGroups root tabId groups between = rest at hafter
    obtain ⟨hothers, hrestTree, hrestNext⟩ :=
      ih (fun other hother => hcounted other (mem_cons_of_mem _ hother))
        (fun other hother => hfresh other (mem_cons_of_mem _ hother)) htree hrest
    subst hafter
    refine ⟨?_, ?_, fun other hother => ?_⟩
    · rw [hcons, hcons, flatMap_append, ← hshown, hothers]
    · rw [hcons, treeWithout, groupsHoldingOnly, filter_append, foldl_append]
      exact hrestTree
    · rcases mem_cons.mp hother with rfl | hother
      · exact hnext
      · exact hrestNext other hother

/-! ## A tab that loses a pane -/

def Cohort.lessPane (cohort : Cohort P) (tab : LayoutTerminalTab P) (panes : RetiringPanes P)
    (leafId : String) : Cohort P :=
  let template := cohort.template.getD tab
  { cohort with
    template := some template
    panes := some (panes.remove leafId).2
    chatRemoved := cohort.chatRemoved || template.panes.chatLeafId = some leafId }

theorem currentTab_lessPane {cohort : Cohort P} {tab : LayoutTerminalTab P}
    {panes : RetiringPanes P} {leafId : String}
    (hfresh : cohort.template = none → cohort.chatRemoved = false) {node : TerminalPaneLayoutNode P}
    (hpanes : panes.materialize = (cohort.currentTab tab).panes.root)
    (hleft : removeLayoutLeaf (cohort.currentTab tab).panes.root leafId = some node)
    (other : LayoutTerminalTab P) :
    (cohort.lessPane tab panes leafId).currentTab other =
      { cohort.currentTab tab with
        panes := withoutChat { (cohort.currentTab tab).panes with root := some node } leafId } := by
  have hroot : (panes.remove leafId).2.materialize = some node := by
    rw [RetiringPanes.materialize_remove, hpanes, hleft]
  obtain ⟨dead, template, cohortPanes, chatRemoved⟩ := cohort
  cases template with
  | none =>
    rw [show chatRemoved = false from hfresh rfl]
    by_cases hchat : tab.panes.chatLeafId = some leafId
    · simp [Cohort.lessPane, Cohort.currentTab, hroot, withoutChat, hchat]
    · simp [Cohort.lessPane, Cohort.currentTab, hroot, withoutChat, hchat]
  | some template =>
    simp only [Cohort.lessPane, Cohort.currentTab, Option.getD_some, Option.bind_some, hroot,
      Bool.or_eq_true, decide_eq_true_eq, withoutChat]
    cases chatRemoved with
    | true => simp
    | false => simp

structure Cohort.Sound (tabId : String) (cohort : Cohort P) : Prop where
  template : ∀ template ∈ cohort.template, template.id = tabId
  walked : ∀ panes ∈ cohort.panes, panes.Known
  fresh : cohort.template = none → cohort.panes = none ∧ cohort.chatRemoved = false
  joined : cohort.panes = none → cohort.template = none

section Shown

variable {tabId : String} {cohorts cohortsNow : String → Cohort P} {tabs : List (LayoutTab P)}

theorem Cohort.Sound.currentTab_id {cohort : Cohort P} {tab : LayoutTerminalTab P}
    (hsound : cohort.Sound tabId) (htab : tab.id = tabId) : (cohort.currentTab tab).id = tabId := by
  rw [Cohort.currentTab]
  cases hcohort : cohort.template with
  | none => exact htab
  | some template => exact hsound.template template hcohort

theorem Cohort.Sound.shownTab_id {cohort : Cohort P} {tab shown : LayoutTab P}
    (hsound : cohort.Sound tabId) (htab : tab.id = tabId)
    (hshown : cohort.shownTab tab = some shown) : shown.id = tabId := by
  rw [Cohort.shownTab] at hshown
  split_ifs at hshown
  split at hshown
  · cases hshown
    exact htab
  · rename_i template hcohort
    cases hshown
    exact hsound.currentTab_id (hsound.template template hcohort)

theorem removeKeyed_shown (hsound : ∀ other, (cohorts other).Sound other)
    (hdead : (cohortsNow tabId).dead = true)
    (hother : ∀ other, other ≠ tabId → cohortsNow other = cohorts other) :
    removeKeyed LayoutTab.id tabId (tabs.filterMap fun tab => (cohorts tab.id).shownTab tab) =
      tabs.filterMap fun tab => (cohortsNow tab.id).shownTab tab := by
  rw [removeKeyed, filter_filterMap]
  refine filterMap_congr fun tab _ => ?_
  by_cases htab : tab.id = tabId
  · have hnone : (cohortsNow tab.id).shownTab tab = none := by
      rw [htab, Cohort.shownTab, if_pos hdead]
    rw [hnone, Option.filter_eq_none_iff]
    intro shown hshown
    simpa [htab] using (hsound tab.id).shownTab_id rfl hshown
  · rw [hother tab.id htab]
    cases hshown : (cohorts tab.id).shownTab tab with
    | none => rfl
    | some shown =>
      have hid := (hsound tab.id).shownTab_id rfl hshown
      rw [Option.filter_some, if_pos (by simpa [hid] using htab)]

theorem replaceKeyed_shown {shown : LayoutTab P} (hsound : ∀ other, (cohorts other).Sound other)
    (hid : shown.id = tabId) (halive : (cohorts tabId).dead = false)
    (hshown : ∀ tab, (cohortsNow tabId).shownTab tab = some shown)
    (hother : ∀ other, other ≠ tabId → cohortsNow other = cohorts other) :
    replaceKeyed LayoutTab.id shown (tabs.filterMap fun tab => (cohorts tab.id).shownTab tab) =
      tabs.filterMap fun tab => (cohortsNow tab.id).shownTab tab := by
  rw [replaceKeyed, map_filterMap]
  refine filterMap_congr fun tab _ => ?_
  by_cases htab : tab.id = tabId
  · obtain ⟨before, hbefore⟩ : ∃ before, (cohorts tab.id).shownTab tab = some before := by
      rw [htab, Cohort.shownTab, if_neg (by rw [halive]; exact Bool.false_ne_true)]
      split
      · exact ⟨_, rfl⟩
      · exact ⟨_, rfl⟩
    have hbeforeId := (hsound tab.id).shownTab_id rfl hbefore
    rw [hbefore, Option.map_some, if_pos (by rw [hbeforeId, htab, hid]), htab, hshown]
  · rw [hother tab.id htab]
    cases hbefore : (cohorts tab.id).shownTab tab with
    | none => rfl
    | some before =>
      have hbeforeId := (hsound tab.id).shownTab_id rfl hbefore
      rw [Option.map_some, if_neg (by rw [hbeforeId, hid]; exact htab)]

end Shown

/-! ## What a retiring workspace stands for -/

namespace RetiringWorkspace

variable {workspace : RetiringWorkspace P} {now : WorkspaceLayout P}

/-- What retiring panes leaves alone. -/
def bare (workspace : WorkspaceLayout P) : WorkspaceLayout P :=
  { workspace with tabs := [], groups := [], groupLayout := none, leaves := none }

theorem eq_of_bare {left right : WorkspaceLayout P} (hbare : bare left = bare right)
    (htabs : left.tabs = right.tabs) (hgroups : left.groups = right.groups)
    (hlayout : left.groupLayout = right.groupLayout) (hleaves : left.leaves = right.leaves) :
    left = right := by
  obtain ⟨⟩ := left
  obtain ⟨⟩ := right
  simp only [bare, WorkspaceLayout.mk.injEq] at *
  tauto

/-- The workspace as its cohorts, groups and leaves have it. -/
structure Retires (workspace : RetiringWorkspace P) (now : WorkspaceLayout P) : Prop where
  frame : bare now = bare workspace.original
  tabs : now.tabs =
    workspace.original.tabs.filterMap fun tab => (workspace.cohort tab.id).shownTab tab
  groups : now.groups = workspace.states.filterMap GroupState.shown
  tree : ShowsTree workspace.original.groupLayout workspace.groupLayout now.groupLayout
  leaves : now.leaves = workspace.leaves
  untouched : workspace.changed = false → now = workspace.original
  opened : workspace.closed = false →
    now.groups = workspace.original.groups ∧ workspace.groupLayout = none
  counted : ∀ group ∈ workspace.states,
    Counted (fun tabId => (workspace.cohort tabId).dead = true) group
  cohorts : ∀ tabId, (workspace.cohort tabId).Sound tabId

theorem cohort_setCohort (workspace : RetiringWorkspace P) (tabId other : String)
    (cohort : Cohort P) : (workspace.setCohort tabId cohort).cohort other =
      if other = tabId then cohort else workspace.cohort other := by
  rw [RetiringWorkspace.cohort, setCohort, OrderedMap.lookup_set]
  split_ifs <;> rfl

theorem sound_setCohort {tabId : String} {cohort : Cohort P} (hcohort : cohort.Sound tabId)
    (hsound : ∀ other, (workspace.cohort other).Sound other) (other : String) :
    ((workspace.setCohort tabId cohort).cohort other).Sound other := by
  rw [cohort_setCohort]
  split_ifs with hother
  · exact hother ▸ hcohort
  · exact hsound other

theorem cohort_new (original : WorkspaceLayout P) (tabId : String) :
    (new original).cohort tabId = {} := by
  have hempty : ∀ cohort ∈ (new original).cohorts.lookup tabId, cohort = {} := by
    refine List.foldlRecOn (motive := fun cohorts : OrderedMap String (Cohort P) =>
      ∀ cohort ∈ cohorts.lookup tabId, cohort = {}) _ _ ?_ fun cohorts hcohorts tab _ => ?_
    · exact fun cohort hcohort => by cases hcohort
    · split_ifs with hmem
      · exact hcohorts
      · intro cohort hcohort
        rw [OrderedMap.lookup_set] at hcohort
        split_ifs at hcohort with htab
        · exact (Option.some.inj hcohort).symm
        · exact hcohorts cohort hcohort
  rw [RetiringWorkspace.cohort]
  cases hlookup : (new original).cohorts.lookup tabId with
  | none => rfl
  | some cohort => exact hempty cohort hlookup

theorem retires_new (original : WorkspaceLayout P) : Retires (new original) original where
  frame := rfl
  tabs := by
    simp only [cohort_new]
    exact filterMap_some.symm
  groups := by
    change _ = (groupStates original.groups).filterMap GroupState.shown
    rw [groupStates, filterMap_map]
    exact filterMap_some.symm
  tree := rfl
  leaves := rfl
  untouched := fun _ => rfl
  opened := fun _ => ⟨rfl, rfl⟩
  counted := by
    intro group hgroup
    obtain ⟨original, -, rfl⟩ := mem_map.mp hgroup
    refine ⟨?_, fun tabId hremoved => absurd hremoved not_mem_nil⟩
    rw [filter_eq_self.mpr fun _ _ => decide_eq_true not_mem_nil]
  cohorts := fun tabId => by
    rw [cohort_new]
    exact ⟨fun _ h => (by cases h), fun _ h => (by cases h), fun _ => ⟨rfl, rfl⟩, fun _ => rfl⟩

theorem Retires.materialize (hretires : Retires workspace now) : workspace.materialize = now := by
  rw [RetiringWorkspace.materialize]
  cases hchanged : workspace.changed with
  | false => exact (hretires.untouched hchanged).symm
  | true =>
    have htree := hretires.tree
    cases hclosed : workspace.closed with
    | false =>
      obtain ⟨hgroups, hlayout⟩ := hretires.opened hclosed
      rw [hlayout] at htree
      exact eq_of_bare hretires.frame.symm hretires.tabs.symm hgroups.symm
        (Eq.symm htree) hretires.leaves.symm
    | true =>
      refine eq_of_bare hretires.frame.symm hretires.tabs.symm hretires.groups.symm ?_
        hretires.leaves.symm
      cases hlayout : workspace.groupLayout with
      | none =>
        rw [hlayout] at htree
        exact Eq.symm htree
      | some layout =>
        rw [hlayout] at htree
        exact htree.2.materialize

/-- Walking the panes of a cohort further changes nothing that shows. -/
theorem Retires.keep (hretires : Retires workspace now) {tabId : String}
    {panes walked : RetiringPanes P} (hpanes : (workspace.cohort tabId).panes = some panes)
    (hroot : walked.root = panes.root) (hremoved : walked.removed = panes.removed)
    (hknown : walked.Known) :
    Retires (workspace.setCohort tabId { workspace.cohort tabId with panes := some walked })
      now := by
  have hsame : walked.materialize = panes.materialize := by
    rw [RetiringPanes.materialize, RetiringPanes.materialize, hroot, hremoved]
  have hsound := hretires.cohorts tabId
  refine
    { frame := hretires.frame
      tabs := hretires.tabs.trans (filterMap_congr fun tab _ => ?_)
      groups := hretires.groups
      tree := hretires.tree
      leaves := hretires.leaves
      untouched := hretires.untouched
      opened := hretires.opened
      counted := fun group hgroup => ?_
      cohorts := sound_setCohort
        ⟨hsound.template, ?_, fun hnone => ?_, (by rintro ⟨⟩)⟩ hretires.cohorts }
  · rw [cohort_setCohort]
    split_ifs with htab
    · rw [htab, Cohort.shownTab, Cohort.shownTab]
      cases (workspace.cohort tabId).template with
      | none => rfl
      | some template => simp only [Cohort.currentTab, hpanes, Option.bind_some, hsame]
    · rfl
  · refine (hretires.counted group hgroup).imp fun other hother => ?_
    rw [cohort_setCohort]
    split_ifs with hsame
    · exact hsame ▸ hother
    · exact hother
  · rintro _ ⟨⟩
    exact hknown
  · rw [(hsound.fresh hnone).1] at hpanes
    cases hpanes

/-! ## Retiring a pane -/

section Retire

variable {tab : LayoutTerminalTab P} {panes : RetiringPanes P} {leafId : String}

/-- A tab is closed when its last pane leaves. -/
theorem Retires.close (hretires : Retires workspace now) {tabId : String}
    (halive : (workspace.cohort tabId).dead = false) {changed : RetiringWorkspace P}
    (hchanged : changed = RetiringWorkspace.setCohort { workspace with
      changed := true
      leaves := workspace.leaves.map (·.erase leafId) } tabId
      { workspace.cohort tabId with dead := true }) :
    Retires (changed.close tabId) { removeTabFromWorkspace now tabId with
      leaves := now.leaves.map (·.erase leafId) } := by
  have hcohort : ∀ other, changed.cohort other = if other = tabId then
      { workspace.cohort tabId with dead := true } else workspace.cohort other :=
    fun other => by rw [hchanged, cohort_setCohort]; rfl
  have hstates : changed.states = workspace.states := by rw [hchanged]; rfl
  have horiginal : changed.original = workspace.original := by rw [hchanged]; rfl
  have hlayout : changed.groupLayout = workspace.groupLayout := by rw [hchanged]; rfl
  have hleaves : changed.leaves = workspace.leaves.map (·.erase leafId) := by rw [hchanged]; rfl
  have hwritten : changed.changed = true := by rw [hchanged]; rfl
  have hdead : ∀ other, (workspace.cohort other).dead = true →
      (changed.cohort other).dead = true := by
    intro other hother
    rw [hcohort]
    split_ifs
    · rfl
    · exact hother
  rw [RetiringWorkspace.close]
  generalize hafter : leaveGroups changed.original.groupLayout tabId changed.states
    changed.groupLayout = after
  rw [horiginal, hstates, hlayout] at hafter
  obtain ⟨hgroups, htree, hcounted⟩ := @leave_groups
    _ _ _ _ _ _ (fun other => (changed.cohort other).dead = true) _ hretires.counted
    (fun group hgroup hremoved => by
      have hclosed := ((hretires.counted group hgroup).removed tabId hremoved).2
      rw [halive] at hclosed
      cases hclosed)
    hdead (by rw [hcohort, if_pos rfl]) hretires.tree _ hafter
  obtain ⟨groups, layout⟩ := after
  rw [← hretires.groups] at hgroups htree
  refine
    { frame := ?_
      tabs := ?_
      groups := hgroups.symm
      tree := ?_
      leaves := ?_
      untouched := fun hfalse => ?_
      opened := fun hfalse => by cases hfalse
      counted := hcounted
      cohorts := fun other => ?_ }
  · change bare now = bare changed.original
    rw [horiginal, hretires.frame]
  · change removeKeyed LayoutTab.id tabId now.tabs =
      changed.original.tabs.filterMap fun tab => (changed.cohort tab.id).shownTab tab
    rw [horiginal, hretires.tabs]
    exact removeKeyed_shown hretires.cohorts (by rw [hcohort, if_pos rfl])
      fun other hother => by rw [hcohort, if_neg hother]
  · change ShowsTree changed.original.groupLayout layout (treeWithout tabId now.groups _)
    rw [horiginal]
    exact htree
  · change now.leaves.map (·.erase leafId) = changed.leaves
    rw [hleaves, hretires.leaves]
  · rw [show changed.changed = false from hfalse] at hwritten
    cases hwritten
  · change (changed.cohort other).Sound other
    rw [hcohort]
    split_ifs with hsame
    · have hsound := hretires.cohorts tabId
      rw [hsame]
      exact ⟨hsound.template, hsound.walked, hsound.fresh, hsound.joined⟩
    · exact hretires.cohorts other

/-- Retiring a pane does to the workspace what retiring it one at a time does. -/
theorem Retires.retire (hretires : Retires workspace now)
    (halive : (workspace.cohort tab.id).dead = false) (hknown : panes.Known)
    (hpanes : panes.materialize = ((workspace.cohort tab.id).currentTab tab).panes.root)
    (leafId : String) :
    Retires (workspace.retire tab panes leafId)
      (retirePane now ((workspace.cohort tab.id).currentTab tab) leafId) := by
  have hsound := hretires.cohorts tab.id
  have hid := hsound.currentTab_id (rfl : tab.id = tab.id)
  obtain ⟨hnext, hempty⟩ := hknown.remove leafId
  rw [hpanes] at hempty
  rw [RetiringWorkspace.retire, retirePane, withoutPane]
  dsimp only
  cases hleft : removeLayoutLeaf ((workspace.cohort tab.id).currentTab tab).panes.root leafId with
  | none =>
    rw [if_pos (hempty.mpr hleft), hid]
    exact hretires.close halive rfl
  | some node =>
    have hstay : ¬ (panes.remove leafId).1 = true := fun htrue => by
      rw [hempty.mp htrue] at hleft
      cases hleft
    rw [if_neg hstay]
    have hshown := currentTab_lessPane (fun h => (hsound.fresh h).2) hpanes hleft
    change Retires (RetiringWorkspace.setCohort _ tab.id
      ((workspace.cohort tab.id).lessPane tab panes leafId)) _
    refine
      { frame := hretires.frame
        tabs := ?_
        groups := hretires.groups
        tree := hretires.tree
        leaves := congrArg (Option.map _) hretires.leaves
        untouched := fun hfalse => by cases hfalse
        opened := hretires.opened
        counted := fun group hgroup => ?_
        cohorts := sound_setCohort ⟨?_, ?_, nofun, nofun⟩ hretires.cohorts }
    · change replaceKeyed LayoutTab.id _ now.tabs = _
      rw [hretires.tabs]
      refine replaceKeyed_shown hretires.cohorts hid halive (fun other => ?_) fun other hother => ?_
      · rw [cohort_setCohort, if_pos rfl, Cohort.shownTab, if_neg (by
          rw [Cohort.lessPane, halive]; exact Bool.false_ne_true)]
        exact congrArg (fun shown => some (LayoutTab.terminal shown)) (hshown _)
      · rw [cohort_setCohort, if_neg hother]
        rfl
    · refine (hretires.counted group hgroup).imp fun other hother => ?_
      rw [cohort_setCohort]
      split_ifs with hsame
      · exact hsame ▸ hother
      · exact hother
    · rintro _ ⟨⟩
      cases htemplate : (workspace.cohort tab.id).template with
      | none => rfl
      | some template => exact hsound.template template htemplate
    · rintro _ ⟨⟩
      exact hnext

end Retire

end RetiringWorkspace

end Wakii.LayoutLoad
