import Wakii.Layout.RecordStream

/-!
# Which layouts go as records

A layout goes whole when two different records share a key.  A pane without a
live field has no binding record, so its key is not seen to repeat; joining then
gives it the binding of another pane of its id.
-/

namespace Wakii.LayoutRecords

open List Option OrderedCollections

variable {F : Type}

def PublishedTab.panes (tab : PublishedTab F) : List (PublishedPane F) :=
  (tab.terminal.map (·.panes)).getD []

def PublishedWorkspaceLayout.panes (layout : PublishedWorkspaceLayout F) : List (PublishedPane F) :=
  layout.tabs.flatMap (·.panes)

/-- No pane without a live field shares its id with one that has some. -/
def UnboundApart (layout : PublishedWorkspaceLayout F) : Prop :=
  ∀ unbound ∈ layout.panes, ∀ bound ∈ layout.panes,
    unbound.leafId = bound.leafId → paneBinding unbound = none → paneBinding bound = none

def rejoinPane (bindings : OrderedMap String PublishedPaneBinding)
    (pane : PublishedPane F) : PublishedPane F :=
  joinPane bindings { leafId := pane.leafId, fields := pane.fields }

def rejoinTab (bindings : OrderedMap String PublishedPaneBinding)
    (tab : PublishedTab F) : PublishedTab F :=
  { tab with
    terminal := tab.terminal.map fun terminal =>
      { terminal with panes := terminal.panes.map (rejoinPane bindings) } }

section Panes

variable {pane : PublishedPane F} {binding : PublishedPaneBinding}
  {bindings : OrderedMap String PublishedPaneBinding}

theorem paneBinding_leafId (hbinding : paneBinding pane = some binding) :
    binding.leafId = pane.leafId := by
  rw [paneBinding] at hbinding
  split_ifs at hbinding
  rw [← Option.some.inj hbinding]

theorem rejoinPane_bound (hbinding : paneBinding pane = some binding)
    (hlookup : bindings.lookup pane.leafId = some binding) :
    rejoinPane bindings pane = pane := by
  rw [paneBinding] at hbinding
  split_ifs at hbinding
  rw [rejoinPane, joinPane, hlookup, ← Option.some.inj hbinding]

theorem paneBinding_eq_none : paneBinding pane = none ↔
    pane.ptyId = none ∧ pane.ptyGeneration = none ∧ pane.status = none ∧
      pane.statusReason = none ∧ pane.resumeOutcome = none := by
  rw [paneBinding]
  split_ifs with hlive
  · simp only [Bool.or_eq_true, isSome_iff_ne_none] at hlive
    simp only [false_iff]
    tauto
  · simp only [Bool.or_eq_true, isSome_iff_ne_none, not_or, not_not] at hlive
    simp only [true_iff]
    tauto

theorem rejoinPane_unbound (hnone : paneBinding pane = none)
    (hlookup : bindings.lookup pane.leafId = none) : rejoinPane bindings pane = pane := by
  obtain ⟨hptyId, hgeneration, hstatus, hreason, houtcome⟩ := paneBinding_eq_none.mp hnone
  obtain ⟨leafId, ptyId, ptyGeneration, status, statusReason, resumeOutcome, fields⟩ := pane
  subst hptyId hgeneration hstatus hreason houtcome
  rw [rejoinPane, joinPane, hlookup]

theorem rejoinPane_live {other : PublishedPane F} (hother : paneBinding other = some binding)
    (hlookup : bindings.lookup pane.leafId = some binding) :
    paneBinding (rejoinPane bindings pane) ≠ none := by
  intro hnone
  have hdead : paneBinding other = none := by
    refine paneBinding_eq_none.mpr ?_
    rw [paneBinding] at hother
    split_ifs at hother
    rw [paneBinding_eq_none, rejoinPane, joinPane, hlookup, ← Option.some.inj hother] at hnone
    exact hnone
  rw [hdead] at hother
  cases hother

end Panes

section Guard

variable [DecidableEq F] {layout : PublishedWorkspaceLayout F}

variable {bindings : OrderedMap String PublishedPaneBinding}

omit [DecidableEq F] in
theorem mapM_joinTab {trees : OrderedMap String (PublishedPaneTree F)}
     {tabs : List (PublishedTab F)}
    (htab : ∀ tab ∈ tabs, joinTab trees bindings (tabRow tab) = .ok (rejoinTab bindings tab)) :
    (tabs.map tabRow).mapM (joinTab trees bindings) = .ok (tabs.map (rejoinTab bindings)) := by
  induction tabs with
  | nil => rfl
  | cons tab rest ih =>
    rw [map_cons, mapM_cons, htab tab mem_cons_self,
      ih fun other hother => htab other (mem_cons_of_mem tab hother)]
    rfl

/-- Where no two different trees share a key, only bindings can come back otherwise. -/
theorem join_split (hindex : (indexPublishedLayout layout).isSome) :
    joinPublishedLayout (splitPublishedLayout layout) = .ok { layout with
        tabs := layout.tabs.map
          (rejoinTab (byKey (·.leafId) (splitPublishedLayout layout).bindings)) } := by
  obtain ⟨index, hindex⟩ := isSome_iff_exists.mp hindex
  obtain ⟨-, -, htrees, -, -, -⟩ := indexPublishedLayout_spec hindex
  have hindexes := (indexKind_spec htrees).2.byKey
  have htab : ∀ tab ∈ layout.tabs, joinTab (byKey (·.tabId) (splitPublishedLayout layout).paneTrees)
        (byKey (·.leafId) (splitPublishedLayout layout).bindings) (tabRow tab) =
        .ok (rejoinTab (byKey (·.leafId) (splitPublishedLayout layout).bindings) tab) := by
    intro tab hmem
    obtain ⟨id, terminal, fields⟩ := tab
    cases terminal with
    | none => rfl
    | some terminal =>
      have hlookup := hindexes.lookup_of_mem _ (mem_filterMap.mpr ⟨_, hmem, rfl⟩)
      rw [joinTab, tabRow, map_some, rejoinTab, map_some]
      dsimp only
      rw [hlookup]
      dsimp only
      rw [List.map_map]
      rfl
  rw [joinPublishedLayout, show (splitPublishedLayout layout).tabs =
    layout.tabs.map tabRow from rfl,
    mapM_joinTab htab]
  rfl

omit [DecidableEq F] in
theorem map_eq_self {A : Type} {change : A → A} {list : List A} :
    list.map change = list ↔ ∀ entry ∈ list, change entry = entry := by
  have hid : list.map change = list ↔ list.map change = list.map id := by rw [List.map_id]
  exact hid.trans List.map_inj_left

omit [DecidableEq F] in
theorem rejoinTab_eq_self {tab : PublishedTab F} :
    rejoinTab bindings tab = tab ↔ ∀ pane ∈ tab.panes, rejoinPane bindings pane = pane := by
  obtain ⟨id, terminal, fields⟩ := tab
  cases terminal with
  | none => simp [rejoinTab, PublishedTab.panes]
  | some terminal =>
    obtain ⟨root, panes, chatLeafId, creation⟩ := terminal
    rw [← map_eq_self]
    simp [rejoinTab, PublishedTab.panes]

omit [DecidableEq F] in
theorem map_rejoinTab : layout.tabs.map (rejoinTab bindings) = layout.tabs ↔
      ∀ pane ∈ layout.panes, rejoinPane bindings pane = pane := by
  rw [map_eq_self]
  constructor
  · intro htabs pane hpane
    obtain ⟨tab, htab, hmem⟩ := mem_flatMap.mp hpane
    exact rejoinTab_eq_self.mp (htabs tab htab) pane hmem
  · intro hpanes tab htab
    exact rejoinTab_eq_self.mpr fun pane hpane =>
      hpanes pane (mem_flatMap.mpr ⟨tab, htab, hpane⟩)

omit [DecidableEq F] in
theorem mem_bindings {binding : PublishedPaneBinding} :
    binding ∈ (splitPublishedLayout layout).bindings ↔
      ∃ pane ∈ layout.panes, paneBinding pane = some binding := by
  have htab : ∀ tab : PublishedTab F, tabBindings tab = tab.panes.filterMap paneBinding := by
    rintro ⟨id, _ | terminal, fields⟩ <;> rfl
  rw [splitPublishedLayout]
  constructor
  · intro hmem
    obtain ⟨tab, hin, hbinding⟩ := mem_flatMap.mp hmem
    rw [htab] at hbinding
    obtain ⟨pane, hpane, hfound⟩ := mem_filterMap.mp hbinding
    exact ⟨pane, mem_flatMap.mpr ⟨tab, hin, hpane⟩, hfound⟩
  · rintro ⟨pane, hpane, hfound⟩
    obtain ⟨tab, hin, hmem⟩ := mem_flatMap.mp hpane
    refine mem_flatMap.mpr ⟨tab, hin, ?_⟩
    rw [htab]
    exact mem_filterMap.mpr ⟨pane, hmem, hfound⟩

/-- A layout that may go as records comes back from them exactly when no pane without a live field
shares its id with one that has some. -/
theorem join_split_iff (hindex : (indexPublishedLayout layout).isSome) :
    joinPublishedLayout (splitPublishedLayout layout) = .ok layout ↔ UnboundApart layout := by
  have hbindings : Indexes (·.leafId) (splitPublishedLayout layout).bindings
      (byKey (·.leafId) (splitPublishedLayout layout).bindings) := by
    obtain ⟨index, hsome⟩ := isSome_iff_exists.mp hindex
    obtain ⟨-, -, -, hkind, -, -⟩ := indexPublishedLayout_spec hsome
    exact (indexKind_spec hkind).2.byKey
  have hsame : joinPublishedLayout (splitPublishedLayout layout) = .ok layout ↔
      layout.tabs.map (rejoinTab (byKey (·.leafId) (splitPublishedLayout layout).bindings)) =
        layout.tabs := by
    rw [join_split hindex, Except.ok.injEq]
    exact ⟨congrArg PublishedWorkspaceLayout.tabs, fun htabs => by rw [htabs]⟩
  rw [hsame, map_rejoinTab]
  constructor
  · intro hpanes unbound hunbound bound hbound hleaf hnone
    by_contra hsome
    obtain ⟨binding, hbinding⟩ := ne_none_iff_exists'.mp hsome
    have hlookup := hbindings.lookup_of_mem binding (mem_bindings.mpr ⟨bound, hbound, hbinding⟩)
    rw [paneBinding_leafId hbinding, ← hleaf] at hlookup
    refine rejoinPane_live hbinding hlookup ?_
    rw [hpanes unbound hunbound]
    exact hnone
  · intro hapart pane hpane
    cases hpane_binding : paneBinding pane with
    | some binding =>
      have hlookup := hbindings.lookup_of_mem binding
        (mem_bindings.mpr ⟨pane, hpane, hpane_binding⟩)
      rw [paneBinding_leafId hpane_binding] at hlookup
      exact rejoinPane_bound hpane_binding hlookup
    | none =>
      refine rejoinPane_unbound hpane_binding (eq_none_iff_forall_ne_some.mpr ?_)
      intro binding hlookup
      obtain ⟨hmem, hleaf⟩ := hbindings.mem_of_lookup _ binding hlookup
      obtain ⟨bound, hbound, hfound⟩ := mem_bindings.mp hmem
      rw [paneBinding_leafId hfound] at hleaf
      rw [hapart pane hpane bound hbound hleaf.symm hpane_binding] at hfound
      cases hfound

/-- Two terminal tabs that show one pane, bound in the first of them only. -/
def repeatedPane : PublishedWorkspaceLayout ℕ where
  workspace := 0
  tabs := [
    { id := "first", terminal := some (shown (some "pty")), fields := 0 },
    { id := "second", terminal := some (shown none), fields := 0 }]
  editorFiles := []
  browserTabs := []
where
  shown (ptyId : Option String) : PublishedTerminal ℕ :=
    { root := 0
      panes := [
        { leafId := "pane", ptyId, ptyGeneration := none, status := none,
          statusReason := none, resumeOutcome := none, fields := 0 }]
      chatLeafId := none
      creation := 0 }

/-- Such a layout may go as records, and its second tab comes back bound. -/
theorem repeatedPane_rejoined : (indexPublishedLayout repeatedPane).isSome ∧
      joinPublishedLayout (splitPublishedLayout repeatedPane) ≠ .ok repeatedPane := by
  decide

theorem join_split_iff_splitTerminal :
    joinPublishedLayout (splitPublishedLayout (splitTerminal none 0)) = .ok (splitTerminal none 0) ↔
      UnboundApart (splitTerminal none 0) :=
  join_split_iff rfl

end Guard

end Wakii.LayoutRecords
