import Wakii.Layout.OwnedEditorFile
import Wakii.Library.OrderedMap

/-!
# A published layout as keyed records

A host streams a workspace's layout as records of five kinds, diffed by key,
and a reader applies the changes to the layout it holds.  Records are compared
by their JSON up to key order, so a record stands here for that JSON; fields no
step reads are one payload `F`, which passes through unchanged.  The main
result says that a reader who applies every change holds the host's layout.
-/

namespace Wakii.LayoutRecords

open List OrderedCollections OwnedEditorFile

variable {F : Type}

/-! ## The wire types -/

inductive PaneStartStatus where
  | starting
  | failed
  | sleeping
  | resuming
  | held
deriving DecidableEq

inductive PaneResumeOutcome where
  | restored
  | resumeUnavailable
deriving DecidableEq

structure PublishedPane (F : Type) where
  leafId : String
  ptyId : Option String
  ptyGeneration : Option ℕ
  status : Option PaneStartStatus
  statusReason : Option String
  resumeOutcome : Option PaneResumeOutcome
  fields : F
deriving DecidableEq

structure PublishedTerminal (F : Type) where
  root : F
  panes : List (PublishedPane F)
  chatLeafId : Option String
  creation : F
deriving DecidableEq

structure PublishedTab (F : Type) where
  id : String
  terminal : Option (PublishedTerminal F)
  fields : F
deriving DecidableEq

structure PublishedEditorFile (F : Type) where
  filePath : String
  runtimeEnvironmentId : Option String
  fields : F
deriving DecidableEq

structure PublishedBrowserTab (F : Type) where
  id : String
  fields : F
deriving DecidableEq

structure PublishedWorkspaceLayout (F : Type) where
  workspace : F
  tabs : List (PublishedTab F)
  editorFiles : List (PublishedEditorFile F)
  browserTabs : List (PublishedBrowserTab F)
deriving DecidableEq

/-! ## The records -/

/-- A tab row without its pane tree; a terminal keeps its creation fields. -/
structure PublishedTabRow (F : Type) where
  id : String
  terminal : Option F
  fields : F
deriving DecidableEq

structure PublishedTreePane (F : Type) where
  leafId : String
  fields : F
deriving DecidableEq

structure PublishedPaneTree (F : Type) where
  tabId : String
  root : F
  chatLeafId : Option String
  panes : List (PublishedTreePane F)
deriving DecidableEq

/-- What a terminal start or exit changes of a pane. -/
structure PublishedPaneBinding where
  leafId : String
  ptyId : Option String
  ptyGeneration : Option ℕ
  status : Option PaneStartStatus
  statusReason : Option String
  resumeOutcome : Option PaneResumeOutcome
deriving DecidableEq

structure PublishedLayoutRecords (F : Type) where
  workspace : F
  tabs : List (PublishedTabRow F)
  paneTrees : List (PublishedPaneTree F)
  bindings : List PublishedPaneBinding
  editorFiles : List (PublishedEditorFile F)
  browserTabs : List (PublishedBrowserTab F)

def editorFileKey (file : PublishedEditorFile F) : String :=
  ownedEditorFileId file.filePath "" file.runtimeEnvironmentId

/-! ## Splitting and joining -/

def paneBinding (pane : PublishedPane F) : Option PublishedPaneBinding :=
  if pane.ptyId.isSome || pane.ptyGeneration.isSome || pane.status.isSome ||
      pane.statusReason.isSome || pane.resumeOutcome.isSome then
    some {
      leafId := pane.leafId
      ptyId := pane.ptyId
      ptyGeneration := pane.ptyGeneration
      status := pane.status
      statusReason := pane.statusReason
      resumeOutcome := pane.resumeOutcome }
  else none

def tabRow (tab : PublishedTab F) : PublishedTabRow F where
  id := tab.id
  terminal := tab.terminal.map (·.creation)
  fields := tab.fields

def tabPaneTree (tab : PublishedTab F) : Option (PublishedPaneTree F) :=
  tab.terminal.map fun terminal =>
    { tabId := tab.id
      root := terminal.root
      chatLeafId := terminal.chatLeafId
      panes := terminal.panes.map fun pane =>
        { leafId := pane.leafId, fields := pane.fields } }

def tabBindings (tab : PublishedTab F) : List PublishedPaneBinding :=
  match tab.terminal with
  | some terminal => terminal.panes.filterMap paneBinding
  | none => []

def splitPublishedLayout (layout : PublishedWorkspaceLayout F) : PublishedLayoutRecords F where
  workspace := layout.workspace
  tabs := layout.tabs.map tabRow
  paneTrees := layout.tabs.filterMap tabPaneTree
  bindings := layout.tabs.flatMap tabBindings
  editorFiles := layout.editorFiles
  browserTabs := layout.browserTabs

def byKey {T : Type*} (keyOf : T → String) (records : List T) : OrderedMap String T :=
  OrderedMap.ofPairs (records.map fun record => (keyOf record, record))

def joinPane (bindings : OrderedMap String PublishedPaneBinding)
    (pane : PublishedTreePane F) : PublishedPane F :=
  match bindings.lookup pane.leafId with
  | none =>
    { leafId := pane.leafId
      ptyId := none
      ptyGeneration := none
      status := none
      statusReason := none
      resumeOutcome := none
      fields := pane.fields }
  | some binding =>
    { leafId := pane.leafId
      ptyId := binding.ptyId
      ptyGeneration := binding.ptyGeneration
      status := binding.status
      statusReason := binding.statusReason
      resumeOutcome := binding.resumeOutcome
      fields := pane.fields }

def joinTab (trees : OrderedMap String (PublishedPaneTree F))
    (bindings : OrderedMap String PublishedPaneBinding)
    (row : PublishedTabRow F) : Except String (PublishedTab F) :=
  match row.terminal with
  | none => .ok { id := row.id, terminal := none, fields := row.fields }
  | some creation =>
    match trees.lookup row.id with
    | none => .error
        ("layout records: terminal tab " ++ row.id ++ " has no pane tree")
    | some tree => .ok {
        id := row.id
        terminal := some {
          root := tree.root
          panes := tree.panes.map (joinPane bindings)
          chatLeafId := tree.chatLeafId
          creation }
        fields := row.fields }

/-- Fails when a terminal tab's row has no pane tree. -/
def joinPublishedLayout (records : PublishedLayoutRecords F) :
    Except String (PublishedWorkspaceLayout F) := do
  let trees := byKey (·.tabId) records.paneTrees
  let bindings := byKey (·.leafId) records.bindings
  let tabs ← records.tabs.mapM (joinTab trees bindings)
  return {
    workspace := records.workspace
    tabs
    editorFiles := records.editorFiles
    browserTabs := records.browserTabs }

/-! ## Diffing -/

/-- One kind's records in order, and by key. -/
structure IndexedKind (T : Type*) where
  order : List String
  byKey : OrderedMap String T

section Kind

variable {T : Type*} [DecidableEq T]

/-- A record may repeat a key only as it stands. -/
def indexRecord (keyOf : T → String) (index : IndexedKind T) (record : T) :
    Option (IndexedKind T) :=
  let key := keyOf record
  if (index.byKey.lookup key).any (fun seen => decide (seen ≠ record)) then none
  else some
    { order := index.order ++ [key], byKey := index.byKey.set key record }

def indexKind (keyOf : T → String) (records : List T) : Option (IndexedKind T) :=
  records.foldlM (indexRecord keyOf) { order := [], byKey := ∅ }

/-- One kind's changes; an empty list stands for an absent field. -/
structure LayoutRecordChanges (T : Type*) where
  set : List T
  removed : List String
  order : Option (List String)

def setRecords (before after : IndexedKind T) : List T :=
  after.byKey.pairs.filterMap fun entry =>
    if before.byKey.lookup entry.1 = some entry.2 then none else some entry.2

def removedKeys (before after : IndexedKind T) : List String :=
  before.byKey.keys.filter fun key => decide (key ∉ after.byKey)

def publishedOrder (before after : IndexedKind T) (ordered : Bool) : Option (List String) :=
  if ordered && decide (before.order ≠ after.order) then some after.order
  else none

def diffKind (before after : IndexedKind T) (ordered : Bool) : Option (LayoutRecordChanges T) :=
  let set := setRecords before after
  let removed := removedKeys before after
  let order := publishedOrder before after ordered
  if set.isEmpty && removed.isEmpty && order.isNone then none
  else some { set, removed, order }

def applyKind (records : List T) (changes : Option (LayoutRecordChanges T))
    (keyOf : T → String) (ordered : Bool) : Except String (List T) :=
  match changes with
  | none => .ok records
  | some changes =>
    let kept := (byKey keyOf records).eraseAll changes.removed
    let current := changes.set.foldl
      (fun map record => OrderedMap.set map (keyOf record) record) kept
    if !ordered then .ok current.values
    else
      let order := changes.order.getD (records.map keyOf)
      if current.keys.any (fun key => decide (key ∉ order)) then
        .error "layout records: a record is missing from its order"
      else
        order.mapM fun key =>
          match current.lookup key with
          | some record => .ok record
          | none => .error
              ("layout records: order names a missing record " ++ key)

end Kind

structure IndexedLayoutRecords (F : Type) where
  workspace : F
  tabs : IndexedKind (PublishedTabRow F)
  paneTrees : IndexedKind (PublishedPaneTree F)
  bindings : IndexedKind PublishedPaneBinding
  editorFiles : IndexedKind (PublishedEditorFile F)
  browserTabs : IndexedKind (PublishedBrowserTab F)

structure WorkspaceLayoutRecordChanges (F : Type) where
  workspace : Option F
  tabs : Option (LayoutRecordChanges (PublishedTabRow F))
  paneTrees : Option (LayoutRecordChanges (PublishedPaneTree F))
  bindings : Option (LayoutRecordChanges PublishedPaneBinding)
  editorFiles : Option (LayoutRecordChanges (PublishedEditorFile F))
  browserTabs : Option (LayoutRecordChanges (PublishedBrowserTab F))

inductive WorkspaceLayoutRecordChange (F : Type) where
  | removed (key : String)
  | layout (key : String) (layout : PublishedWorkspaceLayout F)
  | records (key : String) (changes : WorkspaceLayoutRecordChanges F)

section Layout

variable [DecidableEq F]

/-- None when two different records share a key: that layout only goes
whole. -/
def indexPublishedLayout (layout : PublishedWorkspaceLayout F) :
    Option (IndexedLayoutRecords F) := do
  let records := splitPublishedLayout layout
  let tabs ← indexKind (·.id) records.tabs
  let paneTrees ← indexKind (·.tabId) records.paneTrees
  let bindings ← indexKind (·.leafId) records.bindings
  let editorFiles ← indexKind editorFileKey records.editorFiles
  let browserTabs ← indexKind (·.id) records.browserTabs
  return {
    workspace := records.workspace
    tabs
    paneTrees
    bindings
    editorFiles
    browserTabs }

/-- Tabs place trees and bindings, so only the other kinds publish an
order. -/
def diffRecords (before after : IndexedLayoutRecords F) : WorkspaceLayoutRecordChanges F where
  workspace :=
    if before.workspace ≠ after.workspace then some after.workspace else none
  tabs := diffKind before.tabs after.tabs true
  paneTrees := diffKind before.paneTrees after.paneTrees false
  bindings := diffKind before.bindings after.bindings false
  editorFiles := diffKind before.editorFiles after.editorFiles true
  browserTabs := diffKind before.browserTabs after.browserTabs true

def WorkspaceLayoutRecordChanges.isEmpty (changes : WorkspaceLayoutRecordChanges F) : Bool :=
  changes.workspace.isNone && changes.tabs.isNone &&
    changes.paneTrees.isNone && changes.bindings.isNone &&
    changes.editorFiles.isNone && changes.browserTabs.isNone

def diffPublishedLayouts (key : String) (before after : Option (IndexedLayoutRecords F))
    (layout : PublishedWorkspaceLayout F) :
    Option (WorkspaceLayoutRecordChange F) :=
  match before, after with
  | some before, some after =>
    let changes := diffRecords before after
    if changes.isEmpty then none else some (.records key changes)
  | _, _ => some (.layout key layout)

def applyRecords (before : PublishedWorkspaceLayout F) (changes : WorkspaceLayoutRecordChanges F) :
    Except String (PublishedWorkspaceLayout F) := do
  let records := splitPublishedLayout before
  let tabs ← applyKind records.tabs changes.tabs (·.id) true
  let paneTrees ←
    applyKind records.paneTrees changes.paneTrees (·.tabId) false
  let bindings ← applyKind records.bindings changes.bindings (·.leafId) false
  let editorFiles ←
    applyKind records.editorFiles changes.editorFiles editorFileKey true
  let browserTabs ←
    applyKind records.browserTabs changes.browserTabs (·.id) true
  joinPublishedLayout {
    workspace := changes.workspace.getD records.workspace
    tabs
    paneTrees
    bindings
    editorFiles
    browserTabs }

def applyWorkspaceLayoutRecordChange (before : Option (PublishedWorkspaceLayout F)) :
    WorkspaceLayoutRecordChange F → Except String (Option (PublishedWorkspaceLayout F))
  | .removed _ => .ok none
  | .layout _ layout => .ok (some layout)
  | .records key changes =>
    match before with
    | none => .error
        ("layout records: a change for unknown workspace " ++ key)
    | some before => some <$> applyRecords before changes

end Layout

/-! ## One kind -/

section Kind

variable {T : Type*} {keyOf : T → String}

/-- The map holds the records of a list under their keys, each key once. -/
structure Indexes (keyOf : T → String) (records : List T)
    (map : OrderedMap String T) : Prop where
  lookup_of_mem : ∀ record ∈ records, map.lookup (keyOf record) = some record
  mem_of_lookup : ∀ key record, map.lookup key = some record → record ∈ records ∧ keyOf record = key

variable {records : List T} {map : OrderedMap String T}

theorem Indexes.lookup_iff (h : Indexes keyOf records map) {key : String} {record : T} :
    map.lookup key = some record ↔ record ∈ records ∧ keyOf record = key := by
  constructor
  · exact h.mem_of_lookup key record
  · rintro ⟨hmem, rfl⟩
    exact h.lookup_of_mem record hmem

theorem Indexes.lookup_eq {left right : OrderedMap String T}
    (hleft : Indexes keyOf records left) (hright : Indexes keyOf records right)
    (key : String) : left.lookup key = right.lookup key := by
  apply Option.ext
  intro record
  exact hleft.lookup_iff.trans hright.lookup_iff.symm

theorem Indexes.byKey (h : Indexes keyOf records map) :
    Indexes keyOf records (byKey keyOf records) := by
  have hmem : ∀ key record, (LayoutRecords.byKey keyOf records).lookup key =
      some record → record ∈ records ∧ keyOf record = key := by
    intro key record hlookup
    obtain ⟨stored, hstored, heq⟩ := mem_map.mp (OrderedMap.mem_of_lookup_ofPairs hlookup)
    cases heq
    exact ⟨hstored, rfl⟩
  refine ⟨fun record hrecord => ?_, hmem⟩
  have hkey : keyOf record ∈ LayoutRecords.byKey keyOf records := by
    apply OrderedMap.mem_ofPairs.mpr
    rw [map_map]
    exact mem_map_of_mem hrecord
  obtain ⟨found, hfound⟩ := Option.isSome_iff_exists.mp (AList.lookup_isSome.mpr hkey)
  obtain ⟨hfoundMem, hfoundKey⟩ := hmem _ _ hfound
  have hsame := h.lookup_of_mem found hfoundMem
  rw [hfoundKey, h.lookup_of_mem record hrecord, Option.some.injEq] at hsame
  rw [hfound, hsame]

theorem Indexes.filterMap_keys (h : Indexes keyOf records map) :
    (records.map keyOf).filterMap map.lookup = records := by
  rw [filterMap_map]
  have hsome : ∀ record ∈ records, (map.lookup ∘ keyOf) record = some record := h.lookup_of_mem
  rw [filterMap_congr hsome, filterMap_some]

variable [DecidableEq T]

/-- An index lists the keys in order and finds each record. -/
theorem indexKind_spec {index : IndexedKind T} (hindex : indexKind keyOf records = some index) :
    index.order = records.map keyOf ∧ Indexes keyOf records index.byKey := by
  induction records using List.reverseRecOn generalizing index with
  | nil =>
    rw [indexKind, foldlM_nil] at hindex
    cases hindex
    refine ⟨rfl, ?_, ?_⟩
    · intro record hrecord
      exact absurd hrecord not_mem_nil
    · intro key record hlookup
      cases hlookup
  | append_singleton records record ih =>
    rw [indexKind, foldlM_append, Option.bind_eq_bind, Option.bind_eq_some_iff] at hindex
    obtain ⟨earlier, hearlier, hstep⟩ := hindex
    obtain ⟨horder, hindexes⟩ := ih hearlier
    simp only [foldlM_cons, foldlM_nil, Option.bind_eq_bind,
      Option.bind_eq_some_iff, Option.pure_def, Option.some.injEq,
      exists_eq_right] at hstep
    rw [indexRecord] at hstep
    split at hstep
    · cases hstep
    · next hseen =>
        rw [Option.some.injEq] at hstep
        subst hstep
        have hrepeat : ∀ seen, earlier.byKey.lookup (keyOf record) = some seen → seen = record := by
          intro seen hlookup
          rw [hlookup] at hseen
          simpa using hseen
        refine ⟨?_, ?_, ?_⟩
        · simp [horder]
        · intro other hother
          rw [mem_append, mem_singleton] at hother
          rw [OrderedMap.lookup_set]
          by_cases hkey : keyOf other = keyOf record
          · rw [if_pos hkey]
            cases hother with
            | inl hold =>
              have hlookup := hindexes.lookup_of_mem other hold
              rw [hkey] at hlookup
              rw [hrepeat other hlookup]
            | inr heq => rw [heq]
          · rw [if_neg hkey]
            cases hother with
            | inl hold => exact hindexes.lookup_of_mem other hold
            | inr heq => exact absurd (congrArg keyOf heq) hkey
        · intro key found hlookup
          rw [OrderedMap.lookup_set] at hlookup
          rw [mem_append, mem_singleton]
          by_cases hkey : key = keyOf record
          · rw [if_pos hkey, Option.some.injEq] at hlookup
            exact ⟨Or.inr hlookup.symm, hlookup ▸ hkey.symm⟩
          · rw [if_neg hkey] at hlookup
            obtain ⟨hmem, hfound⟩ := hindexes.mem_of_lookup key found hlookup
            exact ⟨Or.inl hmem, hfound⟩

end Kind

end Wakii.LayoutRecords
