import Wakii.Layout.Records

/-!
# The record stream reproduces the host's layout

For one kind of record, applying a diff to the earlier records gives the later
ones: the same list where an order is published, and the same records by key
where it is not.  Joining reads trees and bindings by key only, so the applied
records join to the later layout.
-/

namespace Wakii.LayoutRecords

open List OrderedCollections OrderedMap

section Kind

variable {T : Type*} [DecidableEq T] {keyOf : T → String}
  {before after : List T} {earlier later : IndexedKind T}

omit [DecidableEq T] in
theorem lookup_foldl_set {held map : OrderedMap String T} {records : List T}
    (hheld : ∀ record ∈ records, held.lookup (keyOf record) = some record)
    (key : String) :
    (records.foldl (fun map record => OrderedMap.set map (keyOf record) record) map).lookup
        key =
      if key ∈ records.map keyOf then held.lookup key
      else map.lookup key := by
  induction records generalizing map with
  | nil => simp
  | cons record rest ih =>
    rw [foldl_cons, ih fun other hother => hheld other (mem_cons_of_mem _ hother), lookup_set]
    have hrecord := hheld record mem_cons_self
    by_cases hrest : key ∈ rest.map keyOf
    · rw [if_pos hrest, map_cons, if_pos (mem_cons_of_mem _ hrest)]
    · rw [if_neg hrest, map_cons]
      by_cases hkey : key = keyOf record
      · rw [if_pos hkey, hkey, if_pos mem_cons_self, hrecord]
      · rw [if_neg hkey, if_neg]
        exact fun hmem => (mem_cons.mp hmem).elim hkey hrest

theorem mem_setRecords {record : T} : record ∈ setRecords earlier later ↔
      ∃ key, later.byKey.lookup key = some record ∧ earlier.byKey.lookup key ≠ some record := by
  simp only [setRecords, mem_filterMap, Prod.exists]
  constructor
  · rintro ⟨key, stored, hmem, hset⟩
    split at hset
    · cases hset
    · next hchanged =>
        cases hset
        exact ⟨key, mem_pairs.mp hmem, hchanged⟩
  · rintro ⟨key, hlookup, hchanged⟩
    exact ⟨key, record, mem_pairs.mpr hlookup, if_neg hchanged⟩

omit [DecidableEq T] in
theorem mem_removedKeys {key : String} : key ∈ removedKeys earlier later ↔
      key ∈ earlier.byKey ∧ key ∉ later.byKey := by
  simp [removedKeys, AList.mem_keys]

def appliedByKey (keyOf : T → String) (before : List T)
    (earlier later : IndexedKind T) : OrderedMap String T :=
  (setRecords earlier later).foldl
    (fun map record => OrderedMap.set map (keyOf record) record)
    ((byKey keyOf before).eraseAll (removedKeys earlier later))

/-- After them every key holds its later record. -/
theorem lookup_appliedByKey (hbefore : Indexes keyOf before earlier.byKey)
    (hafter : Indexes keyOf after later.byKey) (key : String) :
    (appliedByKey keyOf before earlier later).lookup key = later.byKey.lookup key := by
  have hset : ∀ record ∈ setRecords earlier later,
      later.byKey.lookup (keyOf record) = some record := by
    intro record hrecord
    obtain ⟨found, hlookup, _⟩ := mem_setRecords.mp hrecord
    exact hafter.lookup_of_mem record (hafter.mem_of_lookup _ _ hlookup).1
  rw [appliedByKey, lookup_foldl_set hset, lookup_eraseAll, hbefore.byKey.lookup_eq hbefore]
  by_cases hkey : key ∈ (setRecords earlier later).map keyOf
  · rw [if_pos hkey]
  · rw [if_neg hkey]
    by_cases hremoved : key ∈ removedKeys earlier later
    · rw [if_pos hremoved, eq_comm, AList.lookup_eq_none]
      exact (mem_removedKeys.mp hremoved).2
    · rw [if_neg hremoved]
      cases hlater : later.byKey.lookup key with
      | none =>
        rw [AList.lookup_eq_none] at hlater ⊢
        exact fun hmem => hremoved (mem_removedKeys.mpr ⟨hmem, hlater⟩)
      | some record =>
        by_contra hchanged
        apply hkey
        rw [mem_map]
        exact ⟨record, mem_setRecords.mpr ⟨key, hlater, hchanged⟩,
          (hafter.mem_of_lookup key record hlater).2⟩

theorem diffKind_eq_none {ordered : Bool} (hdiff : diffKind earlier later ordered = none) :
    setRecords earlier later = [] ∧ removedKeys earlier later = [] ∧
      (ordered = true → earlier.order = later.order) := by
  rw [diffKind, ite_eq_left_iff] at hdiff
  by_contra hsome
  have hempty : (setRecords earlier later).isEmpty && (removedKeys earlier later).isEmpty &&
        (publishedOrder earlier later ordered).isNone := by
    by_contra hcase
    cases hdiff hcase
  simp only [Bool.and_eq_true, List.isEmpty_iff] at hempty
  obtain ⟨⟨hset, hremoved⟩, horder⟩ := hempty
  refine hsome ⟨hset, hremoved, fun hordered => ?_⟩
  by_contra hne
  simp [publishedOrder, hordered, hne] at horder

theorem diffKind_self (index : IndexedKind T) (ordered : Bool) :
    diffKind index index ordered = none := by
  have hset : setRecords index index = [] := by
    rw [eq_nil_iff_forall_not_mem]
    intro record hrecord
    obtain ⟨key, hsame, hchanged⟩ := mem_setRecords.mp hrecord
    exact hchanged hsame
  have hremoved : removedKeys index index = [] := by
    rw [eq_nil_iff_forall_not_mem]
    intro key hkey
    exact (mem_removedKeys.mp hkey).2 (mem_removedKeys.mp hkey).1
  simp [diffKind, hset, hremoved, publishedOrder]

theorem diffKind_eq_some {ordered : Bool} {changes : LayoutRecordChanges T}
    (hdiff : diffKind earlier later ordered = some changes) :
    changes =
      { set := setRecords earlier later
        removed := removedKeys earlier later
        order := publishedOrder earlier later ordered } := by
  rw [diffKind] at hdiff
  split at hdiff
  · cases hdiff
  · exact (Option.some.inj hdiff).symm

section

variable (hbefore : Indexes keyOf before earlier.byKey) (hafter : Indexes keyOf after later.byKey)
include hbefore hafter

theorem lookup_eq_of_diffKind_eq_none {ordered : Bool}
    (hdiff : diffKind earlier later ordered = none) (key : String) :
    earlier.byKey.lookup key = later.byKey.lookup key := by
  obtain ⟨hset, hremoved, _⟩ := diffKind_eq_none hdiff
  rw [← lookup_appliedByKey hbefore hafter key, appliedByKey, hset, hremoved]
  exact hbefore.lookup_eq hbefore.byKey key

omit [DecidableEq T] in
theorem records_eq (horder : before.map keyOf = after.map keyOf)
    (hlookup : ∀ key, earlier.byKey.lookup key = later.byKey.lookup key) :
    before = after := by
  have hsame : earlier.byKey.lookup = later.byKey.lookup := by
    funext key
    exact hlookup key
  calc
    before = (before.map keyOf).filterMap (earlier.byKey.lookup ·) := hbefore.filterMap_keys.symm
    _ = (after.map keyOf).filterMap (later.byKey.lookup ·) := by
      rw [horder]
      simp only [hlookup]
    _ = after := hafter.filterMap_keys

end

omit [DecidableEq T] in
private theorem mapM_map_ok {find : String → Except String T}
    {records : List T}
    (hfind : ∀ record ∈ records, find (keyOf record) = .ok record) :
    (records.map keyOf).mapM find = .ok records := by
  induction records with
  | nil => rfl
  | cons record rest ih =>
    rw [map_cons, mapM_cons, hfind record mem_cons_self,
      ih fun other hother => hfind other (mem_cons_of_mem _ hother)]
    rfl

section

variable (hbefore : indexKind keyOf before = some earlier)
  (hafter : indexKind keyOf after = some later)
include hbefore hafter

/-- An ordered kind: the diff applied to the earlier records is the later
list. -/
theorem applyKind_ordered :
    applyKind before (diffKind earlier later true) keyOf true = .ok after := by
  obtain ⟨hbeforeOrder, hbeforeIndex⟩ := indexKind_spec hbefore
  obtain ⟨hafterOrder, hafterIndex⟩ := indexKind_spec hafter
  cases hdiff : diffKind earlier later true with
  | none =>
    have horder := (diffKind_eq_none hdiff).2.2 rfl
    rw [hbeforeOrder, hafterOrder] at horder
    rw [applyKind, records_eq hbeforeIndex hafterIndex horder
      (lookup_eq_of_diffKind_eq_none hbeforeIndex hafterIndex hdiff)]
  | some changes =>
    have hlookup := lookup_appliedByKey hbeforeIndex hafterIndex
    have hordered : (publishedOrder earlier later true).getD
        (before.map keyOf) = after.map keyOf := by
      rw [publishedOrder, hbeforeOrder, hafterOrder]
      by_cases hsame : before.map keyOf = after.map keyOf <;> simp [hsame]
    have hplaced : (appliedByKey keyOf before earlier later).keys.any
        (fun key => decide (key ∉ after.map keyOf)) = false := by
      rw [any_eq_false]
      intro key hkey
      rw [decide_eq_true_eq, not_not]
      have hmem := AList.lookup_isSome.mpr (AList.mem_keys.mpr hkey)
      rw [hlookup, Option.isSome_iff_exists] at hmem
      obtain ⟨record, hrecord⟩ := hmem
      obtain ⟨hmem, rfl⟩ := hafterIndex.mem_of_lookup key record hrecord
      exact mem_map_of_mem hmem
    rw [diffKind_eq_some hdiff]
    change (if (appliedByKey keyOf before earlier later).keys.any
        (fun key => decide (key ∉ (publishedOrder earlier later true).getD
          (before.map keyOf))) = true then _ else _) = _
    rw [hordered, hplaced, if_neg (by decide)]
    refine mapM_map_ok fun record hrecord => ?_
    have hfound := hafterIndex.lookup_of_mem record hrecord
    rw [← hlookup, appliedByKey] at hfound
    simp only [hfound]

/-- An unordered kind: the diff applied holds the later records by key. -/
theorem applyKind_unordered : ∃ records,
      applyKind before (diffKind earlier later false) keyOf false = .ok records ∧
      ∀ key, (byKey keyOf records).lookup key = (byKey keyOf after).lookup key := by
  obtain ⟨_, hbeforeIndex⟩ := indexKind_spec hbefore
  obtain ⟨_, hafterIndex⟩ := indexKind_spec hafter
  cases hdiff : diffKind earlier later false with
  | none =>
    refine ⟨before, rfl, fun key => ?_⟩
    rw [hbeforeIndex.byKey.lookup_eq hbeforeIndex, hafterIndex.byKey.lookup_eq hafterIndex]
    exact lookup_eq_of_diffKind_eq_none hbeforeIndex hafterIndex hdiff key
  | some changes =>
    have hlookup := lookup_appliedByKey hbeforeIndex hafterIndex
    have hvalues : Indexes keyOf (appliedByKey keyOf before earlier later).values
        (appliedByKey keyOf before earlier later) := by
      constructor
      · intro record hrecord
        obtain ⟨key, hkey⟩ := mem_values.mp hrecord
        have hlater := hkey
        rw [hlookup] at hlater
        rw [(hafterIndex.mem_of_lookup key record hlater).2, hkey]
      · intro key record hkey
        refine ⟨mem_values.mpr ⟨key, hkey⟩, ?_⟩
        rw [hlookup] at hkey
        exact (hafterIndex.mem_of_lookup key record hkey).2
    refine ⟨(appliedByKey keyOf before earlier later).values, ?_, ?_⟩
    · rw [diffKind_eq_some hdiff]
      rfl
    · intro key
      rw [hvalues.byKey.lookup_eq hvalues, hlookup, hafterIndex.byKey.lookup_eq hafterIndex]

end

end Kind

/-! ## Whole layouts -/

section Join

variable {F : Type}

theorem joinPublishedLayout_congr {left right : PublishedLayoutRecords F}
    (hworkspace : left.workspace = right.workspace)
    (htabs : left.tabs = right.tabs)
    (htrees : ∀ key, (byKey (·.tabId) left.paneTrees).lookup key =
      (byKey (·.tabId) right.paneTrees).lookup key)
    (hbindings : ∀ key, (byKey (·.leafId) left.bindings).lookup key =
      (byKey (·.leafId) right.bindings).lookup key)
    (hfiles : left.editorFiles = right.editorFiles)
    (hbrowsers : left.browserTabs = right.browserTabs) :
    joinPublishedLayout left = joinPublishedLayout right := by
  have hpane : joinPane (F := F) (byKey (·.leafId) left.bindings) =
      joinPane (byKey (·.leafId) right.bindings) := by
    funext pane
    rw [joinPane, joinPane, hbindings]
  have htab : joinTab (byKey (·.tabId) left.paneTrees) (byKey (·.leafId) left.bindings) =
      joinTab (byKey (·.tabId) right.paneTrees)
        (byKey (·.leafId) right.bindings) := by
    funext row
    rw [joinTab, joinTab, htrees, hpane]
  rw [joinPublishedLayout, joinPublishedLayout, htab, hworkspace, htabs, hfiles, hbrowsers]

end Join

section Layout

variable {F : Type} [DecidableEq F]
  {before after : PublishedWorkspaceLayout F}
  {earlier later : IndexedLayoutRecords F}

theorem indexPublishedLayout_spec (hindex : indexPublishedLayout before = some earlier) :
    earlier.workspace = before.workspace ∧ indexKind (·.id) (splitPublishedLayout before).tabs =
        some earlier.tabs ∧
      indexKind (·.tabId) (splitPublishedLayout before).paneTrees = some earlier.paneTrees ∧
      indexKind (·.leafId) (splitPublishedLayout before).bindings = some earlier.bindings ∧
      indexKind editorFileKey (splitPublishedLayout before).editorFiles = some earlier.editorFiles ∧
      indexKind (·.id) (splitPublishedLayout before).browserTabs = some earlier.browserTabs := by
  simp only [indexPublishedLayout, Option.bind_eq_bind,
    Option.bind_eq_some_iff, Option.pure_def, Option.some.injEq] at hindex
  obtain ⟨tabs, htabs, trees, htrees, bindings, hbindings, files, hfiles,
    browsers, hbrowsers, rfl⟩ := hindex
  exact ⟨rfl, htabs, htrees, hbindings, hfiles, hbrowsers⟩

theorem applyRecords_diffRecords (hbefore : indexPublishedLayout before = some earlier)
    (hafter : indexPublishedLayout after = some later) :
    applyRecords before (diffRecords earlier later) =
      joinPublishedLayout (splitPublishedLayout after) := by
  obtain ⟨hwork, htabs, htrees, hbindings, hfiles, hbrowsers⟩ := indexPublishedLayout_spec hbefore
  obtain ⟨hwork', htabs', htrees', hbindings', hfiles', hbrowsers'⟩ :=
    indexPublishedLayout_spec hafter
  obtain ⟨trees, happliedTrees, htreesEq⟩ := applyKind_unordered htrees htrees'
  obtain ⟨bindings, happliedBindings, hbindingsEq⟩ := applyKind_unordered hbindings hbindings'
  have hworkspace : ((diffRecords earlier later).workspace).getD
      (splitPublishedLayout before).workspace = after.workspace := by
    simp only [diffRecords, hwork, hwork', splitPublishedLayout]
    by_cases hsame : before.workspace = after.workspace <;> simp [hsame]
  rw [applyRecords]
  simp only [diffRecords] at hworkspace ⊢
  rw [applyKind_ordered htabs htabs', happliedTrees, happliedBindings,
    applyKind_ordered hfiles hfiles', applyKind_ordered hbrowsers hbrowsers']
  exact joinPublishedLayout_congr hworkspace rfl htreesEq hbindingsEq rfl rfl

theorem diffPublishedLayouts_self (key : String)
    (index : IndexedLayoutRecords F) (layout : PublishedWorkspaceLayout F) :
    diffPublishedLayouts key (some index) (some index) layout = none := by
  simp [diffPublishedLayouts, diffRecords, WorkspaceLayoutRecordChanges.isEmpty, diffKind_self]

/-- A layout the stream can carry in records: no two different records share a
key, and its records join back to it. -/
def Streamable (layout : PublishedWorkspaceLayout F) : Prop :=
  (indexPublishedLayout layout).isSome ∧
    joinPublishedLayout (splitPublishedLayout layout) = .ok layout

def hostChange (key : String) (before after : PublishedWorkspaceLayout F) :
    Option (WorkspaceLayoutRecordChange F) :=
  diffPublishedLayouts key (indexPublishedLayout before)
    (indexPublishedLayout after) after

theorem hostChange_eq_none_iff (key : String) (hbefore : Streamable before)
    (hafter : Streamable after) :
    hostChange key before after = none ↔ before = after := by
  obtain ⟨earlier, hearlier⟩ := Option.isSome_iff_exists.mp hbefore.1
  obtain ⟨later, hlater⟩ := Option.isSome_iff_exists.mp hafter.1
  rw [hostChange, hearlier, hlater]
  constructor
  · intro hnone
    simp only [diffPublishedLayouts] at hnone
    split at hnone
    · next hempty =>
        have happlied := applyRecords_diffRecords hearlier hlater
        have hsame : applyRecords before (diffRecords earlier later) =
            joinPublishedLayout (splitPublishedLayout before) := by
          simp only [WorkspaceLayoutRecordChanges.isEmpty, Bool.and_eq_true,
            Option.isNone_iff_eq_none] at hempty
          obtain ⟨⟨⟨⟨⟨hwork, htabs⟩, htrees⟩, hbindings⟩, hfiles⟩, hbrowsers⟩ := hempty
          rw [applyRecords, hwork, htabs, htrees, hbindings, hfiles, hbrowsers]
          rfl
        rw [hsame, hbefore.2, hafter.2] at happlied
        exact Except.ok.inj happlied
    · cases hnone
  · rintro rfl
    rw [hearlier, Option.some.injEq] at hlater
    subst hlater
    exact diffPublishedLayouts_self key earlier before

theorem apply_hostChange (hafter : Streamable after) (hbefore : Streamable before) {key : String}
    {change : WorkspaceLayoutRecordChange F}
    (hchange : hostChange key before after = some change) :
    applyWorkspaceLayoutRecordChange (some before) change = .ok (some after) := by
  obtain ⟨earlier, hearlier⟩ := Option.isSome_iff_exists.mp hbefore.1
  obtain ⟨later, hlater⟩ := Option.isSome_iff_exists.mp hafter.1
  rw [hostChange, hearlier, hlater] at hchange
  simp only [diffPublishedLayouts] at hchange
  split at hchange
  · cases hchange
  · rw [Option.some.injEq] at hchange
    subst hchange
    simp only [applyWorkspaceLayoutRecordChange]
    rw [applyRecords_diffRecords hearlier hlater, hafter.2]
    rfl

def hostChanges (key : String) : PublishedWorkspaceLayout F → List (PublishedWorkspaceLayout F) →
      List (WorkspaceLayoutRecordChange F)
  | _, [] => []
  | before, after :: rest =>
    (hostChange key before after).toList ++ hostChanges key after rest

theorem foldlM_hostChanges (key : String) (layouts : List (PublishedWorkspaceLayout F))
    (hfirst : Streamable before)
    (hlayouts : ∀ layout ∈ layouts, Streamable layout) :
    (hostChanges key before layouts).foldlM applyWorkspaceLayoutRecordChange
      (some before) = .ok (some (layouts.getLast?.getD before)) := by
  induction layouts generalizing before with
  | nil => rfl
  | cons after rest ih =>
    have hafter := hlayouts after mem_cons_self
    have hrest := ih hafter fun layout hlayout =>
      hlayouts layout (mem_cons_of_mem _ hlayout)
    have hlast : (after :: rest).getLast?.getD before = rest.getLast?.getD after := by
      rw [getLast?_cons, Option.getD_some]
    rw [hostChanges, foldlM_append, hlast, ← hrest]
    cases hchange : hostChange key before after with
    | none =>
      rw [(hostChange_eq_none_iff key hfirst hafter).mp hchange]
      rfl
    | some change =>
      rw [Option.toList_some, foldlM_cons, apply_hostChange hafter hfirst hchange]
      rfl

/-- A diff is empty exactly between equal layouts, applying it yields the later
layout, and a reader that applies every change of a sequence holds the host's
last layout. -/
theorem record_stream_reproduces (key : String) : (∀ before after : PublishedWorkspaceLayout F,
      Streamable before → Streamable after → (hostChange key before after = none ↔ before = after) ∧
        ∀ change, hostChange key before after = some change →
          applyWorkspaceLayoutRecordChange (some before) change = .ok (some after)) ∧
    ∀ (first : PublishedWorkspaceLayout F)
      (layouts : List (PublishedWorkspaceLayout F)), Streamable first →
        (∀ layout ∈ layouts, Streamable layout) → (hostChanges key first layouts).foldlM
            applyWorkspaceLayoutRecordChange (some first) =
              .ok (some (layouts.getLast?.getD first)) :=
  ⟨fun _ _ hbefore hafter =>
    ⟨hostChange_eq_none_iff key hbefore hafter,
      fun _ hchange => apply_hostChange hafter hbefore hchange⟩,
    fun _ layouts hfirst hlayouts =>
      foldlM_hostChanges key layouts hfirst hlayouts⟩

def splitTerminal (ptyId : Option String) (groups : ℕ) : PublishedWorkspaceLayout ℕ where
  workspace := groups
  tabs := [{
    id := "shell"
    terminal := some {
      root := 0
      panes := [
        { leafId := "left", ptyId := some "pty-1", ptyGeneration := some 1,
          status := none, statusReason := none, resumeOutcome := none,
          fields := 0 },
        { leafId := "right", ptyId, ptyGeneration := none, status := none,
          statusReason := none, resumeOutcome := none, fields := 0 }]
      chatLeafId := none
      creation := 0 }
    fields := 0 }]
  editorFiles := []
  browserTabs := [{ id := "page", fields := 0 }]

theorem streamable_splitTerminal (groups : ℕ) : Streamable (splitTerminal none groups) ∧
      Streamable (splitTerminal (some "pty-2") groups) :=
  ⟨⟨rfl, rfl⟩, ⟨rfl, rfl⟩⟩

theorem record_stream_reproduces_splitTerminal : (hostChanges "w" (splitTerminal none 0)
        [splitTerminal (some "pty-2") 0, splitTerminal none 1]).foldlM
      applyWorkspaceLayoutRecordChange (some (splitTerminal none 0)) =
        .ok (some (splitTerminal none 1)) ∧
    (hostChange "w" (splitTerminal none 0) (splitTerminal none 0) = none ↔
      splitTerminal none 0 = splitTerminal none 0) := by
  refine ⟨(record_stream_reproduces "w").2 _ _ (streamable_splitTerminal 0).1 ?_,
    ((record_stream_reproduces "w").1 _ _ (streamable_splitTerminal 0).1
      (streamable_splitTerminal 0).1).1⟩
  simp [streamable_splitTerminal]

end Layout

end Wakii.LayoutRecords
