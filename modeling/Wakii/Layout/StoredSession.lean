import Wakii.Layout.PatchFrame

/-!
# What a stored session keeps

A patched session differs from the stored one in what the command touched and
in the folded legacy rows whose terminals it touched.
-/

namespace Wakii.SessionPatch

open List Json RecordList

variable {N : Type} {stored before after patched : Fields N}

section Maps

variable [DecidableEq N]

structure PatchesMap (stored before after patched : Fields N) : Prop where
  kept : ∀ key, same (field? key before) (field? key after) = true →
    field? key patched = field? key stored
  gone : ∀ key old, field? key before = some old → field? key after = none →
    field? key patched = none
  changed : ∀ key record old next, same (field? key before) (field? key after) = false →
    field? key stored = some (.object record) → field? key before = some (.object old) →
    field? key after = some (.object next) →
    ∃ fields, field? key patched = some (.object fields) ∧ PatchesFields record old next fields
  /-- Where one of the three is no record, the entry is written whole. -/
  written : ∀ key, same (field? key before) (field? key after) = false →
    ¬ (isRecord (field? key stored) ∧ isRecord (field? key before) ∧
      isRecord (field? key after)) → field? key patched = field? key after

theorem same_some_none {value : Json N} : same (some value) none = false := rfl

theorem patchValue_map (value : Option (Json N)) :
    ∃ patched, patchValue mapRecordDepth value (some (.object before)) (.object after) =
      .object patched ∧ PatchesMap (asJson value) before after patched := by
  refine ⟨assignAll (fun key => (field? key after).map
    (patchValue 1 (field? key (asJson value)) (field? key before)))
    (changedKeys before after) (asJson value), by simp [patchValue, mapRecordDepth], ?_⟩
  refine
    { kept := fun key hsame => by rw [field?_patched, if_pos hsame]
      gone := fun key old hold hnone => ?_
      changed := fun key record old next hdiffers hrecord hold hnext => ?_
      written := fun key hdiffers hwhole => ?_ }
  · rw [field?_patched, hold, hnone, same_some_none]
    rfl
  · obtain ⟨fields, hfields, hpatches⟩ := @patchValue_record N _ record old next
    refine ⟨fields, ?_, hpatches⟩
    rw [field?_patched, hdiffers, if_neg Bool.false_ne_true, hrecord, hold, hnext, Option.map_some,
      hfields]
  · rw [field?_patched, hdiffers, if_neg Bool.false_ne_true]
    cases hafter : field? key after with
    | none => rfl
    | some next =>
      rw [hafter] at hwhole
      rw [Option.map_some, patchValue_whole hwhole]

theorem patchValue_whole_map {value old : Option (Json N)} {next : Json N}
    (hwhole : ¬ (isRecord old ∧ isRecord (some next))) :
    patchValue mapRecordDepth value old next = next := by
  unfold patchValue
  split
  next => exact absurd ⟨rfl, rfl⟩ hwhole
  next => rfl

end Maps

section Lists

variable [DecidableEq N] [Zero N]

structure PatchesLists (idOf : Fields N → Option Text) (stored before after patched : Fields N) :
    Prop where
  kept : ∀ key, same (field? key before) (field? key after) = true →
    field? key patched = field? key stored
  changed : ∀ key, same (field? key before) (field? key after) = false →
    PatchesRecords idOf (asList (field? key stored)) (asList (field? key before))
      (asList (field? key after)) (asList (field? key patched))

omit [DecidableEq N] [Zero N] in
@[simp]
theorem asList_array (list : List (Fields N)) :
    asList (some (.array (list.map .object))) = list := by
  rw [asList, filterMap_map]
  exact filterMap_some

theorem asList_patchedList (idOf : Fields N → Option Text) (stored before after : Option (Json N)) :
    asList (patchedList idOf stored before after) =
      patchList idOf (asList stored) (asList before) (asList after) := by
  rw [patchedList]
  split_ifs with hempty
  · rw [Bool.and_eq_true, List.isEmpty_iff] at hempty
    rw [hempty.1]
    rfl
  · exact asList_array _

def AreKeyedLists (idOf : Fields N → Option Text) (lists : Fields N) : Prop :=
  ∀ key, IsKeyed idOf (asList (field? key lists))

theorem patchLists_patches {named : Fields N → Prop} {idOf : Fields N → Option Text}
    (hids : KeepsIds named idOf)
    (hnamed : ∀ key, ∀ next ∈ asList (field? key after), named next)
    (hstored : AreKeyedLists idOf stored) (hafter : AreKeyedLists idOf after) :
    PatchesLists idOf stored before after (patchLists idOf stored before after) where
  kept key hsame := by rw [patchLists, field?_patched, if_pos hsame]
  changed key hdiffers := by
    rw [patchLists, field?_patched, hdiffers, if_neg Bool.false_ne_true, asList_patchedList]
    exact patchList_patches hids (hnamed key) (hstored key) (hafter key)

end Lists

section Sessions

variable [DecidableEq N] [Zero N] {ownerIsMain : Bool}

def RepeatsNoId (ownerIsMain : Bool) (session : Fields N) : Prop :=
  ∀ field idOf, listFields ownerIsMain field = some idOf →
    AreKeyedLists idOf (asJson (field? field session))

def HasIds (ownerIsMain : Bool) (session : Fields N) : Prop :=
  ∀ field key, ∀ record ∈ asList (entryOf session field key), HasId ownerIsMain field record

/-- A session where only what a command changed is changed. -/
structure Patches (ownerIsMain : Bool) (stored before after patched : Fields N) : Prop where
  kept : ∀ field, same (field? field before) (field? field after) = true →
    field? field patched = field? field stored
  dropped : ∀ field old, field? field before = some old → field? field after = none →
    field? field patched = none
  lists : ∀ field idOf next, same (field? field before) (field? field after) = false →
    field? field after = some next → listFields ownerIsMain field = some idOf →
    PatchesLists idOf (asJson (field? field stored)) (asJson (field? field before))
      (asJson (some next)) (asJson (field? field patched))
  maps : ∀ field old next, same (field? field before) (field? field after) = false →
    field? field before = some (.object old) → field? field after = some (.object next) →
    listFields (N := N) ownerIsMain field = none →
    ∃ map, field? field patched = some (.object map) ∧
      PatchesMap (asJson (field? field stored)) old next map
  /-- A map on one side only, and any other value, is written whole. -/
  written : ∀ field, same (field? field before) (field? field after) = false →
    listFields (N := N) ownerIsMain field = none →
    ¬ (isRecord (field? field before) ∧ isRecord (field? field after)) →
    field? field patched = field? field after

theorem patchRecords_patches (hnamed : HasIds ownerIsMain after)
    (hstored : RepeatsNoId ownerIsMain stored) (hafter : RepeatsNoId ownerIsMain after) :
    Patches ownerIsMain stored before after (patchRecords ownerIsMain stored before after) := by
  refine
    { kept := fun field hsame => by rw [patchRecords, field?_patched, if_pos hsame]
      dropped := fun field old hold hnone => ?_
      lists := fun field idOf next hdiffers hnext hfield => ?_
      maps := fun field old next hdiffers hold hnext hfield => ?_
      written := fun field hdiffers hfield hwhole => ?_ }
  · rw [patchRecords, field?_patched, hold, hnone, same_some_none]
    rfl
  · have hkeyed := hafter field idOf hfield
    have hids := hnamed field
    simp only [entryOf, hnext] at hkeyed hids
    rw [patchRecords, field?_patched, hdiffers, if_neg Bool.false_ne_true, hnext, Option.map_some,
      patchField, hfield]
    exact patchLists_patches (keepsIds_listFields hfield) hids (hstored field idOf hfield) hkeyed
  · obtain ⟨map, hmap, hpatches⟩ := @patchValue_map N old next _ (field? field stored)
    refine ⟨map, ?_, hpatches⟩
    rw [patchRecords, field?_patched, hdiffers, if_neg Bool.false_ne_true, hnext, Option.map_some,
      patchField, hfield, hold]
    exact congrArg some hmap
  · rw [patchRecords, field?_patched, hdiffers, if_neg Bool.false_ne_true]
    cases hnext : field? field after with
    | none => rfl
    | some next =>
      rw [hnext] at hwhole
      rw [Option.map_some, patchField, hfield]
      exact congrArg some (patchValue_whole_map hwhole)

end Sessions

section Folded

variable {loaded session : Fields N} {rows : List (Text × Text)} {row : Text × Text}
  {field other key tabId : Text} {value : Option (Json N)}

def rowFields : List Text :=
  [tabsByWorktree, terminalLayoutsByTabId, activeTabId, activeTabIdByWorktree]

theorem entryOf_congr {first second : Fields N} (hsame : field? field first = field? field second) :
    entryOf first field key = entryOf second field key := by
  rw [entryOf, entryOf, hsame]

theorem field?_setEntry_of_ne (hne : other ≠ field) :
    field? other (setEntry field key value session) = field? other session := by
  rw [setEntry, field?_assign, if_neg hne]

theorem entryOf_setEntry : entryOf (setEntry field key value session) field other =
    if other = key then value else entryOf session field other := by
  rw [entryOf, setEntry, field?_assign, if_pos rfl]
  exact field?_assign

theorem field?_withLoadedLayout (hne : field ≠ terminalLayoutsByTabId) :
    field? field (withLoadedLayout loaded tabId session) = field? field session := by
  unfold withLoadedLayout
  split
  next => rfl
  next => rw [field?_assign, if_neg hne]

theorem entryOf_withLoadedLayout (hne : other ≠ tabId) :
    entryOf (withLoadedLayout loaded tabId session) terminalLayoutsByTabId other =
      entryOf session terminalLayoutsByTabId other := by
  unfold withLoadedLayout
  split
  next => rfl
  next =>
    rw [entryOf, field?_assign, if_pos rfl, asJson, Option.bind_some, record?, Option.getD_some,
      field?_assign, if_neg hne, field?_assign, if_neg hne]
    rfl

theorem field?_withLoadedTab (hne : field ≠ activeTabId) :
    field? field (withLoadedTab loaded tabId session) = field? field session := by
  rw [withLoadedTab]
  split_ifs
  · rw [field?_assign, if_neg hne]
  · rfl

theorem field?_withLoadedWorktreeTab (hne : field ≠ activeTabIdByWorktree) :
    field? field (withLoadedWorktreeTab loaded key tabId session) = field? field session := by
  rw [withLoadedWorktreeTab]
  split_ifs
  · exact field?_setEntry_of_ne hne
  · rfl

theorem activeTabId_withLoadedTab :
    field? activeTabId (withLoadedTab loaded tabId session) = field? activeTabId session ∨
      string? (field? activeTabId session) = some tabId ∧
        field? activeTabId (withLoadedTab loaded tabId session) = field? activeTabId loaded := by
  rw [withLoadedTab]
  split_ifs with hnamed
  · rw [field?_assign, if_pos rfl]
    exact Or.inr ⟨hnamed, rfl⟩
  · exact Or.inl rfl

theorem activeTab_withLoadedWorktreeTab :
    entryOf (withLoadedWorktreeTab loaded key tabId session) activeTabIdByWorktree other =
        entryOf session activeTabIdByWorktree other ∨
      (other = key ∧ string? (entryOf session activeTabIdByWorktree other) = some tabId) ∧
        entryOf (withLoadedWorktreeTab loaded key tabId session) activeTabIdByWorktree other =
          some ((entryOf loaded activeTabIdByWorktree other).getD .null) := by
  rw [withLoadedWorktreeTab]
  split_ifs with hnamed
  · rw [entryOf_setEntry]
    split_ifs with hkey
    · subst hkey
      exact Or.inr ⟨⟨rfl, hnamed⟩, rfl⟩
    · exact Or.inl rfl
  · exact Or.inl rfl

theorem field?_withLoadedRow (hrows : field ≠ tabsByWorktree)
    (hlayouts : field ≠ terminalLayoutsByTabId) (htab : field ≠ activeTabId)
    (htabs : field ≠ activeTabIdByWorktree) :
    field? field (withLoadedRow loaded session row) = field? field session := by
  unfold withLoadedRow
  dsimp only
  split_ifs
  · rw [field?_withLoadedWorktreeTab htabs, field?_withLoadedTab htab,
      field?_withLoadedLayout hlayouts, field?_setEntry_of_ne hrows]
  · rw [field?_withLoadedLayout hlayouts, field?_setEntry_of_ne hrows]

theorem rowFields_ne : (tabsByWorktree ≠ terminalLayoutsByTabId ∧ tabsByWorktree ≠ activeTabId ∧
    tabsByWorktree ≠ activeTabIdByWorktree) ∧ (terminalLayoutsByTabId ≠ activeTabId ∧
      terminalLayoutsByTabId ≠ activeTabIdByWorktree) ∧ activeTabId ≠ activeTabIdByWorktree := by
  decide +kernel

theorem tabsByWorktree_ne_layouts : tabsByWorktree ≠ terminalLayoutsByTabId := rowFields_ne.1.1
theorem tabsByWorktree_ne_tab : tabsByWorktree ≠ activeTabId := rowFields_ne.1.2.1
theorem tabsByWorktree_ne_tabs : tabsByWorktree ≠ activeTabIdByWorktree := rowFields_ne.1.2.2
theorem layouts_ne_tab : terminalLayoutsByTabId ≠ activeTabId := rowFields_ne.2.1.1
theorem layouts_ne_tabs : terminalLayoutsByTabId ≠ activeTabIdByWorktree := rowFields_ne.2.1.2
theorem tab_ne_tabs : activeTabId ≠ activeTabIdByWorktree := rowFields_ne.2.2

theorem rows_withLoadedRow : entryOf (withLoadedRow loaded session row) tabsByWorktree other =
      if other = row.1 then
        some (.array ((loadedRows loaded row.1 row.2
          (asList (entryOf session tabsByWorktree row.1))).map .object))
      else entryOf session tabsByWorktree other := by
  rw [← entryOf_setEntry]
  refine entryOf_congr ?_
  unfold withLoadedRow
  dsimp only
  split_ifs
  · rw [field?_withLoadedWorktreeTab tabsByWorktree_ne_tabs,
      field?_withLoadedTab tabsByWorktree_ne_tab,
      field?_withLoadedLayout tabsByWorktree_ne_layouts]
  · rw [field?_withLoadedLayout tabsByWorktree_ne_layouts]

theorem layouts_withLoadedRow (hne : other ≠ row.2) :
    entryOf (withLoadedRow loaded session row) terminalLayoutsByTabId other =
      entryOf session terminalLayoutsByTabId other := by
  have hlayout (session : Fields N) (key : Text) (value : Option (Json N)) :
      entryOf (withLoadedLayout loaded row.2 (setEntry tabsByWorktree key value session))
        terminalLayoutsByTabId other = entryOf session terminalLayoutsByTabId other := by
    rw [entryOf_withLoadedLayout hne]
    exact entryOf_congr (field?_setEntry_of_ne (Ne.symm tabsByWorktree_ne_layouts))
  refine Eq.trans (entryOf_congr ?_) (hlayout session row.1 (some (.array ((loadedRows loaded row.1
    row.2 (asList (entryOf session tabsByWorktree row.1))).map .object))))
  unfold withLoadedRow
  dsimp only
  split_ifs
  · rw [field?_withLoadedWorktreeTab layouts_ne_tabs, field?_withLoadedTab layouts_ne_tab]
  · rfl

theorem activeTabId_withLoadedRow :
    field? activeTabId (withLoadedRow loaded session row) = field? activeTabId session ∨
      string? (field? activeTabId session) = some row.2 ∧
        field? activeTabId (withLoadedRow loaded session row) = field? activeTabId loaded := by
  have hearlier (key : Text) (value : Option (Json N)) :
      field? activeTabId (withLoadedLayout loaded row.2
        (setEntry tabsByWorktree key value session)) = field? activeTabId session := by
    rw [field?_withLoadedLayout (Ne.symm layouts_ne_tab),
      field?_setEntry_of_ne (Ne.symm tabsByWorktree_ne_tab)]
  unfold withLoadedRow
  dsimp only
  split_ifs
  · rw [field?_withLoadedWorktreeTab tab_ne_tabs]
    simpa only [hearlier] using @activeTabId_withLoadedTab N loaded
      (withLoadedLayout loaded row.2 (setEntry tabsByWorktree row.1 _ session)) row.2
  · exact Or.inl (hearlier _ _)

theorem activeTab_withLoadedRow :
    entryOf (withLoadedRow loaded session row) activeTabIdByWorktree other =
        entryOf session activeTabIdByWorktree other ∨
      (other = row.1 ∧ string? (entryOf session activeTabIdByWorktree other) = some row.2) ∧
        entryOf (withLoadedRow loaded session row) activeTabIdByWorktree other =
          some ((entryOf loaded activeTabIdByWorktree other).getD .null) := by
  have hlayout (key : Text) (value : Option (Json N)) :
      entryOf (withLoadedLayout loaded row.2 (setEntry tabsByWorktree key value session))
        activeTabIdByWorktree other = entryOf session activeTabIdByWorktree other := by
    refine entryOf_congr ?_
    rw [field?_withLoadedLayout (Ne.symm layouts_ne_tabs),
      field?_setEntry_of_ne (Ne.symm tabsByWorktree_ne_tabs)]
  have hearlier (key : Text) (value : Option (Json N)) :
      entryOf (withLoadedTab loaded row.2 (withLoadedLayout loaded row.2
        (setEntry tabsByWorktree key value session))) activeTabIdByWorktree other =
          entryOf session activeTabIdByWorktree other := by
    rw [← hlayout key value]
    exact entryOf_congr (field?_withLoadedTab (Ne.symm tab_ne_tabs))
  unfold withLoadedRow
  dsimp only
  split_ifs
  · simpa only [hearlier] using @activeTab_withLoadedWorktreeTab N loaded
      (withLoadedTab loaded row.2 (withLoadedLayout loaded row.2
        (setEntry tabsByWorktree row.1 _ session))) other row.1 row.2
  · exact Or.inl (hlayout _ _)

theorem recordId_loadedRow {found : Fields N} (hfound : loadedRow loaded key tabId = some found) :
    recordId found = some tabId := by
  rw [loadedRow] at hfound
  simpa using find?_some hfound

theorem loadedRows_cons (first : Fields N) (rest : List (Fields N)) :
    loadedRows loaded key tabId (first :: rest) =
      (if recordId first ≠ some tabId then [first] else (loadedRow loaded key tabId).toList) ++
        loadedRows loaded key tabId rest := flatMap_cons

theorem without_loadedRows (list : List (Fields N)) :
    without recordId (· = some tabId) (loadedRows loaded key tabId list) =
      without recordId (· = some tabId) list := by
  induction list with
  | nil => rfl
  | cons first rest ih =>
    rw [loadedRows_cons, without_append, ih, without_cons]
    by_cases hid : recordId first = some tabId
    · rw [if_neg (not_not_intro hid), if_pos (decide_eq_true hid)]
      cases hfound : loadedRow loaded key tabId with
      | none => rfl
      | some found =>
        rw [Option.toList_some, without_cons, if_pos (decide_eq_true (recordId_loadedRow hfound))]
        rfl
    · rw [if_pos hid, without_cons, if_neg (by simpa using hid), if_neg (by simpa using hid)]
      rfl

theorem ids_loadedRows_sublist (list : List (Fields N)) :
    ((loadedRows loaded key tabId list).map recordId).Sublist (list.map recordId) := by
  induction list with
  | nil => exact List.Sublist.slnil
  | cons first rest ih =>
    rw [loadedRows_cons, map_append, map_cons]
    split_ifs with hid
    · exact ih.cons_cons _
    · have hid : recordId first = some tabId := by simpa using hid
      cases hfound : loadedRow loaded key tabId with
      | none => exact ih.cons _
      | some found =>
        rw [hid, ← recordId_loadedRow hfound]
        exact ih.cons_cons _

def isAdopted (rows : List (Text × Text)) (key : Text) (id : Option Text) : Bool :=
  id.any fun tabId => (key, tabId) ∈ rows

/-- A session where only some legacy rows are in their loaded form. -/
structure Adopts (loaded stored : Fields N) (rows : List (Text × Text)) (adopted : Fields N) :
    Prop where
  others : ∀ field, field ∉ rowFields → field? field adopted = field? field stored
  worktrees : ∀ key, (∀ tabId, (key, tabId) ∉ rows) →
    entryOf adopted tabsByWorktree key = entryOf stored tabsByWorktree key
  otherRows : ∀ key,
    without recordId (isAdopted rows key) (asList (entryOf adopted tabsByWorktree key)) =
      without recordId (isAdopted rows key) (asList (entryOf stored tabsByWorktree key))
  layouts : ∀ tabId, (∀ key, (key, tabId) ∉ rows) →
    entryOf adopted terminalLayoutsByTabId tabId = entryOf stored terminalLayoutsByTabId tabId
  activeTab : field? activeTabId adopted = field? activeTabId stored ∨
    (∃ key tabId, (key, tabId) ∈ rows ∧ string? (field? activeTabId stored) = some tabId) ∧
      field? activeTabId adopted = field? activeTabId loaded
  activeTabs : ∀ key,
    entryOf adopted activeTabIdByWorktree key = entryOf stored activeTabIdByWorktree key ∨
      (∃ tabId, (key, tabId) ∈ rows ∧
        string? (entryOf stored activeTabIdByWorktree key) = some tabId) ∧
        entryOf adopted activeTabIdByWorktree key =
          some ((entryOf loaded activeTabIdByWorktree key).getD .null)

theorem Adopts.nil : Adopts loaded stored [] stored where
  others _ _ := rfl
  worktrees _ _ := rfl
  otherRows _ := rfl
  layouts _ _ := rfl
  activeTab := Or.inl rfl
  activeTabs _ := Or.inl rfl

/-- One more row is stored in its loaded form. -/
theorem Adopts.concat (hadopts : Adopts loaded stored rows session) :
    Adopts loaded stored (rows ++ [row]) (withLoadedRow loaded session row) := by
  have hlast : row ∈ rows ++ [row] := mem_append_right _ mem_cons_self
  have hmore : ∀ earlier ∈ rows, earlier ∈ rows ++ [row] := fun _ => mem_append_left _
  refine
    { others := fun field hfield => ?_
      worktrees := fun key hkey => ?_
      otherRows := fun key => ?_
      layouts := fun tabId htab => ?_
      activeTab := ?_
      activeTabs := fun key => ?_ }
  · simp only [rowFields, mem_cons, not_mem_nil, or_false, not_or] at hfield
    rw [field?_withLoadedRow hfield.1 hfield.2.1 hfield.2.2.1 hfield.2.2.2]
    exact hadopts.others field (by simpa [rowFields] using hfield)
  · have hne : key ≠ row.1 := by
      rintro rfl
      exact hkey row.2 hlast
    rw [rows_withLoadedRow, if_neg hne]
    exact hadopts.worktrees key fun tabId hmem => hkey tabId (hmore _ hmem)
  · have hearlier := @without_mono _ _ _ _ _ _ (isAdopted (rows ++ [row]) key)
      (fun id hid => ?_) (hadopts.otherRows key)
    · rw [← hearlier, rows_withLoadedRow]
      split_ifs with hkey
      · subst hkey
        rw [asList_array]
        refine without_mono (fun id hid => ?_) (without_loadedRows _)
        obtain rfl : id = some row.2 := by simpa using hid
        simp [isAdopted]
      · rfl
    · cases id with
      | none => cases hid
      | some tabId => simpa [isAdopted] using Or.inl (by simpa [isAdopted] using hid)
  · have hne : tabId ≠ row.2 := by
      rintro rfl
      exact htab row.1 hlast
    rw [layouts_withLoadedRow hne]
    exact hadopts.layouts tabId fun key hmem => htab key (hmore _ hmem)
  · rcases hadopts.activeTab with hstays | ⟨⟨key, tabId, hmem, hnamed⟩, hloaded⟩
    · rcases @activeTabId_withLoadedRow N loaded session row with
        hsame | ⟨hnamed, hloaded⟩
      · exact Or.inl (hsame.trans hstays)
      · rw [hstays] at hnamed
        exact Or.inr ⟨⟨row.1, row.2, hlast, hnamed⟩, hloaded⟩
    · refine Or.inr ⟨⟨key, tabId, hmore _ hmem, hnamed⟩, ?_⟩
      rcases @activeTabId_withLoadedRow N loaded session row with
        hsame | ⟨_, hlater⟩
      · exact hsame.trans hloaded
      · exact hlater
  · rcases hadopts.activeTabs key with hstays | ⟨⟨tabId, hmem, hnamed⟩, hloaded⟩
    · rcases @activeTab_withLoadedRow N loaded session row key with hsame |
        ⟨⟨hkey, hnamed⟩, hloaded⟩
      · exact Or.inl (hsame.trans hstays)
      · rw [hstays] at hnamed
        exact Or.inr ⟨⟨row.2, hkey ▸ hlast, hnamed⟩, hloaded⟩
    · refine Or.inr ⟨⟨tabId, hmore _ hmem, hnamed⟩, ?_⟩
      rcases @activeTab_withLoadedRow N loaded session row key with hsame | ⟨_, hlater⟩
      · exact hsame.trans hloaded
      · exact hlater

theorem adopts_foldl (later : List (Text × Text)) (hadopts : Adopts loaded stored rows session) :
    Adopts loaded stored (rows ++ later) (later.foldl (withLoadedRow loaded) session) := by
  induction later generalizing rows session with
  | nil =>
    rw [append_nil]
    exact hadopts
  | cons row rest ih =>
    rw [append_cons, foldl_cons]
    exact ih hadopts.concat

theorem adoptTouchedFoldedRows_adopts (stored patched loaded : Fields N) :
    Adopts loaded stored (touchedFoldedRows stored patched)
      (adoptTouchedFoldedRows stored patched loaded) := adopts_foldl _ Adopts.nil

theorem listFields_eq_none {ownerIsMain : Bool} (hfield : field ∈ rowFields)
    (hne : field ≠ tabsByWorktree) : listFields (N := N) ownerIsMain field = none := by
  have hnone : ∀ field ∈ rowFields, field ≠ tabsByWorktree →
      field ∉ [tabsByWorktree, Text.ofString "unifiedTabs", Text.ofString "tabGroups",
        Text.ofString "browserTabsByWorktree"] ∧ field ≠ openFilesByWorktree := by
    decide +kernel
  rw [listFields, if_neg (hnone field hfield hne).1, if_neg (hnone field hfield hne).2]

theorem repeatsNoId_withLoadedRow {ownerIsMain : Bool} (hkeyed : RepeatsNoId ownerIsMain session) :
    RepeatsNoId ownerIsMain (withLoadedRow loaded session row) := by
  intro field idOf hfield key
  rcases eq_or_ne field tabsByWorktree with rfl | hne
  · have hidOf : listFields ownerIsMain tabsByWorktree = some (recordId (N := N)) :=
      if_pos mem_cons_self
    obtain rfl := Option.some.inj (hidOf.symm.trans hfield)
    change IsKeyed recordId (asList (entryOf (withLoadedRow loaded session row) tabsByWorktree key))
    rw [rows_withLoadedRow]
    split_ifs with hkey
    · rw [asList_array]
      exact (hkeyed tabsByWorktree recordId hfield row.1).sublist (ids_loadedRows_sublist _)
    · exact hkeyed tabsByWorktree recordId hfield key
  · have hother : field ∉ rowFields := fun hmem => by
      rw [listFields_eq_none hmem hne] at hfield
      cases hfield
    simp only [rowFields, mem_cons, not_mem_nil, or_false, not_or] at hother
    rw [field?_withLoadedRow hne hother.2.1 hother.2.2.1 hother.2.2.2]
    exact hkeyed field idOf hfield key

theorem repeatsNoId_foldl {ownerIsMain : Bool} (later : List (Text × Text))
    (hkeyed : RepeatsNoId ownerIsMain session) :
    RepeatsNoId ownerIsMain (later.foldl (withLoadedRow loaded) session) := by
  induction later generalizing session with
  | nil => exact hkeyed
  | cons row rest ih => exact ih (repeatsNoId_withLoadedRow hkeyed)

end Folded

section Stored

theorem isTouched_self (stored : Fields N) (canonical : CanonicalPtyOwners) (key : Text)
    (row : Fields N) : isTouched stored stored canonical key row = false := by
  rw [isTouched, any_eq_false]
  intro tabId _
  simp

theorem touchedFoldedRows_self (stored : Fields N) : touchedFoldedRows stored stored = [] := by
  simp [touchedFoldedRows, isTouched_self]

variable [DecidableEq N] [Zero N] {ownerIsMain : Bool}

theorem patchRecords_of_same (hsame : sameJson (.object before) (.object after) = true) :
    patchRecords ownerIsMain stored before after = stored := by
  rw [patchRecords, changedKeys_eq_nil hsame]
  rfl

theorem patchStoredSession_of_same (hsame : sameJson (.object before) (.object after) = true) :
    patchStoredSession ownerIsMain stored before after = stored := by
  rw [patchStoredSession, patchRecords_of_same hsame]
  exact if_pos (touchedFoldedRows_self stored)

theorem patchStoredSession_eq : patchStoredSession ownerIsMain stored before after =
    patchRecords ownerIsMain (adoptTouchedFoldedRows stored
      (patchRecords ownerIsMain stored before after) before) before after := by
  rw [patchStoredSession]
  split_ifs with hnone
  · rw [adoptTouchedFoldedRows, hnone]
    rfl
  · rfl

/-- A patched session is the stored one, some folded legacy rows in their loaded
form, with only what the command changed written onto it. -/
theorem patchStoredSession_patches
    (hnamed : ∀ session ∈ [stored, before, after], HasIds ownerIsMain session)
    (hstored : RepeatsNoId ownerIsMain stored) (hafter : RepeatsNoId ownerIsMain after) :
    (sameJson (.object before) (.object after) = true →
      patchStoredSession ownerIsMain stored before after = stored) ∧
    ∃ rows adopted, rows = touchedFoldedRows stored (patchRecords ownerIsMain stored before after) ∧
      Adopts before stored rows adopted ∧
      Patches ownerIsMain adopted before after
        (patchStoredSession ownerIsMain stored before after) := by
  refine ⟨patchStoredSession_of_same, _, _, rfl, adoptTouchedFoldedRows_adopts stored _ before, ?_⟩
  rw [patchStoredSession_eq]
  exact patchRecords_patches (hnamed after (by simp)) (repeatsNoId_foldl _ hstored) hafter

end Stored

section Samples

def worktree : Text := Text.ofString "w"

def string (value : String) : Json ℕ := .string (Text.ofString value)

def tab (id : String) (sortOrder : ℕ) : Fields ℕ :=
  [(Text.ofString "id", string id), (Text.ofString "sortOrder", .number sortOrder)]

def listed (list : List (Fields ℕ)) : Fields ℕ :=
  [(tabsByWorktree, .object [(worktree, .array (list.map .object))])]

theorem records_of_lists {session : Fields ℕ} {P : Text → List (Fields ℕ) → Prop}
    (hnone : ∀ field, P field [])
    (hlists : ∀ map ∈ session, ∀ list ∈ asJson (some map.2), P map.1 (asList (some list.2)))
    (field key : Text) : P field (asList (entryOf session field key)) := by
  rw [entryOf]
  cases hmap : field? field session with
  | none => exact hnone field
  | some map =>
    cases hlist : field? key (asJson (some map)) with
    | none => exact hnone field
    | some list => exact hlists _ (mem_of_field? hmap) _ (mem_of_field? hlist)

theorem repeatsNoId_of_lists {ownerIsMain : Bool} {session : Fields ℕ}
    (hlists : ∀ map ∈ session, ∀ list ∈ asJson (some map.2),
      ∀ idOf ∈ listFields ownerIsMain map.1, IsKeyed idOf (asList (some list.2))) :
    RepeatsNoId ownerIsMain session := fun field idOf hfield key =>
  @records_of_lists session (fun field records => ∀ idOf ∈ listFields ownerIsMain field,
    IsKeyed idOf records) (fun _ _ _ => nodup_nil) hlists field key idOf hfield

theorem hasIds_of_lists {ownerIsMain : Bool} {session : Fields ℕ}
    (hlists : ∀ map ∈ session, ∀ list ∈ asJson (some map.2),
      ∀ record ∈ asList (some list.2), HasId ownerIsMain map.1 record) :
    HasIds ownerIsMain session := fun field key =>
  @records_of_lists session (fun field records => ∀ record ∈ records,
    HasId ownerIsMain field record) (fun _ _ hrecord => absurd hrecord not_mem_nil) hlists
    field key

/-- A terminal row, and a file open on a runtime that may be another. -/
def opened (tabs : List (Fields ℕ)) (environment : String) : Fields ℕ :=
  listed tabs ++ [(openFilesByWorktree, .object [(worktree, .array [.object
    [(Text.ofString "filePath", string "/é 𝄞"),
      (Text.ofString "runtimeEnvironmentId", string environment)]])])]

instance {ownerIsMain : Bool} {field : Text} {record : Fields ℕ} :
    Decidable (HasId ownerIsMain field record) :=
  inferInstanceAs (Decidable (_ = _ → _ = _ → _ = _))

theorem patchStoredSession_patches_sample :
    let stored := opened [tab "a" 1, tab "b" 5] " r "
    let before := opened [tab "a" 1, tab "c" 2] "r"
    let after := opened [tab "c" 1] "s"
    (sameJson (.object before) (.object after) = true →
      patchStoredSession true stored before after = stored) ∧
    ∃ rows adopted, rows = touchedFoldedRows stored (patchRecords true stored before after) ∧
      Adopts before stored rows adopted ∧
      Patches true adopted before after (patchStoredSession true stored before after) := by
  intro stored before after
  refine patchStoredSession_patches (fun session hsession => hasIds_of_lists ?_)
    (repeatsNoId_of_lists ?_) (repeatsNoId_of_lists ?_)
  · revert session
    decide +kernel
  · decide +kernel
  · decide +kernel

def rowIds (session : Fields ℕ) : List (Option Text) :=
  (asList (entryOf session tabsByWorktree worktree)).map recordId

def id? (id : String) : Option Text := some (Text.ofString id)

def row (id ptyId : String) : Fields ℕ :=
  [(Text.ofString "id", string id), (Text.ofString "ptyId", string ptyId)]

def withTabBar (selected : String) (rows : List (Fields ℕ)) : Fields ℕ :=
  listed rows ++
    [(unifiedTabs, .object [(worktree, .array [.object [(Text.ofString "id", string "u"),
      (Text.ofString "contentType", string "terminal"),
      (Text.ofString "entityId", string "t")]])]),
    (activeTabId, string selected)]

def laidOut (tabId : String) : Fields ℕ :=
  [(terminalLayoutsByTabId, .object [(Text.ofString tabId, .object [])])]

/-- A record the command only renumbered is not written where the stored list
lacks it; a list with an id twice crowds another record out; a map that comes up
whole loses its stored records; and a selection that named a folded row moves. -/
theorem patch_touches_more : (rowIds (listed []) = [] ∧
      rowIds (patchStoredSession false (listed []) (listed [tab "a" 1]) (listed [tab "a" 0])) =
        []) ∧
    rowIds (patchStoredSession false (listed [tab "a" 1, tab "b" 2])
      (listed [tab "a" 1, tab "b" 2]) (listed [tab "a" 1, tab "a" 3, tab "b" 2])) =
        [id? "a", id? "a"] ∧
    (entryOf (laidOut "a") terminalLayoutsByTabId (Text.ofString "a")).isSome ∧
    (entryOf (patchStoredSession false (laidOut "a") [] (laidOut "b")) terminalLayoutsByTabId
      (Text.ofString "a")).isNone ∧
    string? (field? activeTabId (patchStoredSession false
      (withTabBar "legacy" [row "t" "p", row "legacy" "p"]) (withTabBar "t" [row "t" "p"])
      (withTabBar "t" [row "t" "q"]))) = id? "t" := by
  decide +kernel

end Samples

end Wakii.SessionPatch
