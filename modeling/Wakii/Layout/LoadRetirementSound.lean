import Wakii.Layout.RetiringWorkspaceSound

/-!
# Retiring over one index

The index stands for the model that retiring one pane at a time leaves: the
first slot of a row that still shows it is where the row is found.
-/

namespace Wakii.LayoutLoad

open Option List OrderedCollections SplitTrees OrderedMap
open Wakii.CommandSteps Wakii.LayoutModel

variable {P : Type} {model : WorkspaceLayoutModel P} {state : Retirement P} {edit : LayoutEdit P}
  {entityId key : String}

namespace Retirement

def slotsOf (state : Retirement P) (entityId : String) : List (TerminalSlot P) :=
  ((state.entities.lookup entityId).map (·.slots)).getD []

def cursorOf (state : Retirement P) (entityId : String) : ℕ :=
  ((state.entities.lookup entityId).map (·.cursor)).getD 0

def placeOf (slot : TerminalSlot P) : String × LayoutTerminalTab P :=
  (slot.workspaceKey, slot.tab)

/-- The workspaces of the index stand for those of the layout under edit. -/
structure Covers (model : WorkspaceLayoutModel P) (state : Retirement P)
    (edit : LayoutEdit P) : Prop where
  frame : edit.model.hostId = model.hostId ∧ edit.model.records = model.records ∧
    edit.model.legacy = model.legacy
  keys : state.workspaces.keys = model.workspaces.keys
  editKeys : edit.model.workspaces.keys = model.workspaces.keys
  each : ∀ key original, model.workspaces.lookup key = some original →
    ∃ workspace now, state.workspaces.lookup key = some workspace ∧
      edit.workspace? key = some now ∧ workspace.original = original ∧
      workspace.Retires now ∧ (key ∈ edit.written ↔ workspace.changed = true)

/-- The slots before a cursor are gone for good; a cohort that took a tab's place
is under the cursor of its row. -/
structure Indexed (model : WorkspaceLayoutModel P) (state : Retirement P) : Prop where
  slots : ∀ entityId, (state.slotsOf entityId).map placeOf =
    ((tabPlaces model).filterMap terminalPlace).filter (·.2.entityId = entityId)
  walked : ∀ entityId, ∀ slot ∈ state.slotsOf entityId, ∀ panes ∈ slot.panes,
    panes.Known ∧ panes.root = slot.tab.panes.root ∧ panes.removed = []
  passed : ∀ entityId, ∀ slot ∈ (state.slotsOf entityId).take (state.cursorOf entityId),
    state.admits entityId slot = false
  current : ∀ key tabId, (state.cohortOf key tabId).dead = false →
    ∀ template ∈ (state.cohortOf key tabId).template, ∃ slot,
      (state.slotsOf template.entityId)[state.cursorOf template.entityId]? = some slot ∧
        slot.workspaceKey = key ∧ slot.tab.id = tabId

/-! ## Where a row is found -/

def found (state : Retirement P) (edit : LayoutEdit P) (entityId : String)
    (place : String × LayoutTab P) : Option (TerminalTabLocation P) := do
  let now ← edit.workspace? place.1
  let shown ← (state.cohortOf place.1 place.2.id).shownTab place.2
  let tab ← (asTerminal shown).filter (·.entityId = entityId)
  return ⟨place.1, now, tab⟩

theorem Covers.findTerminalTab (hcovers : Covers model state edit) (entityId : String) :
    findTerminalTab edit.model entityId =
      (tabPlaces model).findSome? (state.found edit entityId) := by
  rw [CommandSteps.findTerminalTab, tabPlaces, ← head?_filterMap, ← head?_filterMap,
    filterMap_flatMap]
  have hflat : ∀ pairs : List (String × WorkspaceLayout P),
      (pairs.filterMap fun entry => (entry.2.tabs.findSome? fun tab =>
        (asTerminal tab).filter (·.entityId = entityId)).map fun tab =>
          (⟨entry.1, entry.2, tab⟩ : TerminalTabLocation P)).head? =
        (pairs.flatMap fun entry => (entry.2.tabs.filterMap fun tab =>
          (asTerminal tab).filter (·.entityId = entityId)).map fun tab =>
            (⟨entry.1, entry.2, tab⟩ : TerminalTabLocation P)).head? := by
    intro pairs
    rw [head?_filterMap, head?_flatMap]
    simp only [head?_map, head?_filterMap]
  rw [hflat, flatMap_pairs, flatMap_pairs, hcovers.editKeys]
  congr 1
  refine flatMap_congr fun key hkey => ?_
  obtain ⟨original, horiginal⟩ := isSome_iff_exists.mp
    (AList.lookup_isSome.mpr (AList.mem_keys.mpr hkey))
  obtain ⟨workspace, now, hworkspace, hnow, rfl, hretires, -⟩ := hcovers.each key original horiginal
  have hlookup : edit.model.workspaces.lookup key = some now := hnow
  rw [hlookup, horiginal, map_some, map_some, getD_some, getD_some,
    filterMap_map, hretires.tabs, filterMap_filterMap, map_filterMap]
  refine filterMap_congr fun tab _ => ?_
  rw [Function.comp_apply, found, hnow, cohortOf, hworkspace]
  simp only [map_some, getD_some, bind_eq_bind, bind_some]
  cases (workspace.cohort tab.id).shownTab tab with
  | none => rfl
  | some shown =>
    simp only [bind_some]
    cases (asTerminal shown).filter (·.entityId = entityId) <;> rfl

/-- A place shows the row with its own tab, or with the tab that took its place. -/
theorem found_eq_some {place : String × LayoutTab P} {location : TerminalTabLocation P}
    (hfound : state.found edit entityId place = some location) :
    ∃ now, edit.workspace? place.1 = some now ∧ (state.cohortOf place.1 place.2.id).dead = false ∧
      (((state.cohortOf place.1 place.2.id).template = none ∧ ∃ tab, place.2 = .terminal tab ∧
        tab.entityId = entityId ∧ location = ⟨place.1, now, tab⟩) ∨
      ∃ template, (state.cohortOf place.1 place.2.id).template = some template ∧
        template.entityId = entityId ∧
        location = ⟨place.1, now, (state.cohortOf place.1 place.2.id).currentTab template⟩) := by
  rw [found] at hfound
  obtain ⟨now, hnow, hfound⟩ := bind_eq_some_iff.mp hfound
  obtain ⟨shown, hshown, hfound⟩ := bind_eq_some_iff.mp hfound
  obtain ⟨tab, htab, hlocation⟩ := bind_eq_some_iff.mp hfound
  obtain ⟨hterminal, hentity⟩ := filter_eq_some_iff.mp htab
  cases hlocation
  rw [Cohort.shownTab] at hshown
  split_ifs at hshown with hdead
  refine ⟨now, hnow, Bool.eq_false_iff.mpr hdead, ?_⟩
  split at hshown
  · rename_i hnone
    cases hshown
    refine Or.inl ⟨hnone, tab, ?_, of_decide_eq_true hentity, rfl⟩
    cases hplace : place.2 with
    | terminal other =>
      rw [hplace] at hterminal
      cases hterminal
      rfl
    | content other =>
      rw [hplace] at hterminal
      cases hterminal
  · rename_i template htemplate
    cases hshown
    cases hterminal
    refine Or.inr ⟨template, htemplate, ?_, rfl⟩
    have := of_decide_eq_true hentity
    rwa [Cohort.currentTab, htemplate] at this

theorem admits_eq {slot : TerminalSlot P} : state.admits entityId slot = true ↔
      (state.cohortOf slot.workspaceKey slot.tab.id).dead = false ∧
        ∀ template ∈ (state.cohortOf slot.workspaceKey slot.tab.id).template,
          template.entityId = entityId := by
  rw [admits, Bool.and_eq_true, Bool.not_eq_true', Option.all_eq_true]
  simp

theorem Indexed.exists_slot (hindexed : Indexed model state) {place : String × LayoutTab P}
    {tab : LayoutTerminalTab P} (hplace : place ∈ tabPlaces model)
      (htab : place.2 = .terminal tab) :
    ∃ slot ∈ state.slotsOf tab.entityId, placeOf slot = (place.1, tab) := by
  have hmem : (place.1, tab) ∈ (state.slotsOf tab.entityId).map placeOf := by
    rw [hindexed.slots, mem_filter]
    refine ⟨mem_filterMap.mpr ⟨place, hplace, ?_⟩, decide_eq_true rfl⟩
    rw [terminalPlace, htab]
    rfl
  exact mem_map.mp hmem

theorem findTerminalTab_eq_none (hcovers : Covers model state edit) (hindexed : Indexed model state)
    (hslot : (state.slotsOf entityId)[state.cursorOf entityId]? = none) :
    findTerminalTab edit.model entityId = none := by
  rw [hcovers.findTerminalTab, findSome?_eq_none_iff]
  intro place hplace
  rw [eq_none_iff_forall_not_mem]
  intro location hfound
  obtain ⟨now, -, halive, ⟨hnone, tab, htab, rfl, -⟩ | ⟨template, htemplate, rfl, -⟩⟩ :=
    found_eq_some hfound
  · obtain ⟨slot, hmem, hslotPlace⟩ := hindexed.exists_slot hplace htab
    have hpassed := hindexed.passed tab.entityId slot
    rw [take_of_length_le (getElem?_eq_none_iff.mp hslot)] at hpassed
    have hid : place.2.id = tab.id := by rw [htab]; rfl
    have hadmits : state.admits tab.entityId slot = true := by
      obtain ⟨hkey, hslotTab⟩ := Prod.mk.inj hslotPlace
      rw [admits_eq, hkey, hslotTab, ← hid]
      exact ⟨halive, fun template h => by rw [hnone] at h; cases h⟩
    rw [hpassed hmem] at hadmits
    cases hadmits
  · obtain ⟨slot, hcurrent, -⟩ := hindexed.current _ _ halive template htemplate
    rw [hslot] at hcurrent
    cases hcurrent

theorem findSome?_of_first {A B : Type*} {f : A → Option B} {before after : List A} {first : A}
    {result : B} (hfirst : f first = some result)
    (hbefore : ∀ other ∈ before, ∀ shown, f other = some shown → shown = result) :
    (before ++ first :: after).findSome? f = some result := by
  rw [findSome?_append]
  cases hfound : before.findSome? f with
  | none => rw [none_or, findSome?_cons, hfirst]
  | some shown =>
    obtain ⟨left, other, right, rfl, hother, -⟩ := findSome?_eq_some_iff.mp hfound
    rw [hbefore other (mem_append_right _ mem_cons_self) shown hother, some_or]

/-- The layout shows the entity's terminal where its cursor stands. -/
theorem findTerminalTab_eq_some (hcovers : Covers model state edit)
    (hindexed : Indexed model state) {slot : TerminalSlot P}
    (hslot : (state.slotsOf entityId)[state.cursorOf entityId]? = some slot)
    (hadmits : state.admits entityId slot = true) :
    ∃ now, edit.workspace? slot.workspaceKey = some now ∧
      findTerminalTab edit.model entityId = some ⟨slot.workspaceKey, now,
        (state.cohortOf slot.workspaceKey slot.tab.id).currentTab slot.tab⟩ := by
  obtain ⟨halive, htemplates⟩ := admits_eq.mp hadmits
  generalize hcohort : state.cohortOf slot.workspaceKey slot.tab.id = cohort at *
  have hsplit : (state.slotsOf entityId).map placeOf =
      ((state.slotsOf entityId).take (state.cursorOf entityId)).map placeOf ++
        placeOf slot ::
          ((state.slotsOf entityId).drop (state.cursorOf entityId + 1)).map placeOf := by
    rw [← map_cons, ← map_append]
    congr 1
    obtain ⟨hless, hget⟩ := List.getElem?_eq_some_iff.mp hslot
    rw [← hget, List.getElem_cons_drop, List.take_append_drop]
  rw [hindexed.slots, List.filter_filterMap] at hsplit
  obtain ⟨earlier, later, hplaces, hearlier, hlater⟩ := filterMap_eq_append_iff.mp hsplit
  obtain ⟨skipped, place, after, rfl, hskipped, hplace, -⟩ := filterMap_eq_cons_iff.mp hlater
  obtain ⟨hterminal, hentity⟩ := filter_eq_some_iff.mp hplace
  obtain ⟨tab, htab, hplaceOf⟩ := map_eq_some_iff.mp hterminal
  obtain ⟨hkey, htabEq⟩ := Prod.mk.inj hplaceOf
  have hrow : slot.tab.entityId = entityId := of_decide_eq_true hentity
  have hplaceTab : place.2 = .terminal slot.tab := by
    rw [← htabEq]
    cases hother : place.2 with
    | terminal other =>
      rw [hother] at htab
      cases htab
      rfl
    | content other =>
      rw [hother] at htab
      cases htab
  have hmem : place ∈ tabPlaces model := by
    rw [hplaces]
    exact mem_append_right _ (mem_append_right _ mem_cons_self)
  obtain ⟨now, hnow⟩ : ∃ now, edit.workspace? place.1 = some now := by
    obtain ⟨entry, hentry, hin⟩ := mem_flatMap.mp hmem
    obtain ⟨other, -, rfl⟩ := mem_map.mp hin
    obtain ⟨workspace, now, -, hnow, -⟩ := hcovers.each entry.1 entry.2 (mem_pairs.mp hentry)
    exact ⟨now, hnow⟩
  have hcohortPlace : state.cohortOf place.1 place.2.id = cohort := by
    rw [hkey, hplaceTab]
    exact hcohort
  refine ⟨now, hkey ▸ hnow, ?_⟩
  rw [hcovers.findTerminalTab, hplaces, ← append_assoc]
  refine findSome?_of_first ?_ fun other hother location hfound => ?_
  · rw [found, hnow, hcohortPlace, hplaceTab, Cohort.shownTab,
      if_neg (by rw [halive]; exact Bool.false_ne_true)]
    rw [hkey]
    cases htemplate : cohort.template with
    | none =>
      have hcurrent : cohort.currentTab slot.tab = slot.tab := by
        rw [Cohort.currentTab, htemplate]
      rw [hcurrent]
      have hfilter : (asTerminal (.terminal slot.tab)).filter (·.entityId = entityId) =
          some slot.tab := by
        rw [asTerminal, filter_some, if_pos (decide_eq_true hrow)]
      simp only [bind_eq_bind, bind_some, hfilter]
      rfl
    | some template =>
      have hcurrent : cohort.currentTab template = cohort.currentTab slot.tab := by
        rw [Cohort.currentTab, htemplate, Cohort.currentTab, htemplate]
      have hrow : (cohort.currentTab slot.tab).entityId = entityId := by
        rw [Cohort.currentTab, htemplate]
        exact htemplates template htemplate
      have hfilter : (asTerminal (.terminal (cohort.currentTab slot.tab))).filter
          (·.entityId = entityId) = some (cohort.currentTab slot.tab) := by
        rw [asTerminal, filter_some, if_pos (decide_eq_true hrow)]
      simp only [bind_eq_bind, bind_some, hcurrent, hfilter]
      rfl
  · obtain ⟨otherNow, hotherNow, hotherAlive, ⟨hnone, otherTab, hotherTab, rfl, rfl⟩ |
      ⟨template, htemplate, rfl, rfl⟩⟩ := found_eq_some hfound
    · -- a terminal of the row that stands for itself is no earlier slot
      exfalso
      have hshows : ((terminalPlace other).filter fun shown =>
          shown.2.entityId = otherTab.entityId) = some (other.1, otherTab) := by
        rw [terminalPlace, hotherTab]
        exact if_pos (decide_eq_true rfl)
      rcases mem_append.mp hother with hin | hin
      · have hmap : (other.1, otherTab) ∈ ((state.slotsOf otherTab.entityId).take
            (state.cursorOf otherTab.entityId)).map placeOf := by
          rw [← hearlier]
          exact mem_filterMap.mpr ⟨other, hin, hshows⟩
        obtain ⟨passed, hpassed, hplacePassed⟩ := mem_map.mp hmap
        obtain ⟨hpassedKey, hpassedTab⟩ := Prod.mk.inj hplacePassed
        have hgone := hindexed.passed _ passed hpassed
        have hid : other.2.id = otherTab.id := by rw [hotherTab]; rfl
        have hstill : state.admits otherTab.entityId passed = true := by
          rw [admits_eq, hpassedKey, hpassedTab, ← hid]
          exact ⟨hotherAlive, fun template h => by rw [hnone] at h; cases h⟩
        rw [hgone] at hstill
        cases hstill
      · have hnoneSkipped := hskipped other hin
        rw [hshows] at hnoneSkipped
        cases hnoneSkipped
    · obtain ⟨current, hcurrent, hcurrentKey, hcurrentId⟩ :=
        hindexed.current _ _ hotherAlive template htemplate
      rw [hslot] at hcurrent
      cases hcurrent
      have hsame : state.cohortOf other.1 other.2.id = cohort := by
        rw [← hcurrentKey, ← hcurrentId]
        exact hcohort
      rw [hsame] at htemplate ⊢
      have hnowEq : otherNow = now := by
        rw [← hcurrentKey, ← hkey, hnow] at hotherNow
        exact (Option.some.inj hotherNow).symm
      rw [hnowEq, ← hcurrentKey, Cohort.currentTab, htemplate, Cohort.currentTab, htemplate]

/-! ## Changing the index -/

section Change

variable {workspace : RetiringWorkspace P} {change : RetiringWorkspace P → RetiringWorkspace P}

theorem lookup_modifyWorkspace (hlookup : state.workspaces.lookup key = some workspace)
    (other : String) : (state.modifyWorkspace key change).workspaces.lookup other =
      if other = key then some (change workspace) else state.workspaces.lookup other := by
  rw [modifyWorkspace, hlookup]
  exact lookup_set _ _ _ _

theorem cohortOf_modifyWorkspace (hlookup : state.workspaces.lookup key = some workspace)
    (other tabId : String) : (state.modifyWorkspace key change).cohortOf other tabId =
      if other = key then (change workspace).cohort tabId else state.cohortOf other tabId := by
  rw [cohortOf, lookup_modifyWorkspace hlookup]
  split_ifs <;> rfl

theorem entities_modifyWorkspace (state : Retirement P) (key : String)
    (change : RetiringWorkspace P → RetiringWorkspace P) :
    (state.modifyWorkspace key change).entities = state.entities ∧
      (state.modifyWorkspace key change).incarnations = state.incarnations := by
  rw [modifyWorkspace]
  split <;> exact ⟨rfl, rfl⟩

theorem Covers.congr (hcovers : Covers model state edit) {next : Retirement P}
    (hsame : next.workspaces = state.workspaces) : Covers model next edit where
  frame := hcovers.frame
  keys := hsame ▸ hcovers.keys
  editKeys := hcovers.editKeys
  each := hsame ▸ hcovers.each

theorem Covers.modify (hcovers : Covers model state edit)
    (hlookup : state.workspaces.lookup key = some workspace) {next : LayoutEdit P}
    {now : WorkspaceLayout P} (hframe : next.model.hostId = model.hostId ∧
      next.model.records = model.records ∧ next.model.legacy = model.legacy)
    (hkeys : next.model.workspaces.keys = edit.model.workspaces.keys)
    (hothers : ∀ other, other ≠ key → next.workspace? other = edit.workspace? other ∧
      (other ∈ next.written ↔ other ∈ edit.written))
    (hnow : next.workspace? key = some now) (horiginal : (change workspace).original =
      workspace.original) (hretires : (change workspace).Retires now)
    (hwritten : key ∈ next.written ↔ (change workspace).changed = true) :
    Covers model (state.modifyWorkspace key change) next where
  frame := hframe
  keys := by
    have hmem : key ∈ state.workspaces := AList.lookup_isSome.mp (by rw [hlookup]; rfl)
    rw [modifyWorkspace, hlookup, ← hcovers.keys]
    exact keys_set_of_mem _ hmem
  editKeys := hkeys.trans hcovers.editKeys
  each := by
    intro other original hother
    rw [lookup_modifyWorkspace hlookup]
    obtain ⟨before, old, hbefore, hold, horiginalBefore, hretiresBefore, hwrittenBefore⟩ :=
      hcovers.each other original hother
    split_ifs with hsame
    · rw [hsame, hlookup] at hbefore
      cases hbefore
      rw [hsame]
      exact ⟨_, now, rfl, hnow, horiginal.trans horiginalBefore, hretires, hwritten⟩
    · obtain ⟨hworkspace, hwrittenOther⟩ := hothers other hsame
      exact ⟨before, old, hbefore, hworkspace.trans hold, horiginalBefore, hretiresBefore,
        hwrittenOther.trans hwrittenBefore⟩

/-- A cohort only dies or takes a template, and only under the cursor of its row. -/
theorem Indexed.modify (hindexed : Indexed model state)
    (hlookup : state.workspaces.lookup key = some workspace)
    (hdead : ∀ tabId, (workspace.cohort tabId).dead = true →
      ((change workspace).cohort tabId).dead = true)
    (hkept : ∀ tabId, ∀ template ∈ (workspace.cohort tabId).template,
      template ∈ ((change workspace).cohort tabId).template)
    (hnew : ∀ tabId, ∀ template ∈ ((change workspace).cohort tabId).template,
      template ∈ (workspace.cohort tabId).template ∨
        ∃ slot, (state.slotsOf template.entityId)[state.cursorOf template.entityId]? = some slot ∧
          slot.workspaceKey = key ∧ slot.tab.id = tabId) :
    Indexed model (state.modifyWorkspace key change) := by
  have hentities := (entities_modifyWorkspace state key change).1
  have hslots : ∀ other, (state.modifyWorkspace key change).slotsOf other = state.slotsOf other :=
    fun other => by rw [slotsOf, hentities, slotsOf]
  have hcursor : ∀ other, (state.modifyWorkspace key change).cursorOf other =
      state.cursorOf other := fun other => by rw [cursorOf, hentities, cursorOf]
  have hcohort : state.cohortOf key = workspace.cohort := by
    funext tabId
    rw [cohortOf, hlookup]
    rfl
  refine ⟨fun other => ?_, fun other => ?_, fun other slot hslot => ?_, fun other tabId => ?_⟩
  · rw [hslots]
    exact hindexed.slots other
  · rw [hslots]
    exact hindexed.walked other
  · rw [hslots, hcursor] at hslot
    rw [← Bool.not_eq_true]
    intro hadmits
    have hgone := hindexed.passed other slot hslot
    rw [admits_eq, cohortOf_modifyWorkspace hlookup] at hadmits
    have hbefore : state.admits other slot = true := by
      rw [admits_eq]
      split_ifs at hadmits with hsame
      · rw [hsame, hcohort]
        refine ⟨?_, fun template htemplate => hadmits.2 template (hkept _ template htemplate)⟩
        rw [← Bool.not_eq_true]
        intro hgoneBefore
        rw [hdead _ hgoneBefore] at hadmits
        cases hadmits.1
      · exact hadmits
    rw [hgone] at hbefore
    cases hbefore
  · rw [cohortOf_modifyWorkspace hlookup]
    intro halive template htemplate
    rw [hslots, hcursor]
    split_ifs at halive htemplate with hsame
    · rcases hnew tabId template htemplate with hold | hslot
      · have haliveBefore : (state.cohortOf other tabId).dead = false := by
          rw [hsame, hcohort, ← Bool.not_eq_true]
          intro hgone
          rw [hdead tabId hgone] at halive
          cases halive
        refine hindexed.current other tabId haliveBefore template ?_
        rw [hsame, hcohort]
        exact hold
      · rw [hsame]
        exact hslot
    · exact hindexed.current other tabId halive template htemplate

variable {entity : TerminalEntity P}

theorem slotsOf_setEntity (state : Retirement P) (entity : TerminalEntity P) (other : String) :
    (state.setEntity entityId entity).slotsOf other =
      if other = entityId then entity.slots else state.slotsOf other := by
  rw [slotsOf, setEntity, lookup_set]
  split_ifs <;> rfl

theorem cursorOf_setEntity (state : Retirement P) (entity : TerminalEntity P) (other : String) :
    (state.setEntity entityId entity).cursorOf other =
      if other = entityId then entity.cursor else state.cursorOf other := by
  rw [cursorOf, setEntity, lookup_set]
  split_ifs <;> rfl

/-- A row whose slots stay where they are, with none passed that still shows it. -/
theorem Indexed.setEntity (hindexed : Indexed model state)
    (hslots : entity.slots.map placeOf = (state.slotsOf entityId).map placeOf)
    (hwalked : ∀ slot ∈ entity.slots, ∀ panes ∈ slot.panes,
      panes.Known ∧ panes.root = slot.tab.panes.root ∧ panes.removed = [])
    (hpassed : ∀ slot ∈ entity.slots.take entity.cursor, state.admits entityId slot = false)
    (hcurrent : ∀ slot, (state.slotsOf entityId)[state.cursorOf entityId]? = some slot →
      state.admits entityId slot = true →
        ∃ next, entity.slots[entity.cursor]? = some next ∧ placeOf next = placeOf slot) :
    Indexed model (state.setEntity entityId entity) := by
  refine ⟨fun other => ?_, fun other => ?_, fun other => ?_,
    fun other tabId halive template htemplate => ?_⟩
  · rw [slotsOf_setEntity]
    split_ifs with hother
    · rw [hslots, hother]
      exact hindexed.slots entityId
    · exact hindexed.slots other
  · rw [slotsOf_setEntity]
    split_ifs
    · exact hwalked
    · exact hindexed.walked other
  · rw [slotsOf_setEntity, cursorOf_setEntity]
    split_ifs with hother
    · rw [hother]
      exact hpassed
    · exact hindexed.passed other
  · obtain ⟨slot, hslot, hkey, hid⟩ := hindexed.current other tabId halive template htemplate
    rw [slotsOf_setEntity, cursorOf_setEntity]
    split_ifs with hrow
    · rw [hrow] at hslot
      have hadmits : state.admits entityId slot = true := by
        rw [admits_eq, hkey, hid]
        refine ⟨halive, fun other hother => ?_⟩
        change (state.cohortOf _ _).template = _ at htemplate hother
        rw [htemplate] at hother
        cases hother
        exact hrow
      obtain ⟨next, hnext, hplace⟩ := hcurrent slot hslot hadmits
      obtain ⟨hnextKey, hnextTab⟩ := Prod.mk.inj hplace
      exact ⟨next, hnext, hnextKey.trans hkey, hnextTab ▸ hid⟩
    · exact ⟨slot, hslot, hkey, hid⟩

theorem slotsOf_of_lookup (hentity : state.entities.lookup entityId = some entity) :
    state.slotsOf entityId = entity.slots ∧ state.cursorOf entityId = entity.cursor := by
  rw [slotsOf, cursorOf, hentity]
  exact ⟨rfl, rfl⟩

/-- The cursor passes the slots that no longer show the row. -/
theorem Indexed.advance (hindexed : Indexed model state)
    (hentity : state.entities.lookup entityId = some entity) :
    Indexed model (state.setEntity entityId (state.advance entityId entity)) := by
  obtain ⟨hslots, hcursor⟩ := slotsOf_of_lookup hentity
  refine hindexed.setEntity (by rw [hslots]; rfl) ?_ ?_ ?_
  · change ∀ slot ∈ entity.slots, _
    rw [← hslots]
    exact hindexed.walked entityId
  · intro slot hslot
    rw [Retirement.advance] at hslot
    dsimp only at hslot
    rw [take_add] at hslot
    rcases mem_append.mp hslot with hmem | hmem
    · refine hindexed.passed entityId slot ?_
      rw [hslots, hcursor]
      exact hmem
    · obtain ⟨index, hindex, rfl⟩ := mem_take_iff_getElem.mp hmem
      exact not_of_lt_findIdx (hindex.trans_le (min_le_left _ _))
  · intro slot hslot hadmits
    rw [hslots, hcursor] at hslot
    obtain ⟨hless, hget⟩ := List.getElem?_eq_some_iff.mp hslot
    have hdrop : entity.slots.drop entity.cursor =
        slot :: entity.slots.drop (entity.cursor + 1) := by
      rw [← hget, List.getElem_cons_drop]
    refine ⟨slot, ?_, rfl⟩
    rw [Retirement.advance, hdrop, findIdx_cons, hadmits]
    exact hslot

theorem admits_advance {slot : TerminalSlot P}
    (hslot : (state.advance entityId entity).slots[(state.advance entityId entity).cursor]? =
      some slot) : state.admits entityId slot = true := by
  rw [Retirement.advance] at hslot
  dsimp only at hslot
  rw [← List.getElem?_drop] at hslot
  obtain ⟨hless, rfl⟩ := List.getElem?_eq_some_iff.mp hslot
  exact List.findIdx_getElem

end Change

/-! ## Walking the panes of a slot -/

section Keep

variable {entity : TerminalEntity P} {slot : TerminalSlot P} {panes : RetiringPanes P}

theorem materialize_of_removed_nil (hremoved : panes.removed = []) :
    panes.materialize = panes.root := by
  rw [RetiringPanes.materialize, hremoved]
  cases panes.root with
  | none => rfl
  | some root =>
    exact SplitTree.prune_of_all fun _ _ => decide_eq_true not_mem_nil

theorem Covers.sound (hcovers : Covers model state edit) (key tabId : String) :
    (state.cohortOf key tabId).Sound tabId := by
  have hdefault : ({} : Cohort P).Sound tabId :=
    ⟨fun _ h => (by cases h), fun _ h => (by cases h), fun _ => ⟨rfl, rfl⟩, fun _ => rfl⟩
  rw [cohortOf]
  cases hlookup : state.workspaces.lookup key with
  | none => exact hdefault
  | some workspace =>
    obtain ⟨original, horiginal⟩ : ∃ original, model.workspaces.lookup key = some original := by
      refine isSome_iff_exists.mp (AList.lookup_isSome.mpr ?_)
      rw [AList.mem_keys, ← hcovers.keys, ← AList.mem_keys]
      exact AList.lookup_isSome.mp (by rw [hlookup]; rfl)
    obtain ⟨other, now, hother, -, -, hretires, -⟩ := hcovers.each key original horiginal
    rw [hlookup] at hother
    cases hother
    exact hretires.cohorts tabId

theorem panesOf_spec (hcovers : Covers model state edit) (hindexed : Indexed model state)
    (hslot : slot ∈ state.slotsOf entityId) :
    (state.panesOf slot).Known ∧ (state.panesOf slot).materialize =
      ((state.cohortOf slot.workspaceKey slot.tab.id).currentTab slot.tab).panes.root := by
  have hsound := hcovers.sound slot.workspaceKey slot.tab.id
  rw [panesOf]
  generalize state.cohortOf slot.workspaceKey slot.tab.id = cohort at *
  cases hpanes : cohort.panes with
  | some panes =>
    refine ⟨hsound.walked panes hpanes, ?_⟩
    cases htemplate : cohort.template with
    | none =>
      rw [(hsound.fresh htemplate).1] at hpanes
      cases hpanes
    | some template =>
      rw [Cohort.currentTab, htemplate, some_or, getD_some]
      dsimp only
      split_ifs <;> rw [hpanes] <;> rfl
  | none =>
    have htemplate := hsound.joined hpanes
    rw [Cohort.currentTab, htemplate, none_or, getD_none]
    cases hwalked : slot.panes with
    | some panes =>
      obtain ⟨hknown, hroot, hremoved⟩ := hindexed.walked entityId slot hslot panes hwalked
      exact ⟨hknown, (materialize_of_removed_nil hremoved).trans hroot⟩
    | none => exact ⟨RetiringPanes.known_new _, materialize_of_removed_nil rfl⟩

structure Kept (model : WorkspaceLayoutModel P) (state next : Retirement P) (edit : LayoutEdit P)
    (entityId : String) (slot : TerminalSlot P) (panes : RetiringPanes P) : Prop where
  covers : Covers model next edit
  indexed : Indexed model next
  incarnations : next.incarnations = state.incarnations
  current : ∃ other, (next.slotsOf entityId)[next.cursorOf entityId]? = some other ∧
    placeOf other = placeOf slot
  admits : next.admits entityId slot = true
  panes : panes.materialize =
    ((next.cohortOf slot.workspaceKey slot.tab.id).currentTab slot.tab).panes.root

variable (hcovers : Covers model state edit) (hindexed : Indexed model state)
  (hentity : state.entities.lookup entityId = some entity)
  (hslot : entity.slots[entity.cursor]? = some slot)
  (hadmits : state.admits entityId slot = true) (hknown : panes.Known)
  (hroot : panes.root = (state.panesOf slot).root)
  (hremoved : panes.removed = (state.panesOf slot).removed)
include hcovers hindexed hentity hslot hadmits hknown hroot hremoved

/-- A cohort that has a walk keeps it. -/
theorem kept_setCohort {walked : RetiringPanes P}
    (hwalkedEq : (state.cohortOf slot.workspaceKey slot.tab.id).panes = some walked) :
    Kept model state (state.modifyWorkspace slot.workspaceKey fun workspace =>
      workspace.setCohort slot.tab.id
        { workspace.cohort slot.tab.id with panes := some panes }) edit entityId slot panes := by
  obtain ⟨workspace, hlookup, hcohort⟩ : ∃ workspace,
      state.workspaces.lookup slot.workspaceKey = some workspace ∧
        state.cohortOf slot.workspaceKey slot.tab.id = workspace.cohort slot.tab.id := by
    rw [cohortOf] at hwalkedEq ⊢
    cases hlookup : state.workspaces.lookup slot.workspaceKey with
    | none =>
      rw [hlookup] at hwalkedEq
      cases hwalkedEq
    | some workspace => exact ⟨workspace, rfl, rfl⟩
  obtain ⟨original, horiginal⟩ : ∃ original,
      model.workspaces.lookup slot.workspaceKey = some original := by
    refine isSome_iff_exists.mp (AList.lookup_isSome.mpr ?_)
    rw [AList.mem_keys, ← hcovers.keys, ← AList.mem_keys]
    exact AList.lookup_isSome.mp (by rw [hlookup]; rfl)
  obtain ⟨other, now, hother, hnow, -, hretires, hwritten⟩ :=
    hcovers.each slot.workspaceKey original horiginal
  rw [hlookup] at hother
  cases hother
  have hpanesOf : state.panesOf slot = walked := by
    rw [panesOf]
    rw [hwalkedEq, some_or, getD_some]
  rw [hpanesOf] at hroot hremoved
  have hwalkedIn : (workspace.cohort slot.tab.id).panes = some walked := hcohort ▸ hwalkedEq
  obtain ⟨hentities, hincarnations⟩ := entities_modifyWorkspace state slot.workspaceKey
    fun workspace => workspace.setCohort slot.tab.id
      { workspace.cohort slot.tab.id with panes := some panes }
  have hafter : (state.modifyWorkspace slot.workspaceKey fun workspace =>
      workspace.setCohort slot.tab.id
        { workspace.cohort slot.tab.id with panes := some panes }).cohortOf slot.workspaceKey
          slot.tab.id = { workspace.cohort slot.tab.id with panes := some panes } := by
    rw [cohortOf_modifyWorkspace hlookup, if_pos rfl, RetiringWorkspace.cohort_setCohort,
      if_pos rfl]
  refine
    { covers := hcovers.modify hlookup hcovers.frame rfl (fun _ _ => ⟨rfl, Iff.rfl⟩) hnow rfl
        (hretires.keep hwalkedIn hroot hremoved hknown) hwritten
      indexed := hindexed.modify hlookup ?_ ?_ ?_
      incarnations := hincarnations
      current := ⟨slot, ?_, rfl⟩
      admits := ?_
      panes := ?_ }
  · intro tabId hdead
    rw [RetiringWorkspace.cohort_setCohort]
    split_ifs with htab
    · exact htab ▸ hdead
    · exact hdead
  · intro tabId template htemplate
    rw [RetiringWorkspace.cohort_setCohort]
    split_ifs with htab
    · exact htab ▸ htemplate
    · exact htemplate
  · intro tabId template htemplate
    rw [RetiringWorkspace.cohort_setCohort] at htemplate
    split_ifs at htemplate with htab
    · exact Or.inl (htab ▸ htemplate)
    · exact Or.inl htemplate
  · rw [slotsOf, cursorOf, hentities, hentity]
    exact hslot
  · rw [admits_eq, hafter]
    have := admits_eq.mp hadmits
    rwa [hcohort] at this
  · rw [hafter]
    cases htemplate : (workspace.cohort slot.tab.id).template with
    | none =>
      have hfresh := (hretires.cohorts slot.tab.id).fresh htemplate
      rw [hfresh.1] at hwalkedIn
      cases hwalkedIn
    | some template =>
      rw [Cohort.currentTab]
      dsimp only
      rw [htemplate]
      dsimp only
      split_ifs <;> rfl

/-- A tab without a cohort's walk keeps its own in its slot. -/
theorem kept_setSlot (hnone : (state.cohortOf slot.workspaceKey slot.tab.id).panes = none) :
    Kept model state (state.setEntity entityId
      { entity with slots := entity.slots.set entity.cursor { slot with panes := some panes } })
      edit entityId slot panes := by
  obtain ⟨hslots, hcursor⟩ := slotsOf_of_lookup hentity
  have hmem : slot ∈ state.slotsOf entityId := by
    rw [hslots]
    exact mem_of_getElem? hslot
  have hsame : panes.materialize = (state.panesOf slot).materialize := by
    rw [RetiringPanes.materialize, RetiringPanes.materialize, hroot, hremoved]
  have hpanes := hsame.trans (panesOf_spec hcovers hindexed hmem).2
  have htemplate := (hcovers.sound slot.workspaceKey slot.tab.id).joined hnone
  have hfresh : panes.root = slot.tab.panes.root ∧ panes.removed = [] := by
    rw [hroot, hremoved, panesOf]
    rw [hnone, htemplate, none_or]
    cases hslotPanes : slot.panes with
    | none => exact ⟨rfl, rfl⟩
    | some walked => exact (hindexed.walked entityId slot hmem walked hslotPanes).2
  have hless : entity.cursor < entity.slots.length := (List.getElem?_eq_some_iff.mp hslot).1
  have hset : (entity.slots.set entity.cursor { slot with panes := some panes }).map placeOf =
      entity.slots.map placeOf := by
    refine ext_getElem? fun index => ?_
    rw [getElem?_map, getElem?_map, getElem?_set]
    split_ifs with hindex
    · rw [← hindex, hslot]
      rfl
    · rfl
  refine
    { covers := hcovers.congr rfl
      indexed := hindexed.setEntity (hset.trans (by rw [hslots])) ?_ ?_ ?_
      incarnations := rfl
      current := ⟨{ slot with panes := some panes }, ?_, rfl⟩
      admits := hadmits
      panes := hpanes }
  · intro other hother walked hwalkedOther
    rcases mem_or_eq_of_mem_set hother with hold | rfl
    · exact hindexed.walked entityId other (hslots ▸ hold) walked hwalkedOther
    · cases hwalkedOther
      exact ⟨hknown, hfresh⟩
  · intro other hother
    dsimp only at hother
    rw [take_set_of_le le_rfl] at hother
    refine hindexed.passed entityId other ?_
    rw [hslots, hcursor]
    exact hother
  · intro other hother _
    rw [hslots, hcursor, hslot] at hother
    cases hother
    exact ⟨_, getElem?_set_self hless, rfl⟩
  · rw [slotsOf_setEntity, cursorOf_setEntity, if_pos rfl, if_pos rfl]
    exact getElem?_set_self hless

theorem kept_keepPanes :
    Kept model state (state.keepPanes entityId entity slot panes) edit entityId slot panes := by
  rw [keepPanes]
  split_ifs with hwalked
  · obtain ⟨walked, hwalkedEq⟩ := isSome_iff_exists.mp hwalked
    exact kept_setCohort hcovers hindexed hentity hslot hadmits hknown hroot hremoved hwalkedEq
  · exact kept_setSlot hcovers hindexed hentity hslot hadmits hknown hroot hremoved
      (not_isSome_iff_eq_none.mp hwalked)

end Keep

end Retirement

end Wakii.LayoutLoad
