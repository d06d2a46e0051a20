import Wakii.Journal.OutcomeFold

/-!
# Persisting a chat's outcomes and reading them back

A transaction drafts the chat's collections, folds its rows over the drafts,
and after each row inserts a record for every change reported and for every
scalar whose text changed.  The main result says that reading the table over
the frozen prefix gives back the chat the transactions left.
-/

namespace Wakii.OutcomeTable

open List OrderedCollections TransitionCollections OutcomeCollections OutcomeLog
  OutcomeFold

variable {V : Type*} [DecidableEq V]

/-- The part of the reducer state the outcome log stores. -/
structure ChatState (V : Type*) where
  lastSequence : ℕ
  collections : String → Collection V
  scalars : OrderedMap String V

/-- A journal row as its fold shows itself to the draft: the edits it makes
and the scalars it leaves. -/
structure FoldedRow (V : Type*) where
  seq : ℕ
  edits : List (String × CollectionOp V)
  scalars : OrderedMap String V

/-- One call of `persistJournalOutcomeRows`; `reached` are the collections its
fold reaches beside the native ones, in the order it reaches them. -/
structure OutcomeTransaction (V : Type*) where
  reached : List String
  rows : List (FoldedRow V)
  upgradeNative : Bool

/-- The fields a transaction tracks: the native maps are registered first. -/
def trackedFields (reached : List String) : OrderedSet String :=
  reached.foldl OrderedSet.add ⟨nativeFields, by decide⟩

def isolate (state : ChatState V) (reached : List String) : List (DraftCollection V) :=
  (trackedFields reached).elems.map fun path =>
    DraftCollection.ofSource path (state.collections path)

def edit (drafts : List (DraftCollection V))
    (change : String × CollectionOp V) : List (DraftCollection V) :=
  drafts.map fun draft =>
    if draft.path = change.1 then draft.apply change.2 else draft

def draftEntries : DraftCollection V → List (String × V)
  | .map draft => draft.entries
  | .set _ => []

/-- The first row of an upgrade also records every native entry it left
alone, as a new place. -/
def nativeUpgrade (drafts : List (DraftCollection V))
    (changes : List (JournalEntryChange String V)) :
    List (JournalEntryChange String V) :=
  nativeFields.flatMap fun path =>
    let changed := (changes.filter (·.path = path)).map (·.key)
    (drafts.filter (·.path = path)).flatMap fun draft =>
      (draftEntries draft).filterMap fun entry =>
        if entry.1 ∈ changed then none
        else some {
          path
          key := entry.1
          deleted := false
          reinsert := true
          value := some entry.2 }

def storedChanges (drafts : List (DraftCollection V)) : List (JournalEntryChange String V) :=
  (drafts.flatMap DraftCollection.changes).filter (isStoredField ·.path)

def upgradeChanges (drafts : List (DraftCollection V))
    (upgradeNative : Bool) : List (JournalEntryChange String V) :=
  if upgradeNative then nativeUpgrade drafts (storedChanges drafts) else []

def rowChanges (drafts : List (DraftCollection V)) (upgradeNative : Bool) :
    List (JournalEntryChange String V) :=
  storedChanges drafts ++ upgradeChanges drafts upgradeNative

def encodeChange (withoutRecovers : V → V)
    (change : JournalEntryChange String V) : EncodedOutcome V where
  field := change.path
  key := change.key
  value :=
    if change.deleted then none
    else storedValue withoutRecovers change.path change.value
  deleted := change.deleted

def encodeScalar (before : OrderedMap String V) (entry : String × V) : Option (EncodedOutcome V) :=
  if before.lookup entry.1 = some entry.2 then none
  else some {
    field := "$"
    key := entry.1
    value := some entry.2
    deleted := false }

/-- Every change's record, then a record for each scalar whose text changed.
A scalar's field is `$`. -/
def encodeJournalOutcomes (withoutRecovers : V → V) (changes : List (JournalEntryChange String V))
    (before next : OrderedMap String V) : List (EncodedOutcome V) :=
  changes.map (encodeChange withoutRecovers) ++
    next.pairs.filterMap (encodeScalar before)

structure Transition (V : Type*) where
  drafts : List (DraftCollection V)
  before : OrderedMap String V
  lastSequence : ℕ
  scalars : OrderedMap String V
  table : List (JournalOutcome V)

/-- The longest array the language builds. -/
def maxArrayLength : ℕ := 2 ^ 32 - 1

/-- Folds and records one row; a report longer than any array is refused. -/
def persistRow (withoutRecovers : V → V) (prefixRows : ℕ)
    (upgradeNative : Bool) (transition : Transition V) (row : FoldedRow V) :
    Option (Transition V) :=
  let drafts := row.edits.foldl edit transition.drafts
  let changes := rowChanges drafts upgradeNative
  if changes.length ≤ maxArrayLength then
    some {
      drafts := drafts.map DraftCollection.reset
      before := row.scalars
      lastSequence := row.seq
      scalars := row.scalars
      table := insertOutcomes prefixRows row.seq changes 0
        (encodeJournalOutcomes withoutRecovers changes transition.before
          row.scalars) transition.table }
  else none

def persistRows (withoutRecovers : V → V) (prefixRows : ℕ) :
    Bool → Transition V → List (FoldedRow V) → Option (Transition V)
  | _, transition, [] => some transition
  | upgradeNative, transition, row :: rest => do
    let next ←
      persistRow withoutRecovers prefixRows upgradeNative transition row
    persistRows withoutRecovers prefixRows false next rest

def adopt (state : ChatState V) (transition : Transition V) : ChatState V where
  lastSequence := transition.lastSequence
  collections field :=
    match transition.drafts.find? (·.path = field) with
    | some draft => draft.adopt
    | none => state.collections field
  scalars := transition.scalars

def persistJournalOutcomeRows (withoutRecovers : V → V) (prefixRows : ℕ)
    (state : ChatState V) (table : List (JournalOutcome V))
    (transaction : OutcomeTransaction V) :
    Option (ChatState V × List (JournalOutcome V)) := do
  let transition ← persistRows withoutRecovers prefixRows
    transaction.upgradeNative
    { drafts := isolate state transaction.reached
      before := if state.lastSequence = 0 then ∅ else state.scalars
      lastSequence := state.lastSequence
      scalars := state.scalars
      table }
    transaction.rows
  return (adopt state transition, transition.table)

def persistAll (withoutRecovers : V → V) (prefixRows : ℕ) :
    ChatState V → List (JournalOutcome V) → List (OutcomeTransaction V) →
      Option (ChatState V × List (JournalOutcome V))
  | state, table, [] => some (state, table)
  | state, table, transaction :: rest => do
    let (next, written) ← persistJournalOutcomeRows withoutRecovers
      prefixRows state table transaction
    persistAll withoutRecovers prefixRows next written rest

def finishScalars (records : List (JournalOutcome V))
    (base : OrderedMap String V) : OrderedMap String V :=
  records.foldl (fun scalars record =>
    match record.value with
    | some value => scalars.set record.key value
    | none => scalars) base

def finish (read : List (JournalOutcome V)) (through : ℕ) (base : ChatState V) : ChatState V where
  lastSequence := through
  collections field := finishField field
      (read.filter fun record => decide (record.field = field))
      (base.collections field)
  scalars := finishScalars
    (read.filter fun record => decide (record.field = "$")) base.scalars

/-! ## Drafts of a whole chat -/

def DraftsTrack (drafts : List (DraftCollection V)) (live mark : String → Collection V) : Prop :=
  ∀ draft ∈ drafts, draft.Tracks (live draft.path) (mark draft.path)

section Drafts

omit [DecidableEq V]

variable {drafts : List (DraftCollection V)}
  {live mark : String → Collection V}

theorem nodup_paths_isolate (state : ChatState V) (reached : List String) :
    ((isolate state reached).map DraftCollection.path).Nodup := by
  rw [isolate, map_map]
  have hpaths : DraftCollection.path ∘ (fun path =>
      DraftCollection.ofSource path (state.collections path)) = id := by
    funext path
    exact DraftCollection.path_ofSource path (state.collections path)
  rw [hpaths, map_id]
  exact (trackedFields reached).nodup

theorem draftsTrack_isolate (state : ChatState V) (reached : List String) :
    DraftsTrack (isolate state reached) state.collections
      state.collections := by
  intro draft hdraft
  obtain ⟨path, _, rfl⟩ := mem_map.mp hdraft
  rw [DraftCollection.path_ofSource]
  exact DraftCollection.tracks_ofSource path (state.collections path)

/-- The live collections after an edit: its field moves when it is drafted. -/
def liveEdit (drafts : List (DraftCollection V))
    (change : String × CollectionOp V) (live : String → Collection V)
    (field : String) : Collection V :=
  if field = change.1 ∧ change.1 ∈ drafts.map DraftCollection.path then
    (live field).apply change.2
  else live field

theorem edit_tracks (h : DraftsTrack drafts live mark) (change : String × CollectionOp V) :
    ∃ next, DraftsTrack (edit drafts change) next mark ∧
      (edit drafts change).map DraftCollection.path = drafts.map DraftCollection.path ∧
      ∀ field, field ∉ drafts.map DraftCollection.path →
        next field = live field := by
  have hpath : ∀ draft ∈ drafts,
      (if draft.path = change.1 then draft.apply change.2 else draft).path =
        draft.path := by
    intro draft hdraft
    split
    · exact (h draft hdraft).path_apply change.2
    · rfl
  refine ⟨liveEdit drafts change live, ?_, ?_, ?_⟩
  · intro edited hedited
    obtain ⟨draft, hdraft, rfl⟩ := mem_map.mp hedited
    have hmem : draft.path ∈ drafts.map DraftCollection.path := mem_map_of_mem hdraft
    rw [hpath draft hdraft, liveEdit]
    by_cases htarget : draft.path = change.1
    · rw [if_pos htarget, if_pos ⟨htarget, htarget ▸ hmem⟩]
      exact (h draft hdraft).apply change.2
    · rw [if_neg htarget, if_neg fun hboth => htarget hboth.1]
      exact h draft hdraft
  · rw [edit, map_map]
    exact map_congr_left hpath
  · intro field hfield
    apply if_neg
    exact fun hboth => hfield (hboth.1 ▸ hboth.2)

theorem edits_track (edits : List (String × CollectionOp V)) (h : DraftsTrack drafts live mark) :
    ∃ next, DraftsTrack (edits.foldl edit drafts) next mark ∧
      (edits.foldl edit drafts).map DraftCollection.path = drafts.map DraftCollection.path ∧
      ∀ field, field ∉ drafts.map DraftCollection.path →
        next field = live field := by
  induction edits generalizing drafts live with
  | nil => exact ⟨live, h, rfl, fun _ _ => rfl⟩
  | cons change rest ih =>
    obtain ⟨next, hnext, hpaths, hother⟩ := edit_tracks h change
    obtain ⟨last, hlast, hlastPaths, hlastOther⟩ := ih hnext
    refine ⟨last, hlast, hlastPaths.trans hpaths, fun field hfield => ?_⟩
    rw [hlastOther field (hpaths ▸ hfield), hother field hfield]

theorem reset_tracks (h : DraftsTrack drafts live mark) :
    DraftsTrack (drafts.map DraftCollection.reset) live live ∧
      (drafts.map DraftCollection.reset).map DraftCollection.path =
        drafts.map DraftCollection.path := by
  constructor
  · intro cleared hcleared
    obtain ⟨draft, hdraft, rfl⟩ := mem_map.mp hcleared
    rw [DraftCollection.path_reset]
    exact (h draft hdraft).reset
  · rw [map_map]
    apply map_congr_left
    exact fun draft _ => DraftCollection.path_reset draft

structure FieldReport (changes : List (JournalEntryChange String V))
    (field : String) (mark current : Collection V)
    (earlier later : List (JournalEntryChange String V))
    (recreated pending : OrderedSet String) : Prop where
  changes_eq : changes = earlier ++
    (pending.elems.map (reportedChange field current recreated) ++ later)
  earlier_path : ∀ change ∈ earlier, change.path ≠ field
  later_path : ∀ change ∈ later, change.path ≠ field
  segment : Overlay mark.view current.view recreated pending
  kind : current.isMap = mark.isMap

variable {change : JournalEntryChange String V}

theorem changes_path (h : DraftsTrack drafts live mark) {draft : DraftCollection V}
    (hdraft : draft ∈ drafts) (hchange : change ∈ draft.changes) :
    change.path = draft.path := by
  obtain ⟨recreated, pending, hreported⟩ := (h draft hdraft).reported
  rw [hreported.changes_eq, mem_map] at hchange
  obtain ⟨key, _, rfl⟩ := hchange
  rfl

variable {field : String}

theorem storedChanges_path {others : List (DraftCollection V)} (h : DraftsTrack drafts live mark)
    (hothers : ∀ draft ∈ others, draft ∈ drafts ∧ draft.path ≠ field) :
    ∀ change ∈ storedChanges others, change.path ≠ field := by
  intro change hchange
  have hmem := (mem_filter.mp hchange).1
  obtain ⟨draft, hdraft, hchange⟩ := mem_flatMap.mp hmem
  rw [changes_path h (hothers draft hdraft).1 hchange]
  exact (hothers draft hdraft).2

theorem nativeUpgrade_path {changes : List (JournalEntryChange String V)}
    (hchange : change ∈ nativeUpgrade drafts changes) :
    change.path ∈ nativeFields := by
  obtain ⟨path, hpath, hchange⟩ := mem_flatMap.mp hchange
  obtain ⟨draft, _, hchange⟩ := mem_flatMap.mp hchange
  obtain ⟨entry, _, hchange⟩ := mem_filterMap.mp hchange
  split at hchange
  · cases hchange
  · rw [Option.some.injEq] at hchange
    rw [← hchange]
    exact hpath

/-- The fields whose records follow the ordinal rule: native ones only where
no upgrade adds records to them. -/
def Covered (native : Bool) (field : String) : Prop :=
  field ∈ outcomeFormat1Collections ∨ (native = true ∧ field ∈ nativeFields)

theorem Covered.stored {native : Bool} (h : Covered native field) : isStoredField field = true := by
  rw [isStoredField, Bool.or_eq_true, isNativeOutcomeField, decide_eq_true_eq, decide_eq_true_eq]
  exact h.symm.imp_left And.right

theorem Covered.ne_scalar {native : Bool} (h : Covered native field) : field ≠ "$" := by
  rintro rfl
  cases h with
  | inl hformat => exact absurd hformat (by decide)
  | inr hnative => exact absurd hnative.2 (by decide)

theorem not_mem_nativeFields (hfield : field ∈ outcomeFormat1Collections) :
    field ∉ nativeFields := by
  have hall : ∀ field ∈ outcomeFormat1Collections, field ∉ nativeFields := by
    decide
  exact hall field hfield

/-- A row reports every covered field's changes as one overlay. -/
theorem rowChanges_report (h : DraftsTrack drafts live mark)
    (hpaths : (drafts.map DraftCollection.path).Nodup)
    (hother : ∀ field, field ∉ drafts.map DraftCollection.path → live field = mark field)
    {native upgradeNative : Bool} (hupgrade : native = true →
      upgradeNative = false) (hfield : Covered native field) :
    ∃ earlier later recreated pending,
      FieldReport (rowChanges drafts upgradeNative) field (mark field)
        (live field) earlier later recreated pending := by
  have hupgraded : ∀ change ∈ upgradeChanges drafts upgradeNative, change.path ≠ field := by
    intro change hchange
    cases hflag : upgradeNative with
    | false => simp [upgradeChanges, hflag] at hchange
    | true =>
      rw [hflag, upgradeChanges, if_pos rfl] at hchange
      have hnative := nativeUpgrade_path hchange
      cases hfield with
      | inl hformat =>
        exact fun heq => not_mem_nativeFields hformat (heq ▸ hnative)
      | inr hcovered => simp [hupgrade hcovered.1] at hflag
  by_cases hmem : field ∈ drafts.map DraftCollection.path
  · obtain ⟨draft, hdraft, rfl⟩ := mem_map.mp hmem
    obtain ⟨first, second, hsplit⟩ := append_of_mem hdraft
    obtain ⟨recreated, pending, hreported⟩ := (h draft hdraft).reported
    rw [hsplit, map_append, map_cons, nodup_middle, nodup_cons, mem_append, not_or] at hpaths
    have hfirst : ∀ other ∈ first, other ∈ drafts ∧ other.path ≠ draft.path := by
      intro other hother
      refine ⟨hsplit ▸ mem_append_left _ hother, fun heq => ?_⟩
      exact hpaths.1.1 (heq ▸ mem_map_of_mem hother)
    have hsecond : ∀ other ∈ second, other ∈ drafts ∧ other.path ≠ draft.path := by
      intro other hother
      have htail := mem_append_right first (mem_cons_of_mem draft hother)
      refine ⟨hsplit ▸ htail, fun heq => ?_⟩
      exact hpaths.1.2 (heq ▸ mem_map_of_mem hother)
    have hkept : draft.changes.filter (isStoredField ·.path) =
        draft.changes := by
      rw [filter_eq_self]
      intro change hchange
      rw [changes_path h hdraft hchange]
      exact hfield.stored
    have hstored : storedChanges drafts = storedChanges first ++
        (draft.changes ++ storedChanges second) := by
      rw [hsplit, storedChanges, flatMap_append, flatMap_cons, filter_append, filter_append, hkept]
      rfl
    refine ⟨storedChanges first,
      storedChanges second ++ upgradeChanges drafts upgradeNative, recreated,
      pending, ?_, storedChanges_path h hfirst, ?_, hreported.segment,
      (h draft hdraft).isMap_eq⟩
    · rw [rowChanges, hstored, hreported.changes_eq, append_assoc, append_assoc]
    · intro change hchange
      rw [mem_append] at hchange
      cases hchange with
      | inl hlater => exact storedChanges_path h hsecond change hlater
      | inr hadded => exact hupgraded change hadded
  · refine ⟨rowChanges drafts upgradeNative, [], ∅, ∅, ?_, ?_, ?_, ?_, ?_⟩
    · simp
    · intro change hchange
      rw [rowChanges, mem_append] at hchange
      cases hchange with
      | inl hdrafted =>
        apply storedChanges_path h _ change hdrafted
        intro draft hdraft
        exact ⟨hdraft, fun heq => hmem (heq ▸ mem_map_of_mem hdraft)⟩
      | inr hadded => exact hupgraded change hadded
    · intro change hchange
      exact absurd hchange not_mem_nil
    · rw [hother field hmem]
      exact Overlay.refl _
    · rw [hother field hmem]

end Drafts

end Wakii.OutcomeTable
