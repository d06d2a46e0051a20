import Wakii.Library.Overlay
import Wakii.Library.Machine

/-!
# The journal's transaction overlays

A journal row is folded over drafts of the live maps and sets; the live
containers change only when the transaction is adopted.  A draft keeps its
source, the values written, and five ordered key sets.  This module shows that
a draft answers as a plain copy of its source would, that adopting it leaves
the source equal to that copy, and that the changes it reports rebuild the copy
segment by segment, in the copy's iteration order.
-/

namespace Wakii.TransitionCollections

open List OrderedCollections Machine OrderedMap AList

variable {K V : Type*} [DecidableEq K]

/-! ## The key sets of a draft -/

/-- The key sets that both overlays keep beside their source. -/
structure DraftKeys (K : Type*) where
  removed : OrderedSet K
  inserted : OrderedSet K
  touched : OrderedSet K
  pending : OrderedSet K
  recreated : OrderedSet K

namespace DraftKeys

def empty : DraftKeys K := ⟨∅, ∅, ∅, ∅, ∅⟩

def has (keys : DraftKeys K) (source : List K) (key : K) : Bool :=
  decide (key ∈ keys.inserted) || (!decide (key ∈ keys.removed) && decide (key ∈ source))

def size (keys : DraftKeys K) (source : List K) : Int :=
  source.length - keys.removed.elems.length + keys.inserted.elems.length

def iterate (keys : DraftKeys K) (source : List K) : List K :=
  source.filter (fun key => !decide (key ∈ keys.removed)) ++ keys.inserted.elems

def touch (keys : DraftKeys K) (key : K) : DraftKeys K :=
  { keys with
    touched := keys.touched.add key
    pending := keys.pending.add key }

/-- A created key moves to the end of both orders. -/
def create (keys : DraftKeys K) (key : K) : DraftKeys K :=
  { keys with
    inserted := keys.inserted.add key
    recreated := keys.recreated.add key
    touched := keys.touched.erase key
    pending := keys.pending.erase key }

def delete (keys : DraftKeys K) (source : List K) (key : K) : DraftKeys K :=
  touch
    { keys with
      removed := if key ∈ source then keys.removed.add key else keys.removed
      inserted := keys.inserted.erase key
      recreated := keys.recreated.erase key }
    key

def reset (keys : DraftKeys K) : DraftKeys K :=
  { keys with pending := ∅, recreated := ∅ }

/-- The key sets say how `current` came from `source`, and since the last reset
how it came from `mark`. -/
structure Tracks (keys : DraftKeys K)
    (source current mark : OrderedMap K V) : Prop where
  removed_iff : ∀ key, key ∈ keys.removed ↔ key ∈ source ∧ (key ∉ current ∨ key ∈ keys.inserted)
  edited : Overlay source current keys.inserted keys.touched
  segment : Overlay mark current keys.recreated keys.pending

variable {keys : DraftKeys K} {source current mark : OrderedMap K V}

theorem tracks_empty (source : OrderedMap K V) : Tracks empty source source source where
  removed_iff := by
    intro key
    simp [empty]
  edited := Overlay.refl source
  segment := Overlay.refl source

section

variable (h : Tracks keys source current mark)
include h

theorem Tracks.reset : Tracks keys.reset source current current where
  removed_iff := h.removed_iff
  edited := h.edited
  segment := Overlay.refl current

theorem Tracks.has_eq (key : K) : keys.has source.keys key = decide (key ∈ current) := by
  rw [has, Bool.eq_iff_iff]
  simp only [Bool.or_eq_true, Bool.and_eq_true, Bool.not_eq_true',
    decide_eq_true_eq, decide_eq_false_iff_not]
  rw [h.removed_iff, ← AList.mem_keys]
  constructor
  · rintro (hinserted | ⟨hremoved, hsource⟩)
    · exact h.edited.mem_current hinserted
    · by_contra hcurrent
      exact hremoved ⟨hsource, Or.inl hcurrent⟩
  · intro hcurrent
    by_cases hinserted : key ∈ keys.inserted
    · exact Or.inl hinserted
    · refine Or.inr ⟨?_, h.edited.mem_base hcurrent hinserted⟩
      rintro ⟨_, hgone | hfresh⟩
      · exact hgone hcurrent
      · exact hinserted hfresh

theorem Tracks.iterate_eq : keys.iterate source.keys = current.keys := by
  rw [iterate, h.edited.keys_eq]
  congr 1
  refine filter_congr fun key hkey => ?_
  have hsource : key ∈ source := mem_keys.mpr hkey
  have hremoved := h.removed_iff key
  by_cases hcurrent : key ∈ current <;>
    by_cases hinserted : key ∈ keys.inserted <;>
      simp [hremoved, hsource, hcurrent, hinserted]

theorem Tracks.size_eq : keys.size source.keys = (current.keys.length : Int) := by
  have hremoved : (source.keys.filter (· ∈ keys.removed)).length =
      keys.removed.elems.length := by
    refine Perm.length_eq ?_
    rw [perm_ext_iff_of_nodup (source.keys_nodup.filter _) keys.removed.nodup]
    intro key
    simp only [mem_filter, decide_eq_true_eq, OrderedSet.mem_elems, and_iff_right_iff_imp]
    exact fun hkey => ((h.removed_iff key).mp hkey).1
  have hsplit := length_eq_length_filter_add (l := source.keys) (· ∈ keys.removed)
  rw [← h.iterate_eq, iterate, length_append, size]
  simp only [hremoved] at hsplit
  omega

theorem Tracks.set (key : K) (value : V) : Tracks
      ((if key ∈ current then keys else keys.create key).touch key)
      source (current.set key value) mark := by
  by_cases hkey : key ∈ current
  · rw [if_pos hkey]
    refine ⟨?_, h.edited.set_of_mem value hkey, h.segment.set_of_mem value hkey⟩
    intro other
    by_cases hother : other = key
    · subst hother
      simpa [touch, hkey] using h.removed_iff other
    · simpa [touch, hother] using h.removed_iff other
  · rw [if_neg hkey]
    refine ⟨?_, h.edited.set_of_not_mem value hkey, h.segment.set_of_not_mem value hkey⟩
    intro other
    by_cases hother : other = key
    · subst hother
      simpa [touch, create, hkey] using h.removed_iff other
    · simpa [touch, create, hother] using h.removed_iff other

theorem Tracks.delete (key : K) :
    Tracks (keys.delete source.keys key) source (current.erase key) mark := by
  refine ⟨?_, h.edited.erase key, h.segment.erase key⟩
  intro other
  have hremoved := h.removed_iff other
  by_cases hsource : key ∈ source.keys <;> by_cases hother : other = key
  · subst hother
    simp [touch, DraftKeys.delete, hsource, mem_keys.mpr hsource]
  · simpa [touch, DraftKeys.delete, hsource, hother] using hremoved
  · subst hother
    simp only [touch, DraftKeys.delete, hsource, if_false, hremoved]
    rw [← AList.mem_keys] at hsource
    simp [hsource]
  · simpa [touch, DraftKeys.delete, hsource, hother] using hremoved

end

/-- The first half of a clear: each source key is tested against the removals
made so far. -/
def sweep {D : Type*} (keysOf : D → DraftKeys K) (remove : D → K → D)
    (walked : List K) (draft : D) : D :=
  walked.foldl
    (fun draft key =>
      if key ∈ (keysOf draft).removed then draft else remove draft key) draft

/-- Clearing deletes while it iterates: the source keys that are not removed,
then the inserted keys. -/
def clearWith {D : Type*} (keysOf : D → DraftKeys K) (remove : D → K → D)
    (source : List K) (draft : D) : D :=
  let swept := sweep keysOf remove source draft
  (keysOf swept).inserted.elems.foldl remove swept

section Clear

variable {D : Type*} {keysOf : D → DraftKeys K} {remove : D → K → D}
  {related : D → OrderedMap K V → Prop}

private theorem sweep_related (hkeys : ∀ draft current, related draft current →
      (keysOf draft).Tracks source current mark)
    (hremove : ∀ draft current key, related draft current →
      related (remove draft key) (current.erase key))
    (hinserted : ∀ draft key other, other ≠ key → other ∈ (keysOf draft).inserted →
        other ∈ (keysOf (remove draft key)).inserted)
    (walked : List K) {draft : D} {current : OrderedMap K V}
    (hdraft : related draft current) :
    ∃ next, related (sweep keysOf remove walked draft) next ∧ ∀ key ∈ next, key ∈ current ∧
        (key ∈ (keysOf draft).inserted ∨ key ∈ walked →
          key ∈ (keysOf (sweep keysOf remove walked draft)).inserted) := by
  induction walked generalizing draft current with
  | nil =>
    refine ⟨current, hdraft, fun key hkey => ⟨hkey, fun hcase => ?_⟩⟩
    exact hcase.resolve_right not_mem_nil
  | cons head tail ih =>
    by_cases hhead : head ∈ (keysOf draft).removed
    · have hsweep : sweep keysOf remove (head :: tail) draft = sweep keysOf remove tail draft := by
        simp [sweep, hhead]
      obtain ⟨next, hnext, hmem⟩ := ih hdraft
      rw [hsweep]
      refine ⟨next, hnext, fun key hkey => ?_⟩
      obtain ⟨hcurrent, htail⟩ := hmem key hkey
      refine ⟨hcurrent, fun hcase => htail ?_⟩
      rw [mem_cons] at hcase
      rcases hcase with hfresh | rfl | hrest
      · exact Or.inl hfresh
      · -- A removed key that is present again was inserted.
        have hremoved := ((hkeys _ _ hdraft).removed_iff key).mp hhead
        exact Or.inl (hremoved.2.resolve_left (not_not_intro hcurrent))
      · exact Or.inr hrest
    · have hsweep : sweep keysOf remove (head :: tail) draft =
          sweep keysOf remove tail (remove draft head) := by
        simp [sweep, hhead]
      obtain ⟨next, hnext, hmem⟩ := ih (hremove _ _ head hdraft)
      rw [hsweep]
      refine ⟨next, hnext, fun key hkey => ?_⟩
      obtain ⟨herased, htail⟩ := hmem key hkey
      rw [mem_erase] at herased
      refine ⟨herased.2, fun hcase => htail ?_⟩
      rw [mem_cons] at hcase
      rcases hcase with hfresh | rfl | hrest
      · exact Or.inl (hinserted _ _ _ herased.1 hfresh)
      · exact absurd rfl herased.1
      · exact Or.inr hrest

private theorem foldl_remove_related (hremove : ∀ draft current key, related draft current →
      related (remove draft key) (current.erase key))
    (walked : List K) {draft : D} {current : OrderedMap K V}
    (hdraft : related draft current) :
    related (walked.foldl remove draft) (current.eraseAll walked) := by
  induction walked generalizing draft current with
  | nil => exact hdraft
  | cons head tail ih => exact ih (hremove _ _ head hdraft)

theorem clearWith_related (mark : OrderedMap K V) (related : D → OrderedMap K V → Prop)
    (hkeys : ∀ draft current, related draft current → (keysOf draft).Tracks source current mark)
    (hremove : ∀ draft current key, related draft current →
      related (remove draft key) (current.erase key))
    (hinserted : ∀ draft key other, other ≠ key → other ∈ (keysOf draft).inserted →
        other ∈ (keysOf (remove draft key)).inserted)
    {draft : D} (hdraft : related draft current) :
    related (clearWith keysOf remove source.keys draft) ∅ := by
  obtain ⟨next, hnext, hmem⟩ := sweep_related hkeys hremove hinserted source.keys hdraft
  have hempty : next.eraseAll
      (keysOf (sweep keysOf remove source.keys draft)).inserted.elems = ∅ := by
    refine eq_empty_of_forall_not_mem fun key hkey => ?_
    rw [mem_eraseAll] at hkey
    refine hkey.2 ((hmem key hkey.1).2 (Or.inr ?_))
    exact (hkeys _ _ hnext).edited.mem_base hkey.1 hkey.2
  rw [← hempty]
  exact foldl_remove_related hremove _ hnext

end Clear

end DraftKeys

/-! ## The map overlay -/

structure JournalEntryChange (K V : Type*) where
  path : String
  key : K
  deleted : Bool
  reinsert : Bool
  value : Option V
deriving DecidableEq

/-- Replays a reported change: delete when deleted or reinserted, then set. -/
def replayReported (map : OrderedMap K V) (change : JournalEntryChange K V) : OrderedMap K V :=
  let cleared :=
    if change.deleted || change.reinsert then map.erase change.key else map
  match change.deleted, change.value with
  | false, some value => OrderedMap.set cleared change.key value
  | _, _ => cleared

/-- A draft of a map: its source, the values written and the key sets. -/
structure JournalDraftMap (K V : Type*) [DecidableEq K] extends
    DraftKeys K where
  path : String
  source : OrderedMap K V
  writes : OrderedMap K V

namespace JournalDraftMap

def ofSource (source : OrderedMap K V) (path : String) : JournalDraftMap K V :=
  { toDraftKeys := DraftKeys.empty, path, source, writes := ∅ }

def has (draft : JournalDraftMap K V) (key : K) : Bool :=
  draft.toDraftKeys.has draft.source.keys key

def size (draft : JournalDraftMap K V) : Int :=
  draft.toDraftKeys.size draft.source.keys

/-- The stored value behind a key; callers ask only for keys `has` reports. -/
def draft (draft : JournalDraftMap K V) (key : K) : Option V :=
  if key ∈ draft.writes then draft.writes.lookup key
  else draft.source.lookup key

def get (draft : JournalDraftMap K V) (key : K) : Option V :=
  if draft.has key then draft.draft key else none

def set (draft : JournalDraftMap K V) (key : K) (value : V) : JournalDraftMap K V :=
  let keys :=
    if draft.has key then draft.toDraftKeys else draft.toDraftKeys.create key
  { draft with
    toDraftKeys := keys.touch key
    writes := draft.writes.set key value }

def delete (draft : JournalDraftMap K V) (key : K) : JournalDraftMap K V × Bool :=
  if draft.has key then
    ({ draft with
      toDraftKeys := draft.toDraftKeys.delete draft.source.keys key
      writes := draft.writes.erase key }, true)
  else (draft, false)

def keys (draft : JournalDraftMap K V) : List K :=
  draft.iterate draft.source.keys

def clear (draft : JournalDraftMap K V) : JournalDraftMap K V :=
  DraftKeys.clearWith toDraftKeys (fun draft key => (draft.delete key).1)
    draft.source.keys draft

def entries (draft : JournalDraftMap K V) : List (K × V) :=
  draft.keys.filterMap fun key => (draft.draft key).map (key, ·)

def values (draft : JournalDraftMap K V) : List V :=
  draft.keys.filterMap fun key => draft.draft key

def changes (draft : JournalDraftMap K V) : List (JournalEntryChange K V) :=
  draft.pending.elems.map fun key =>
    { path := draft.path
      key
      deleted := !draft.has key
      reinsert := decide (key ∈ draft.recreated)
      value := draft.get key }

def takeChanges (draft : JournalDraftMap K V) :
    JournalDraftMap K V × List (JournalEntryChange K V) :=
  ({ draft with toDraftKeys := draft.toDraftKeys.reset }, draft.changes)

def finish (draft : JournalDraftMap K V) : List (Change K V) :=
  draft.touched.elems.map fun key =>
    { key
      kept := if draft.has key then draft.draft key else none
      reinsert := decide (key ∈ draft.inserted) }

def adopt (draft : JournalDraftMap K V) : OrderedMap K V :=
  replayAll draft.source draft.finish

/-- The draft stands for `current`; `mark` is what it stood for at the last
reset. -/
structure Tracks (draft : JournalDraftMap K V)
    (current mark : OrderedMap K V) : Prop where
  keys : draft.toDraftKeys.Tracks draft.source current mark
  stored_eq : ∀ key, key ∈ current → draft.draft key = current.lookup key
  written : ∀ key, key ∈ draft.writes → key ∈ current

variable {draft : JournalDraftMap K V} {current mark : OrderedMap K V}

theorem tracks_ofSource (source : OrderedMap K V) (path : String) :
    (ofSource source path).Tracks source source where
  keys := DraftKeys.tracks_empty source
  stored_eq := by
    intro key _
    simp [JournalDraftMap.draft, ofSource]
  written := by
    intro key hkey
    exact absurd hkey (notMem_empty key)

section

variable (h : draft.Tracks current mark)
include h

theorem Tracks.has_eq (key : K) : draft.has key = decide (key ∈ current) := h.keys.has_eq key

theorem Tracks.get_eq (key : K) : draft.get key = current.lookup key := by
  rw [get, h.has_eq]
  by_cases hkey : key ∈ current
  · simp [hkey, h.stored_eq key hkey]
  · simp [hkey, lookup_eq_none.mpr hkey]

theorem Tracks.keys_eq : draft.keys = current.keys := h.keys.iterate_eq

theorem Tracks.entries_eq : draft.entries = current.pairs := by
  rw [entries, h.keys_eq, pairs_eq_filterMap]
  refine filterMap_congr fun key hkey => ?_
  rw [h.stored_eq key (mem_keys.mpr hkey)]

theorem Tracks.values_eq : draft.values = current.values := by
  have hvalues : draft.values = draft.entries.map Prod.snd := by
    rw [values, entries, map_filterMap]
    refine filterMap_congr fun key _ => ?_
    simp [Option.map_map, Function.comp_def]
  rw [hvalues, h.entries_eq]
  simp [OrderedMap.pairs, OrderedMap.values, Function.comp_def]

theorem Tracks.set (key : K) (value : V) :
    (draft.set key value).Tracks (current.set key value) mark where
  keys := by
    have hkeys := h.keys.set key value
    simpa [JournalDraftMap.set, h.has_eq] using hkeys
  stored_eq := by
    intro other hother
    by_cases heq : other = key
    · subst heq
      simp [JournalDraftMap.set, JournalDraftMap.draft]
    · rw [OrderedMap.mem_set] at hother
      have hstored := h.stored_eq other (hother.resolve_left heq)
      rw [JournalDraftMap.draft] at hstored
      rw [OrderedMap.lookup_set_ne _ value heq, ← hstored]
      simp [JournalDraftMap.set, JournalDraftMap.draft, heq, OrderedMap.lookup_set_ne _ value heq]
  written := by
    intro other hother
    rw [OrderedMap.mem_set]
    rw [JournalDraftMap.set, OrderedMap.mem_set] at hother
    exact hother.imp_right (h.written other)

theorem Tracks.delete (key : K) : (draft.delete key).1.Tracks (current.erase key) mark := by
  rw [JournalDraftMap.delete, h.has_eq]
  by_cases hkey : key ∈ current
  · rw [if_pos (by simpa using hkey)]
    refine ⟨h.keys.delete key, ?_, ?_⟩
    · intro other hother
      rw [mem_erase] at hother
      have hstored := h.stored_eq other hother.2
      rw [JournalDraftMap.draft] at hstored
      rw [lookup_erase_ne hother.1, ← hstored]
      simp [JournalDraftMap.draft, hother.1]
    · intro other hother
      simp only [mem_erase] at hother ⊢
      exact ⟨hother.1, h.written other hother.2⟩
  · rw [if_neg (by simpa using hkey), OrderedMap.erase_of_not_mem hkey]
    exact h

theorem Tracks.delete_result (key : K) : (draft.delete key).2 = decide (key ∈ current) := by
  rw [JournalDraftMap.delete, h.has_eq]
  by_cases hkey : key ∈ current <;> simp [hkey]

end

theorem delete_frame (draft : JournalDraftMap K V) (key : K) :
    (draft.delete key).1.source = draft.source ∧ (draft.delete key).1.path = draft.path := by
  rw [JournalDraftMap.delete]
  split <;> exact ⟨rfl, rfl⟩

theorem mem_inserted_delete (draft : JournalDraftMap K V) {key other : K}
    (hother : other ≠ key) (hinserted : other ∈ draft.inserted) :
    other ∈ (draft.delete key).1.inserted := by
  rw [JournalDraftMap.delete]
  split
  · simpa [DraftKeys.delete, DraftKeys.touch] using ⟨hother, hinserted⟩
  · exact hinserted

section

variable (h : draft.Tracks current mark)
include h

theorem Tracks.clear : draft.clear.Tracks ∅ mark ∧ draft.clear.source = draft.source ∧
      draft.clear.path = draft.path := by
  refine DraftKeys.clearWith_related mark
    (fun (next : JournalDraftMap K V) (map : OrderedMap K V) =>
      next.Tracks map mark ∧ next.source = draft.source ∧
        next.path = draft.path)
    ?_ ?_ ?_ ⟨h, rfl, rfl⟩
  · rintro next map ⟨hnext, hsource, _⟩
    exact hsource ▸ hnext.keys
  · rintro next map key ⟨hnext, hsource, hpath⟩
    obtain ⟨hkept, hnamed⟩ := delete_frame next key
    exact ⟨hnext.delete key, hkept.trans hsource, hnamed.trans hpath⟩
  · intro next key other hother hinserted
    exact mem_inserted_delete next hother hinserted

theorem changes_replay : draft.changes.foldl replayReported mark = current := by
  have hchange : ∀ (map : OrderedMap K V) (key : K), replayReported map
        { path := draft.path
          key
          deleted := !draft.has key
          reinsert := decide (key ∈ draft.recreated)
          value := draft.get key } =
        Change.replay
          { key
            kept := current.lookup key
            reinsert := decide (key ∈ draft.recreated) } map := by
    intro map key
    rw [h.has_eq, h.get_eq]
    by_cases hkey : key ∈ current
    · obtain ⟨value, hvalue⟩ := Option.isSome_iff_exists.mp (lookup_isSome.mpr hkey)
      simp [replayReported, Change.replay, Change.clear, hkey, hvalue]
    · have hnone := lookup_eq_none.mpr hkey
      simp [replayReported, Change.replay, Change.clear, hkey, hnone]
  have hreplay := h.keys.segment.replay_changes
  rw [replayAll, Overlay.changes, foldl_map] at hreplay
  rw [changes, foldl_map]
  simpa only [hchange] using hreplay

theorem Tracks.takeChanges : draft.changes.foldl replayReported mark = current ∧
      draft.takeChanges.1.Tracks current current :=
  ⟨changes_replay h,
    { keys := h.keys.reset, stored_eq := h.stored_eq, written := h.written }⟩

theorem Tracks.adopt_eq : draft.adopt = current := by
  have hfinish : draft.finish = Overlay.changes current draft.inserted draft.touched := by
    rw [finish, Overlay.changes]
    refine map_congr_left fun key _ => ?_
    have hget : (if draft.has key then draft.draft key else none) =
        current.lookup key := h.get_eq key
    rw [hget]
  rw [adopt, hfinish, h.keys.edited.replay_changes]

end

end JournalDraftMap

/-! ## Runs of the map overlay -/

inductive MapOp (K V : Type*) where
  | set (key : K) (value : V)
  | delete (key : K)
  | clear
  | get (key : K)
  | has (key : K)
  | size
  | keys
  | values
  | entries

inductive MapAnswer (K V : Type*) where
  | done
  | deleted (was : Bool)
  | value (stored : Option V)
  | present (is : Bool)
  | count (size : Int)
  | keys (keys : List K)
  | values (values : List V)
  | entries (entries : List (K × V))

def JournalDraftMap.step (draft : JournalDraftMap K V) :
    MapOp K V → JournalDraftMap K V × MapAnswer K V
  | .set key value => (draft.set key value, .done)
  | .delete key => ((draft.delete key).1, .deleted (draft.delete key).2)
  | .clear => (draft.clear, .done)
  | .get key => (draft, .value (draft.get key))
  | .has key => (draft, .present (draft.has key))
  | .size => (draft, .count draft.size)
  | .keys => (draft, .keys draft.keys)
  | .values => (draft, .values draft.values)
  | .entries => (draft, .entries draft.entries)

def plainMapStep (map : OrderedMap K V) : MapOp K V → OrderedMap K V × MapAnswer K V
  | .set key value => (map.set key value, .done)
  | .delete key => (map.erase key, .deleted (decide (key ∈ map)))
  | .clear => (∅, .done)
  | .get key => (map, .value (map.lookup key))
  | .has key => (map, .present (decide (key ∈ map)))
  | .size => (map, .count map.keys.length)
  | .keys => (map, .keys map.keys)
  | .values => (map, .values map.values)
  | .entries => (map, .entries map.pairs)

theorem JournalDraftMap.step_tracks {draft : JournalDraftMap K V}
    {current mark : OrderedMap K V} (h : draft.Tracks current mark)
    (op : MapOp K V) :
    (draft.step op).2 = (plainMapStep current op).2 ∧
      (draft.step op).1.Tracks (plainMapStep current op).1 mark ∧
      (draft.step op).1.source = draft.source := by
  cases op with
  | set key value => exact ⟨rfl, h.set key value, rfl⟩
  | delete key =>
    refine ⟨?_, h.delete key, (delete_frame draft key).1⟩
    simp only [step, plainMapStep, h.delete_result]
  | clear => exact ⟨rfl, h.clear.1, h.clear.2.1⟩
  | get key => exact ⟨congrArg MapAnswer.value (h.get_eq key), h, rfl⟩
  | has key => exact ⟨congrArg MapAnswer.present (h.has_eq key), h, rfl⟩
  | size => exact ⟨congrArg MapAnswer.count h.keys.size_eq, h, rfl⟩
  | keys => exact ⟨congrArg MapAnswer.keys h.keys_eq, h, rfl⟩
  | values => exact ⟨congrArg MapAnswer.values h.values_eq, h, rfl⟩
  | entries => exact ⟨congrArg MapAnswer.entries h.entries_eq, h, rfl⟩

def draftMapRun (source : OrderedMap K V) (path : String) (segments : List (List (MapOp K V))) :
    JournalDraftMap K V × List (List (MapAnswer K V)) × List (List (JournalEntryChange K V)) :=
  runSegments JournalDraftMap.step JournalDraftMap.takeChanges
    (JournalDraftMap.ofSource source path) segments

def plainMapRun (source : OrderedMap K V) (segments : List (List (MapOp K V))) :
    OrderedMap K V × List (List (MapAnswer K V)) :=
  runPlainSegments plainMapStep source segments

/-- What a run of a map draft shows of its source: `segments` are closed by
reports, `rest` follows the last report. -/
structure MapFaithful (source : OrderedMap K V) (path : String)
    (segments : List (List (MapOp K V))) (rest : List (MapOp K V)) : Prop where
  answers_eq : (draftMapRun source path segments).2.1 = (plainMapRun source segments).2
  rest_answers_eq : (run JournalDraftMap.step (draftMapRun source path segments).1 rest).2 =
      (run plainMapStep (plainMapRun source segments).1 rest).2
  source_eq : (run JournalDraftMap.step (draftMapRun source path segments).1 rest).1.source = source
  adopt_eq : (run JournalDraftMap.step (draftMapRun source path segments).1 rest).1.adopt =
      (run plainMapStep (plainMapRun source segments).1 rest).1
  reports_eq : (draftMapRun source path segments).2.2.flatten.foldl
      replayReported source = (plainMapRun source segments).1

theorem mapFaithful (source : OrderedMap K V) (path : String)
    (segments : List (List (MapOp K V))) (rest : List (MapOp K V)) :
    MapFaithful source path segments rest := by
  obtain ⟨hanswers, hreports, hdrafted⟩ := runSegments_simulates
    JournalDraftMap.step plainMapStep JournalDraftMap.takeChanges
    (fun map changes => changes.foldl replayReported map)
    (fun draft current mark =>
      draft.Tracks current mark ∧ draft.source = source)
    (by
      rintro draft current mark op ⟨h, hsource⟩
      obtain ⟨hanswer, hnext, hkept⟩ := JournalDraftMap.step_tracks h op
      exact ⟨hanswer, hnext, hkept.trans hsource⟩)
    (by
      rintro draft current mark ⟨h, hsource⟩
      exact ⟨h.takeChanges.1, h.takeChanges.2, hsource⟩)
    segments ⟨JournalDraftMap.tracks_ofSource source path, rfl⟩
  obtain ⟨hrest, hlast, hsource⟩ := run_simulates JournalDraftMap.step plainMapStep
    (fun draft current =>
      draft.Tracks current (plainMapRun source segments).1 ∧ draft.source = source)
    (by
      rintro draft current op ⟨h, hsource⟩
      obtain ⟨hanswer, hnext, hkept⟩ := JournalDraftMap.step_tracks h op
      exact ⟨hanswer, hnext, hkept.trans hsource⟩)
    rest hdrafted
  exact
    { answers_eq := hanswers
      rest_answers_eq := hrest
      source_eq := hsource
      adopt_eq := hlast.adopt_eq
      reports_eq := foldl_flatten.trans hreports }

/-! ## The set overlay -/

/-- Replays what became of one member: delete when deleted or reinserted, then
add. -/
def replayMember (set : OrderedSet K) (member : K) (deleted reinsert : Bool) : OrderedSet K :=
  let cleared := if deleted || reinsert then set.erase member else set
  if deleted then cleared else cleared.add member

def replayReportedMember (set : OrderedSet K) (change : JournalEntryChange K K) : OrderedSet K :=
  replayMember set change.key change.deleted change.reinsert

/-- A member's fate as `finish` captures it for the deferred step. -/
structure MemberChange (K : Type*) where
  value : K
  deleted : Bool
  reinsert : Bool

/-- A draft of a set: its source and the key sets. -/
structure JournalDraftSet (K : Type*) [DecidableEq K] extends
    DraftKeys K where
  path : String
  source : OrderedSet K

namespace JournalDraftSet

def ofSource (source : OrderedSet K) (path : String) : JournalDraftSet K :=
  { toDraftKeys := DraftKeys.empty, path, source }

def has (draft : JournalDraftSet K) (value : K) : Bool :=
  draft.toDraftKeys.has draft.source.elems value

def size (draft : JournalDraftSet K) : Int :=
  draft.toDraftKeys.size draft.source.elems

def add (draft : JournalDraftSet K) (value : K) : JournalDraftSet K :=
  if draft.has value then draft
  else
    { draft with
      toDraftKeys := (draft.toDraftKeys.create value).touch value }

def delete (draft : JournalDraftSet K) (value : K) : JournalDraftSet K × Bool :=
  if draft.has value then
    ({ draft with
      toDraftKeys := draft.toDraftKeys.delete draft.source.elems value }, true)
  else (draft, false)

def clear (draft : JournalDraftSet K) : JournalDraftSet K :=
  DraftKeys.clearWith toDraftKeys (fun draft value => (draft.delete value).1)
    draft.source.elems draft

def values (draft : JournalDraftSet K) : List K :=
  draft.iterate draft.source.elems

def changes (draft : JournalDraftSet K) : List (JournalEntryChange K K) :=
  draft.pending.elems.map fun key =>
    { path := draft.path
      key
      deleted := !draft.has key
      reinsert := decide (key ∈ draft.recreated)
      value := some key }

def takeChanges (draft : JournalDraftSet K) : JournalDraftSet K × List (JournalEntryChange K K) :=
  ({ draft with toDraftKeys := draft.toDraftKeys.reset }, draft.changes)

def finish (draft : JournalDraftSet K) : List (MemberChange K) :=
  draft.touched.elems.map fun value =>
    { value
      deleted := !draft.has value
      reinsert := decide (value ∈ draft.inserted) }

def adopt (draft : JournalDraftSet K) : OrderedSet K :=
  draft.finish.foldl
    (fun set change =>
      replayMember set change.value change.deleted change.reinsert)
    draft.source

/-- The draft stands for `current`; `mark` is what it stood for at the last
reset. -/
def Tracks (draft : JournalDraftSet K) (current mark : OrderedSet K) : Prop :=
  draft.toDraftKeys.Tracks draft.source.toMap current.toMap mark.toMap

variable {draft : JournalDraftSet K} {current mark : OrderedSet K}

theorem tracks_ofSource (source : OrderedSet K) (path : String) :
    (ofSource source path).Tracks source source :=
  DraftKeys.tracks_empty source.toMap

section

variable (h : draft.Tracks current mark)
include h

theorem Tracks.has_eq (value : K) : draft.has value = decide (value ∈ current) := by
  simpa [has] using DraftKeys.Tracks.has_eq h value

theorem Tracks.values_eq : draft.values = current.elems := by
  simpa [values] using DraftKeys.Tracks.iterate_eq h

theorem Tracks.size_eq : draft.size = (current.elems.length : Int) := by
  simpa [size] using DraftKeys.Tracks.size_eq h

theorem Tracks.add (value : K) : (draft.add value).Tracks (current.add value) mark := by
  rw [JournalDraftSet.add, h.has_eq]
  by_cases hvalue : value ∈ current
  · rw [if_pos (by simpa using hvalue), OrderedSet.add_of_mem hvalue]
    exact h
  · rw [if_neg (by simpa using hvalue)]
    have hkeys := DraftKeys.Tracks.set h value ()
    rw [if_neg (mt OrderedSet.mem_toMap.mp hvalue), ← OrderedSet.toMap_add] at hkeys
    exact hkeys

theorem Tracks.delete (value : K) : (draft.delete value).1.Tracks (current.erase value) mark := by
  rw [JournalDraftSet.delete, h.has_eq]
  by_cases hvalue : value ∈ current
  · rw [if_pos (by simpa using hvalue)]
    have hkeys := DraftKeys.Tracks.delete h value
    rw [OrderedSet.keys_toMap, ← OrderedSet.toMap_erase] at hkeys
    exact hkeys
  · rw [if_neg (by simpa using hvalue), OrderedSet.erase_of_not_mem hvalue]
    exact h

theorem Tracks.delete_result (value : K) : (draft.delete value).2 = decide (value ∈ current) := by
  rw [JournalDraftSet.delete, h.has_eq]
  by_cases hvalue : value ∈ current <;> simp [hvalue]

end

theorem add_frame (draft : JournalDraftSet K) (value : K) :
    (draft.add value).source = draft.source ∧ (draft.add value).path = draft.path := by
  rw [JournalDraftSet.add]
  split <;> exact ⟨rfl, rfl⟩

theorem delete_frame (draft : JournalDraftSet K) (value : K) :
    (draft.delete value).1.source = draft.source ∧ (draft.delete value).1.path = draft.path := by
  rw [JournalDraftSet.delete]
  split <;> exact ⟨rfl, rfl⟩

theorem mem_inserted_delete (draft : JournalDraftSet K) {value other : K}
    (hother : other ≠ value) (hinserted : other ∈ draft.inserted) :
    other ∈ (draft.delete value).1.inserted := by
  rw [JournalDraftSet.delete]
  split
  · simpa [DraftKeys.delete, DraftKeys.touch] using ⟨hother, hinserted⟩
  · exact hinserted

theorem Tracks.clear (h : draft.Tracks current mark) :
    draft.clear.Tracks ∅ mark ∧ draft.clear.source = draft.source ∧
      draft.clear.path = draft.path := by
  have hclear : draft.clear = DraftKeys.clearWith toDraftKeys
      (fun draft value => (draft.delete value).1)
      draft.source.toMap.keys draft := by
    rw [JournalDraftSet.clear, OrderedSet.keys_toMap]
  rw [hclear]
  refine DraftKeys.clearWith_related mark.toMap
    (fun (next : JournalDraftSet K) (map : OrderedMap K Unit) =>
      next.toDraftKeys.Tracks next.source.toMap map mark.toMap ∧
        next.source = draft.source ∧ next.path = draft.path)
    ?_ ?_ ?_ ⟨h, rfl, rfl⟩
  · rintro next map ⟨hnext, hsource, _⟩
    exact hsource ▸ hnext
  · rintro next map value ⟨hnext, hsource, hpath⟩
    obtain ⟨set, rfl⟩ := OrderedSet.exists_toMap_eq map
    obtain ⟨hkept, hnamed⟩ := delete_frame next value
    refine ⟨?_, hkept.trans hsource, hnamed.trans hpath⟩
    rw [← OrderedSet.toMap_erase]
    exact Tracks.delete hnext value
  · intro next value other hother hinserted
    exact mem_inserted_delete next hother hinserted

private theorem toMap_replayMember (set : OrderedSet K) (member : K) (deleted reinsert : Bool) :
    (replayMember set member deleted reinsert).toMap = Change.replay
        { key := member
          kept := if deleted then none else some ()
          reinsert } set.toMap := by
  cases deleted <;> cases reinsert <;>
    simp [replayMember, Change.replay, Change.clear]

/-- Members replayed with the fate the draft gives them rebuild its model. -/
private theorem replay_members {fresh touched : OrderedSet K}
    {base : OrderedSet K} (h : draft.Tracks current mark)
    (hoverlay : Overlay base.toMap current.toMap fresh touched) :
    touched.elems.foldl
      (fun set value =>
        replayMember set value (!draft.has value) (decide (value ∈ fresh)))
      base = current := by
  refine OrderedSet.toMap_injective ?_
  rw [← hoverlay.replay_changes, replayAll, Overlay.changes, foldl_map]
  clear hoverlay
  induction touched.elems generalizing base with
  | nil => rfl
  | cons value rest ih =>
    have hkept : (if (!draft.has value) = true then none else some ()) =
        current.toMap.lookup value := by
      rw [h.has_eq]
      by_cases hvalue : value ∈ current
      · obtain ⟨⟨⟩, hstored⟩ := Option.isSome_iff_exists.mp
          (lookup_isSome.mpr (OrderedSet.mem_toMap.mpr hvalue))
        simp [hvalue, hstored]
      · have hnone := lookup_eq_none.mpr (mt OrderedSet.mem_toMap.mp hvalue)
        simp [hvalue, hnone]
    rw [foldl_cons, foldl_cons, ih, toMap_replayMember, hkept]

theorem Tracks.takeChanges (h : draft.Tracks current mark) :
    draft.changes.foldl replayReportedMember mark = current ∧
      draft.takeChanges.1.Tracks current current := by
  refine ⟨?_, DraftKeys.Tracks.reset h⟩
  rw [changes, foldl_map]
  exact replay_members h h.segment

theorem Tracks.adopt_eq (h : draft.Tracks current mark) : draft.adopt = current := by
  rw [adopt, finish, foldl_map]
  exact replay_members h h.edited

end JournalDraftSet

/-! ## Runs of the set overlay -/

inductive SetOp (K : Type*) where
  | add (value : K)
  | delete (value : K)
  | clear
  | has (value : K)
  | size
  | values

inductive SetAnswer (K : Type*) where
  | done
  | deleted (was : Bool)
  | present (is : Bool)
  | count (size : Int)
  | values (values : List K)

def JournalDraftSet.step (draft : JournalDraftSet K) : SetOp K → JournalDraftSet K × SetAnswer K
  | .add value => (draft.add value, .done)
  | .delete value => ((draft.delete value).1, .deleted (draft.delete value).2)
  | .clear => (draft.clear, .done)
  | .has value => (draft, .present (draft.has value))
  | .size => (draft, .count draft.size)
  | .values => (draft, .values draft.values)

def plainSetStep (set : OrderedSet K) : SetOp K → OrderedSet K × SetAnswer K
  | .add value => (set.add value, .done)
  | .delete value => (set.erase value, .deleted (decide (value ∈ set)))
  | .clear => (∅, .done)
  | .has value => (set, .present (decide (value ∈ set)))
  | .size => (set, .count set.elems.length)
  | .values => (set, .values set.elems)

theorem JournalDraftSet.step_tracks {draft : JournalDraftSet K}
    {current mark : OrderedSet K} (h : draft.Tracks current mark)
    (op : SetOp K) :
    (draft.step op).2 = (plainSetStep current op).2 ∧
      (draft.step op).1.Tracks (plainSetStep current op).1 mark ∧
      (draft.step op).1.source = draft.source := by
  cases op with
  | add value => exact ⟨rfl, h.add value, (add_frame draft value).1⟩
  | delete value =>
    refine ⟨?_, h.delete value, (delete_frame draft value).1⟩
    simp only [step, plainSetStep, h.delete_result]
  | clear => exact ⟨rfl, h.clear.1, h.clear.2.1⟩
  | has value => exact ⟨congrArg SetAnswer.present (h.has_eq value), h, rfl⟩
  | size => exact ⟨congrArg SetAnswer.count h.size_eq, h, rfl⟩
  | values => exact ⟨congrArg SetAnswer.values h.values_eq, h, rfl⟩

def draftSetRun (source : OrderedSet K) (path : String) (segments : List (List (SetOp K))) :
    JournalDraftSet K × List (List (SetAnswer K)) × List (List (JournalEntryChange K K)) :=
  runSegments JournalDraftSet.step JournalDraftSet.takeChanges
    (JournalDraftSet.ofSource source path) segments

def plainSetRun (source : OrderedSet K) (segments : List (List (SetOp K))) :
    OrderedSet K × List (List (SetAnswer K)) :=
  runPlainSegments plainSetStep source segments

/-- What a run of a set draft shows of its source: `segments` are closed by
reports, `rest` follows the last report. -/
structure SetFaithful (source : OrderedSet K) (path : String)
    (segments : List (List (SetOp K))) (rest : List (SetOp K)) : Prop where
  answers_eq : (draftSetRun source path segments).2.1 = (plainSetRun source segments).2
  rest_answers_eq : (run JournalDraftSet.step (draftSetRun source path segments).1 rest).2 =
      (run plainSetStep (plainSetRun source segments).1 rest).2
  source_eq : (run JournalDraftSet.step (draftSetRun source path segments).1 rest).1.source = source
  adopt_eq : (run JournalDraftSet.step (draftSetRun source path segments).1 rest).1.adopt =
      (run plainSetStep (plainSetRun source segments).1 rest).1
  reports_eq : (draftSetRun source path segments).2.2.flatten.foldl
      replayReportedMember source = (plainSetRun source segments).1

theorem setFaithful (source : OrderedSet K) (path : String)
    (segments : List (List (SetOp K))) (rest : List (SetOp K)) :
    SetFaithful source path segments rest := by
  obtain ⟨hanswers, hreports, hdrafted⟩ := runSegments_simulates
    JournalDraftSet.step plainSetStep JournalDraftSet.takeChanges
    (fun set changes => changes.foldl replayReportedMember set)
    (fun draft current mark =>
      draft.Tracks current mark ∧ draft.source = source)
    (by
      rintro draft current mark op ⟨h, hsource⟩
      obtain ⟨hanswer, hnext, hkept⟩ := JournalDraftSet.step_tracks h op
      exact ⟨hanswer, hnext, hkept.trans hsource⟩)
    (by
      rintro draft current mark ⟨h, hsource⟩
      exact ⟨h.takeChanges.1, h.takeChanges.2, hsource⟩)
    segments ⟨JournalDraftSet.tracks_ofSource source path, rfl⟩
  obtain ⟨hrest, hlast, hsource⟩ := run_simulates JournalDraftSet.step plainSetStep
    (fun draft current =>
      draft.Tracks current (plainSetRun source segments).1 ∧ draft.source = source)
    (by
      rintro draft current op ⟨h, hsource⟩
      obtain ⟨hanswer, hnext, hkept⟩ := JournalDraftSet.step_tracks h op
      exact ⟨hanswer, hnext, hkept.trans hsource⟩)
    rest hdrafted
  exact
    { answers_eq := hanswers
      rest_answers_eq := hrest
      source_eq := hsource
      adopt_eq := hlast.adopt_eq
      reports_eq := foldl_flatten.trans hreports }

/-- A draft map and a draft set answer, commit and report as plain copies of
their sources, for every sequence of operations and every split into reported
segments. -/
theorem draft_collections_faithful : (∀ (source : OrderedMap K V) (path : String)
      (segments : List (List (MapOp K V))) (rest : List (MapOp K V)),
        MapFaithful source path segments rest) ∧
    ∀ (source : OrderedSet K) (path : String)
      (segments : List (List (SetOp K))) (rest : List (SetOp K)),
        SetFaithful source path segments rest :=
  ⟨mapFaithful, setFaithful⟩

end Wakii.TransitionCollections
