import Mathlib.Data.List.Dedup
import Wakii.Journal.OutcomeLog

/-!
# Reading the outcome log

The reader takes each key's newest record, sorts a field's records by ordinal
and applies them to the frozen prefix.  A collection of the first format gives
up a key's old place before it is placed anew; a native collection is only
written, since its prefix is detached before the fold.
-/

namespace Wakii.OutcomeFold

open List OrderedCollections OutcomeCollections OutcomeLog OrderedMap

variable {V : Type*}

def applyFormat1 (collection : Collection V) (record : JournalOutcome V) : Collection V :=
  let cleared :=
    if record.deleted || record.ordinal ≠ journalPrefixOrdinal then
      collection.remove record.key
    else collection
  if record.deleted then cleared else cleared.entry record.key record.value

def decodeNativeOutcome (collection : Collection V) (record : JournalOutcome V) : Collection V :=
  if record.deleted then collection.remove record.key
  else collection.entry record.key record.value

/-- Folds the newest records of one field over its prefix. -/
def finishField (field : String) (records : List (JournalOutcome V))
    (base : Collection V) : Collection V :=
  (records.insertionSort fun left right => left.ordinal ≤ right.ordinal).foldl
    (if isNativeOutcomeField field then decodeNativeOutcome else applyFormat1)
    base

def newestOutcomes (table : List (JournalOutcome V)) : List (JournalOutcome V) :=
  (table.map fun record => (record.field, record.key)).dedup.filterMap
    fun place => newest table place.1 place.2

/-- What the reader holds of a field: each recorded key's newest record,
once. -/
structure ReadsNewest (table : List (JournalOutcome V)) (field : String)
    (records : List (JournalOutcome V)) : Prop where
  mem_iff : ∀ record, record ∈ records ↔ newest table field record.key = some record
  nodup : (records.map (·.key)).Nodup

/-- The newest records may be read in any order. -/
theorem readsNewest_of_perm {table read : List (JournalOutcome V)}
    (hread : read.Perm (newestOutcomes table)) (field : String) :
    ReadsNewest table field
      (read.filter fun record => decide (record.field = field)) := by
  have hmem : ∀ record, record ∈ newestOutcomes table ↔
      newest table record.field record.key = some record := by
    intro record
    simp only [newestOutcomes, mem_filterMap, mem_dedup, mem_map, Prod.exists]
    constructor
    · rintro ⟨field, key, _, hnewest⟩
      obtain ⟨rfl, rfl⟩ := newest_spec hnewest
      exact hnewest
    · intro hnewest
      have htable := (mem_filter.mp (argmax_mem hnewest)).1
      exact ⟨_, _, ⟨record, htable, rfl⟩, hnewest⟩
  have hplaces : (newestOutcomes table).Pairwise fun left right =>
      ¬(left.field = right.field ∧ left.key = right.key) := by
    rw [newestOutcomes, pairwise_filterMap]
    apply List.Pairwise.imp _ (nodup_dedup _)
    intro left right hne first hfirst second hsecond hsame
    obtain ⟨hfield, hkey⟩ := newest_spec hfirst
    obtain ⟨hfield', hkey'⟩ := newest_spec hsecond
    apply hne
    ext
    · rw [← hfield, hsame.1, hfield']
    · rw [← hkey, hsame.2, hkey']
  constructor
  · intro record
    rw [mem_filter, hread.mem_iff, hmem, decide_eq_true_eq]
    constructor
    · rintro ⟨hnewest, rfl⟩
      exact hnewest
    · intro hnewest
      obtain ⟨hfield, _⟩ := newest_spec hnewest
      exact ⟨hfield ▸ hnewest, hfield⟩
  · have hsymm : ∀ {left right : JournalOutcome V},
        ¬(left.field = right.field ∧ left.key = right.key) →
          ¬(right.field = left.field ∧ right.key = left.key) :=
      fun hne hsame => hne ⟨hsame.1.symm, hsame.2.symm⟩
    have hpairwise := (hread.pairwise_iff hsymm).mpr hplaces
    rw [List.Nodup, pairwise_map]
    apply Pairwise.imp_of_mem _ (hpairwise.filter _)
    intro left right hleft hright hne hkey
    simp only [mem_filter, decide_eq_true_eq] at hleft hright
    exact hne ⟨hleft.2.trans hright.2.symm, hkey⟩

/-! ## The fold over a field -/

def storedView (withoutRecovers : V → V) (table : List (JournalOutcome V))
    (field : String) (live : Collection V) :
    OrderedMap String (Option V) :=
  live.view.mapValues fun key value =>
    if (newest table field key).isSome then
      storedValue withoutRecovers field value
    else value

def recordChange (record : JournalOutcome V) : Change String (Option V) :=
  { key := record.key
    kept := if record.deleted then none else some record.value
    reinsert := decide (record.ordinal ≠ journalPrefixOrdinal) }

variable {collection : Collection V}

theorem view_applyFormat1 {record : JournalOutcome V}
    (hvalue : record.deleted = false → record.value.isSome = collection.isMap) :
    (applyFormat1 collection record).view = (recordChange record).replay collection.view ∧
      (applyFormat1 collection record).isMap = collection.isMap := by
  cases hdeleted : record.deleted with
  | true =>
    simp [applyFormat1, hdeleted, Change.replay, Change.clear, recordChange, Collection.view_remove]
  | false =>
    have hvalue := hvalue hdeleted
    by_cases hordinal : record.ordinal = journalPrefixOrdinal
    · simp [applyFormat1, hdeleted, hordinal, Change.replay, Change.clear,
        recordChange, Collection.view_entry _ _ hvalue]
    · have hcleared : record.value.isSome = (collection.remove record.key).isMap := by
        rw [hvalue, Collection.isMap_remove]
      simp [applyFormat1, hdeleted, hordinal, Change.replay, Change.clear,
        recordChange, Collection.view_entry _ _ hcleared,
        Collection.view_remove]

variable {records : List (JournalOutcome V)}

theorem view_foldl_applyFormat1 (hvalues : ∀ record ∈ records, record.deleted = false →
      record.value.isSome = collection.isMap) :
    (records.foldl applyFormat1 collection).view =
        replayAll collection.view (records.map recordChange) ∧
      (records.foldl applyFormat1 collection).isMap = collection.isMap := by
  induction records generalizing collection with
  | nil => exact ⟨rfl, rfl⟩
  | cons record rest ih =>
    obtain ⟨hview, hkind⟩ := view_applyFormat1 (hvalues record mem_cons_self)
    have hrest : ∀ other ∈ rest, other.deleted = false →
        other.value.isSome = (applyFormat1 collection record).isMap := by
      intro other hother hdeleted
      rw [hkind]
      exact hvalues other (mem_cons_of_mem _ hother) hdeleted
    rw [foldl_cons, (ih hrest).1, (ih hrest).2, hview, hkind]
    exact ⟨rfl, rfl⟩

theorem decodeNativeOutcome_of_not_mem {record : JournalOutcome V}
    (hkey : record.key ∉ collection.view) :
    decodeNativeOutcome collection record = applyFormat1 collection record := by
  have hremove : collection.remove record.key = collection := by
    apply Collection.eq_of_view_eq (Collection.isMap_remove _ _)
    rw [Collection.view_remove, OrderedMap.erase_of_not_mem hkey]
  rw [decodeNativeOutcome, applyFormat1, hremove]
  split <;> simp

theorem foldl_decodeNativeOutcome
    (hvalues : ∀ record ∈ records, record.deleted = false → record.value.isSome = collection.isMap)
    (hnodup : (records.map (·.key)).Nodup)
    (hkeys : ∀ record ∈ records, record.key ∉ collection.view) :
    records.foldl decodeNativeOutcome collection = records.foldl applyFormat1 collection := by
  induction records generalizing collection with
  | nil => rfl
  | cons record rest ih =>
    rw [map_cons, nodup_cons] at hnodup
    obtain ⟨hview, hkind⟩ := view_applyFormat1 (hvalues record mem_cons_self)
    rw [foldl_cons, foldl_cons, decodeNativeOutcome_of_not_mem (hkeys record mem_cons_self)]
    apply ih
    · intro other hother hdeleted
      rw [hkind]
      exact hvalues other (mem_cons_of_mem _ hother) hdeleted
    · exact hnodup.2
    · intro other hother hmem
      have hne : other.key ≠ record.key := fun heq =>
        hnodup.1 (heq ▸ mem_map_of_mem hother)
      apply hkeys other (mem_cons_of_mem _ hother)
      rw [← AList.lookup_isSome, hview, Change.lookup_replay_ne _ _ hne] at hmem
      exact AList.lookup_isSome.mp hmem

section Field

variable {withoutRecovers : V → V} {bound : ℕ}
  {table records : List (JournalOutcome V)} {field : String}
  {base live : Collection V} {placed : List String}

/-- Sorted by ordinal, the placed keys of the records read are in place
order. -/
theorem sorted_filter_placed (h : Logged withoutRecovers bound table field base live placed)
    (hread : ReadsNewest table field records) :
    ((records.insertionSort fun left right =>
        left.ordinal ≤ right.ordinal).map (·.key)).filter (· ∈ placed) =
      placed := by
  have hperm := perm_insertionSort
    (fun left right : JournalOutcome V => left.ordinal ≤ right.ordinal) records
  have hordinal : ∀ record ∈ records.insertionSort (fun left right => left.ordinal ≤ right.ordinal),
      ordinalOf table field record.key = record.ordinal := by
    intro record hrecord
    rw [ordinalOf, (hread.mem_iff record).mp (hperm.mem_iff.mp hrecord)]
    rfl
  have hsorted : ((records.insertionSort fun left right =>
      left.ordinal ≤ right.ordinal).map (·.key)).Pairwise fun left right =>
        ordinalOf table field left ≤ ordinalOf table field right := by
    rw [pairwise_map]
    apply Pairwise.imp_of_mem _ (pairwise_insertionSort _ records)
    intro left right hleft hright hle
    rwa [hordinal left hleft, hordinal right hright]
  have hplaced : placed.Pairwise fun left right =>
      ordinalOf table field left ≤ ordinalOf table field right :=
    List.Pairwise.imp le_of_lt h.sorted
  apply Perm.eq_of_pairwise _ (hsorted.filter _) hplaced
  · -- Both lists hold the placed keys, each once.
    rw [perm_ext_iff_of_nodup (((hperm.map _).nodup_iff.mpr hread.nodup).filter _) h.placed_nodup]
    intro key
    rw [mem_filter, decide_eq_true_eq, (hperm.map _).mem_iff,
      and_iff_right_iff_imp, h.placed_iff key]
    rintro ⟨record, hrecord, _, _⟩
    obtain ⟨_, rfl⟩ := newest_spec hrecord
    exact mem_map_of_mem ((hread.mem_iff record).mpr hrecord)
  · intro left right hleft hright hle hge
    exact h.ordinalOf_injOn (of_decide_eq_true (mem_filter.mp hleft).2) hright (le_antisymm hle hge)

theorem mem_storedView {key : String} :
    key ∈ storedView withoutRecovers table field live ↔ key ∈ live.view :=
  mem_mapValues _

section

variable (h : Logged withoutRecovers bound table field base live placed)
include h

/-- The prefix and the stored view differ by the records read. -/
theorem overlay_storedView (hread : ReadsNewest table field records) {touched : OrderedSet String}
    (htouched : touched.elems = (records.insertionSort fun left right =>
      left.ordinal ≤ right.ordinal).map (·.key)) :
    Overlay base.view (storedView withoutRecovers table field live)
      ⟨placed, h.placed_nodup⟩ touched where
  keys_eq := by
    simp only [storedView, keys_mapValues, mem_mapValues]
    exact h.keys_eq
  lookup_eq := by
    intro key hkey
    have hnone : newest table field key = none := by
      cases hrecord : newest table field key with
      | none => rfl
      | some record =>
        obtain ⟨_, rfl⟩ := newest_spec hrecord
        have hmem : record.key ∈ touched.elems := by
          rw [htouched]
          apply mem_map_of_mem
          rw [mem_insertionSort]
          exact (hread.mem_iff record).mpr hrecord
        exact absurd hmem hkey
    rw [storedView, lookup_mapValues, h.unrecorded key hnone]
    simp [hnone]
  order_eq := by
    rw [htouched]
    exact sorted_filter_placed h hread

theorem replay_recordChange {record : JournalOutcome V}
    (hrecord : newest table field record.key = some record)
    (map : OrderedMap String (Option V)) :
    (recordChange record).replay map = Change.replay
        { key := record.key
          kept := (storedView withoutRecovers table field live).lookup
            record.key
          reinsert := decide (record.key ∈ placed) } map := by
  cases hdeleted : record.deleted with
  | true =>
    have hnone : (storedView withoutRecovers table field live).lookup record.key = none := by
      rw [AList.lookup_eq_none, mem_storedView]
      exact h.gone _ record hrecord hdeleted
    simp [recordChange, hdeleted, Change.replay, Change.clear, hnone]
  | false =>
    obtain ⟨value, hvalue, hstored⟩ := h.present _ record hrecord hdeleted
    have hlookup : (storedView withoutRecovers table field live).lookup
        record.key = some record.value := by
      rw [storedView, lookup_mapValues, hvalue]
      simp [hrecord, hstored]
    have hplaced : record.key ∈ placed ↔ record.ordinal ≠ journalPrefixOrdinal := by
      rw [h.placed_iff]
      simp [hrecord, hdeleted]
    rw [hlookup]
    simp [recordChange, hdeleted, hplaced]

theorem value_isSome {record : JournalOutcome V}
    (hrecord : newest table field record.key = some record)
    (hdeleted : record.deleted = false) :
    record.value.isSome = base.isMap := by
  obtain ⟨value, hvalue, hstored⟩ := h.present _ record hrecord hdeleted
  rw [hstored, isSome_storedValue, ← h.kind]
  exact Collection.isSome_of_lookup_view hvalue

/-- Folding a field's newest records over the prefix gives the live collection
as its records hold it. -/
theorem view_finishField (hread : ReadsNewest table field records)
    (hnative : isNativeOutcomeField field → base.view = ∅) :
    (finishField field records base).view = storedView withoutRecovers table field live ∧
      (finishField field records base).isMap = base.isMap := by
  have hperm := perm_insertionSort
    (fun left right : JournalOutcome V => left.ordinal ≤ right.ordinal) records
  have hnodup : ((records.insertionSort fun left right =>
      left.ordinal ≤ right.ordinal).map (·.key)).Nodup :=
    (hperm.map _).nodup_iff.mpr hread.nodup
  have hrecord : ∀ record ∈ records.insertionSort (fun left right => left.ordinal ≤ right.ordinal),
      newest table field record.key = some record := fun record hmem =>
    (hread.mem_iff record).mp (hperm.mem_iff.mp hmem)
  have hvalues : ∀ record ∈ records.insertionSort (fun left right => left.ordinal ≤ right.ordinal),
      record.deleted = false → record.value.isSome = base.isMap :=
    fun record hmem => value_isSome h (hrecord record hmem)
  have hfold : finishField field records base = (records.insertionSort fun left right =>
        left.ordinal ≤ right.ordinal).foldl applyFormat1 base := by
    rw [finishField]
    split
    · next hfield =>
        apply foldl_decodeNativeOutcome hvalues hnodup
        intro record _
        rw [hnative hfield]
        exact AList.notMem_empty _
    · rfl
  obtain ⟨hview, hkind⟩ := view_foldl_applyFormat1 hvalues
  rw [hfold]
  refine ⟨?_, hkind⟩
  have hoverlay : Overlay base.view (storedView withoutRecovers table field live)
      ⟨placed, h.placed_nodup⟩ ⟨_, hnodup⟩ :=
    overlay_storedView h hread rfl
  rw [hview, ← hoverlay.replay_changes, replayAll, replayAll,
    Overlay.changes, foldl_map, map_map, foldl_map]
  apply foldl_ext
  intro map record hmem
  exact replay_recordChange h (hrecord record hmem) map

end

end Field

end Wakii.OutcomeFold
