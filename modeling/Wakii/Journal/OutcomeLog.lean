import Mathlib.Data.List.MinMax
import Mathlib.Data.List.Sort
import Wakii.Journal.OutcomeCollections
import Wakii.Library.FixedWidth

/-!
# The outcome log

A row's outcomes are stored as records, one for each changed key, and only
inserted.  Reading folds each key's newest record over the frozen prefix.  The
place of a key is not stored: the record's ordinal says whether the key keeps
the prefix's place or was appended, and when.  This module shows that the fold
gives back the live collections, their iteration order included.
-/

namespace Wakii.OutcomeLog

open List OrderedCollections TransitionCollections OutcomeCollections FixedWidth

variable {V : Type*}

/-! ## Fields and ordinals -/

def outcomeFormat1Collections : List String :=
  ["items", "itemFences", "itemExecutionOwners", "providerActivityAt",
    "tombstones", "removedTurnIds", "submissions", "receipts", "aliases",
    "itemEchoes", "appliedSettlementIds", "stoppedHistoryCarried",
    "queuedHandOffPlaces", "normalizedHandOffs", "queue.cards"]

def nativeFields : List String := ["inputEntries", "inputCards"]

def isNativeOutcomeField (field : String) : Bool :=
  decide (field ∈ nativeFields)

/-- The changes a row records: those of collections the format stores. -/
def isStoredField (field : String) : Bool :=
  isNativeOutcomeField field || decide (field ∈ outcomeFormat1Collections)

/-- A key first written over a frozen input prefix keeps the place the prefix
gave it. -/
def journalPrefixOrdinal : String := "b"

def appended (seq index : ℕ) : String :=
  "s" ++ String.ofList (padded 16 seq) ++ ":" ++ String.ofList (padded 16 index)

theorem appended_ne_prefixOrdinal (seq index : ℕ) : appended seq index ≠ journalPrefixOrdinal := by
  intro h
  have hlist := congrArg String.toList h
  simp [appended, journalPrefixOrdinal] at hlist

theorem appended_lt {seq seq' index index' : ℕ}
    (hseq : seq < 10 ^ 16) (hseq' : seq' < 10 ^ 16) (hindex : index' < 10 ^ 16)
    (hlt : seq < seq' ∨ seq = seq' ∧ index < index') :
    appended seq index < appended seq' index' := by
  rw [String.lt_iff_toList_lt]
  simp only [appended, String.toList_append, String.toList_ofList, append_assoc]
  apply append_left_lt
  cases hlt with
  | inl hlt =>
    apply lt_append_of_lt _ (padded_lt 15 hlt hseq')
    rw [length_padded 15 hseq, length_padded 15 hseq']
  | inr hlt =>
    obtain ⟨rfl, hlt⟩ := hlt
    apply append_left_lt
    apply append_left_lt
    exact padded_lt 15 hlt hindex

/-! ## The table -/

/-- One stored record.  A set member or a deletion stores no value. -/
structure JournalOutcome (V : Type*) where
  seq : ℕ
  field : String
  key : String
  ordinal : String
  value : Option V
  deleted : Bool

structure EncodedOutcome (V : Type*) where
  field : String
  key : String
  value : Option V
  deleted : Bool

def newest (table : List (JournalOutcome V)) (field key : String) : Option (JournalOutcome V) :=
  (table.filter fun record =>
    decide (record.field = field ∧ record.key = key)).argmax (·.seq)

/-- The place a record gives its key: a created key takes its place in the
row's touch order, a key that existed keeps its place. -/
def outcomeOrdinal (prefixRows : ℕ) (kept : Option (JournalOutcome V))
    (change : Option (JournalEntryChange String V)) (seq index : ℕ) : String :=
  if change.any (·.reinsert) then appended seq index
  else
    match kept with
    | some kept => if kept.deleted then appended seq index else kept.ordinal
    | none =>
      if 0 < prefixRows ∧ change.isSome then journalPrefixOrdinal
      else appended seq index

def insertOutcomes (prefixRows seq : ℕ) (changes : List (JournalEntryChange String V)) :
    ℕ → List (EncodedOutcome V) → List (JournalOutcome V) → List (JournalOutcome V)
  | _, [], table => table
  | index, value :: rest, table =>
    insertOutcomes prefixRows seq changes (index + 1) rest
      (table ++ [{
        seq
        field := value.field
        key := value.key
        ordinal := outcomeOrdinal prefixRows
          (newest table value.field value.key) changes[index]? seq index
        value := value.value
        deleted := value.deleted }])

section Newest

variable {table : List (JournalOutcome V)} {field key : String} {record : JournalOutcome V}

theorem newest_spec (h : newest table field key = some record) :
    record.field = field ∧ record.key = key := by
  have hmem := argmax_mem h
  simpa using (mem_filter.mp hmem).2

theorem newest_append_ne (hrecord : ¬(record.field = field ∧ record.key = key)) :
    newest (table ++ [record]) field key = newest table field key := by
  rw [newest, filter_append]
  simp [newest, hrecord]

theorem newest_append_self
    (hnewer : ∀ kept, newest table record.field record.key = some kept → kept.seq < record.seq) :
    newest (table ++ [record]) record.field record.key = some record := by
  have hsingle : [record].filter (fun other =>
      decide (other.field = record.field ∧ other.key = record.key)) = [record] := by
    simp
  rw [newest, filter_append, hsingle, argmax_concat]
  cases hkept : newest table record.field record.key with
  | none =>
    rw [newest] at hkept
    rw [hkept]
  | some kept =>
    have hlt := hnewer kept hkept
    rw [newest] at hkept
    rw [hkept]
    exact if_pos hlt

variable {prefixRows seq : ℕ} {changes : List (JournalEntryChange String V)}

theorem insertOutcomes_append (index : ℕ) (first second : List (EncodedOutcome V)) :
    insertOutcomes prefixRows seq changes index (first ++ second) table =
      insertOutcomes prefixRows seq changes (index + first.length) second
        (insertOutcomes prefixRows seq changes index first table) := by
  induction first generalizing index table with
  | nil => rfl
  | cons value rest ih =>
    rw [cons_append, insertOutcomes, ih, insertOutcomes, length_cons]
    congr 1
    omega

theorem newest_insertOutcomes_other (index : ℕ)
    {values : List (EncodedOutcome V)}
    (hvalues : ∀ value ∈ values, ¬(value.field = field ∧ value.key = key)) :
    newest (insertOutcomes prefixRows seq changes index values table)
      field key = newest table field key := by
  induction values generalizing index table with
  | nil => rfl
  | cons value rest ih =>
    rw [insertOutcomes, ih (index + 1) fun other hother =>
        hvalues other (mem_cons_of_mem _ hother)]
    exact newest_append_ne (hvalues value mem_cons_self)

theorem newest_insertOutcomes_mem {first second : List (EncodedOutcome V)}
    {value : EncodedOutcome V}
    (hfirst : ∀ other ∈ first, ¬(other.field = value.field ∧ other.key = value.key))
    (hsecond : ∀ other ∈ second, ¬(other.field = value.field ∧ other.key = value.key))
    (hnewer : ∀ kept, newest table value.field value.key = some kept → kept.seq < seq) :
    newest
      (insertOutcomes prefixRows seq changes 0 (first ++ value :: second)
        table) value.field value.key =
      some {
        seq
        field := value.field
        key := value.key
        ordinal := outcomeOrdinal prefixRows
          (newest table value.field value.key) changes[first.length]?
          seq first.length
        value := value.value
        deleted := value.deleted } := by
  rw [insertOutcomes_append, insertOutcomes, Nat.zero_add, newest_insertOutcomes_other _ hsecond,
    newest_insertOutcomes_other 0 hfirst]
  apply newest_append_self
  rw [newest_insertOutcomes_other 0 hfirst]
  exact hnewer

end Newest

/-! ## What the table knows of a collection -/

/-- A stored queue card leaves out its derived recovery link. -/
def storedValue (withoutRecovers : V → V) (field : String) (value : Option V) : Option V :=
  if field = "queue.cards" then value.map withoutRecovers else value

@[simp]
theorem isSome_storedValue (withoutRecovers : V → V) (field : String) (value : Option V) :
    (storedValue withoutRecovers field value).isSome = value.isSome := by
  rw [storedValue]
  split <;> simp

def ordinalOf (table : List (JournalOutcome V)) (field key : String) :
    String :=
  (newest table field key).elim "" (·.ordinal)

/-- The record a row inserts for the key at `index` of its changes. -/
def keyRecord (withoutRecovers : V → V) (prefixRows : ℕ)
    (table : List (JournalOutcome V)) (field : String) (seq index : ℕ)
    (current : Collection V) (recreated : OrderedSet String) (key : String) :
    JournalOutcome V :=
  { seq
    field
    key
    ordinal := outcomeOrdinal prefixRows (newest table field key)
      (some (reportedChange field current recreated key)) seq index
    value :=
      if key ∈ current.view then
        storedValue withoutRecovers field (current.view.lookup key).join
      else none
    deleted := decide (key ∉ current.view) }

/-- The newest records of a field, all up to row `bound`, describe how the
live collection came from the prefix: `placed` are the keys that do not hold
the prefix's place. -/
structure Logged (withoutRecovers : V → V) (bound : ℕ)
    (table : List (JournalOutcome V)) (field : String)
    (base live : Collection V) (placed : List String) : Prop where
  kind : live.isMap = base.isMap
  seq_le : ∀ key record, newest table field key = some record → record.seq ≤ bound
  ordinals : ∀ key record, newest table field key = some record →
    record.ordinal = journalPrefixOrdinal ∨
      ∃ seq index, record.ordinal = appended seq index ∧ seq ≤ bound
  unrecorded : ∀ key, newest table field key = none → live.view.lookup key = base.view.lookup key
  present : ∀ key record, newest table field key = some record →
    record.deleted = false → ∃ value, live.view.lookup key = some value ∧
      record.value = storedValue withoutRecovers field value
  gone : ∀ key record, newest table field key = some record →
    record.deleted = true → key ∉ live.view
  keys_eq : live.view.keys =
    base.view.keys.filter (fun key => key ∈ live.view ∧ key ∉ placed) ++ placed
  placed_iff : ∀ key, key ∈ placed ↔ ∃ record, newest table field key = some record ∧
      record.deleted = false ∧ record.ordinal ≠ journalPrefixOrdinal
  sorted : placed.Pairwise fun left right =>
    ordinalOf table field left < ordinalOf table field right

namespace Logged

variable {withoutRecovers : V → V} {bound : ℕ}
  {table : List (JournalOutcome V)} {field : String}
  {base live : Collection V} {placed : List String}

theorem start (withoutRecovers : V → V) (bound : ℕ) (field : String) (base : Collection V) :
    Logged withoutRecovers bound [] field base base [] where
  kind := rfl
  seq_le := by
    intro key record hrecord
    exact absurd hrecord (by simp [newest])
  ordinals := by
    intro key record hrecord
    exact absurd hrecord (by simp [newest])
  unrecorded := fun _ _ => rfl
  present := by
    intro key record hrecord
    exact absurd hrecord (by simp [newest])
  gone := by
    intro key record hrecord
    exact absurd hrecord (by simp [newest])
  keys_eq := by
    rw [append_nil, eq_comm, filter_eq_self]
    intro key hkey
    simpa using AList.mem_keys.mpr hkey
  placed_iff := by
    intro key
    simp [newest]
  sorted := List.Pairwise.nil

section

variable (h : Logged withoutRecovers bound table field base live placed)
include h

theorem mem_live {key : String} (hkey : key ∈ placed) : key ∈ live.view := by
  rw [AList.mem_keys, h.keys_eq]
  exact mem_append_right _ hkey

theorem mem_base {key : String} (hkey : key ∈ live.view)
    (hrecord : newest table field key = none) : key ∈ base.view := by
  rw [← AList.lookup_isSome] at hkey ⊢
  rwa [h.unrecorded key hrecord] at hkey

theorem ordinalOf_nodup : (placed.map (ordinalOf table field)).Nodup := by
  rw [List.Nodup, pairwise_map]
  exact List.Pairwise.imp ne_of_lt h.sorted

theorem placed_nodup : placed.Nodup := Nodup.of_map _ h.ordinalOf_nodup

theorem ordinalOf_injOn {left right : String} (hleft : left ∈ placed) (hright : right ∈ placed)
    (heq : ordinalOf table field left = ordinalOf table field right) :
    left = right :=
  inj_on_of_nodup_map h.ordinalOf_nodup hleft hright heq

theorem mono {next : ℕ} (hbound : bound ≤ next) :
    Logged withoutRecovers next table field base live placed :=
  { h with
    seq_le := fun key record hrecord =>
      (h.seq_le key record hrecord).trans hbound
    ordinals := by
      intro key record hrecord
      refine (h.ordinals key record hrecord).imp_right ?_
      rintro ⟨seq, index, hordinal, hseq⟩
      exact ⟨seq, index, hordinal, hseq.trans hbound⟩ }

end

section Row

variable {prefixRows seq first : ℕ} {current : Collection V}
  {recreated pending : OrderedSet String}
  {written : List (JournalOutcome V)}

/-- What a row writes for a field: a record for each pending key, at the key's
place in the report, and nothing for any other key. -/
structure Writes (withoutRecovers : V → V) (prefixRows : ℕ)
    (table written : List (JournalOutcome V)) (field : String)
    (seq first : ℕ) (current : Collection V)
    (recreated pending : OrderedSet String) : Prop where
  recorded : ∀ key, key ∈ pending →
    newest written field key = some (keyRecord withoutRecovers prefixRows
      table field seq (first + pending.elems.idxOf key) current recreated key)
  untouched : ∀ key, key ∉ pending → newest written field key = newest table field key

variable {key : String}

theorem kept_place (h : Logged withoutRecovers bound table field base live placed)
    (hempty : ∀ key, key ∈ base.view → 0 < prefixRows)
    (hsegment : Overlay live.view current.view recreated pending) (hcurrent : key ∈ current.view)
    (hrecreated : key ∉ recreated) (seq index : ℕ) :
    (key ∈ placed ∧ (keyRecord withoutRecovers prefixRows table field seq
        index current recreated key).ordinal = ordinalOf table field key) ∨
      (key ∉ placed ∧ (keyRecord withoutRecovers prefixRows table field seq
        index current recreated key).ordinal = journalPrefixOrdinal) := by
  have hlive : key ∈ live.view := hsegment.mem_base hcurrent hrecreated
  have hplaced := h.placed_iff key
  cases hrecord : newest table field key with
  | none =>
    have hprefix := hempty key (h.mem_base hlive hrecord)
    refine Or.inr ⟨fun hmem => ?_, ?_⟩
    · obtain ⟨record, hsome, _⟩ := hplaced.mp hmem
      rw [hrecord] at hsome
      cases hsome
    · simp [keyRecord, outcomeOrdinal, reportedChange, hrecreated, hrecord, hprefix]
  | some record =>
    have hdeleted : record.deleted = false := by
      cases hcase : record.deleted with
      | false => rfl
      | true => exact absurd hlive (h.gone key record hrecord hcase)
    have hordinal : (keyRecord withoutRecovers prefixRows table field seq
        index current recreated key).ordinal = record.ordinal := by
      simp [keyRecord, outcomeOrdinal, reportedChange, hrecreated, hrecord, hdeleted]
    rw [hordinal, ordinalOf, hrecord]
    by_cases hb : record.ordinal = journalPrefixOrdinal
    · refine Or.inr ⟨fun hmem => ?_, hb⟩
      obtain ⟨other, hsome, _, hne⟩ := hplaced.mp hmem
      rw [hrecord, Option.some.injEq] at hsome
      exact hne (hsome ▸ hb)
    · exact Or.inl ⟨hplaced.mpr ⟨record, hrecord, hdeleted, hb⟩, rfl⟩

theorem created_ordinal (hrecreated : key ∈ recreated) (index : ℕ) :
    (keyRecord withoutRecovers prefixRows table field seq index current
      recreated key).ordinal = appended seq index := by
  simp [keyRecord, outcomeOrdinal, reportedChange, hrecreated]

private theorem pairwise_idxOf {keys : List String} (hnodup : keys.Nodup) :
    keys.Pairwise fun left right => keys.idxOf left < keys.idxOf right := by
  rw [pairwise_iff_getElem]
  intro left right hleft hright hlt
  rwa [hnodup.idxOf_getElem left hleft, hnodup.idxOf_getElem right hright]

def placedAfter (placed : List String) (current : Collection V)
    (recreated : OrderedSet String) : List String :=
  placed.filter (fun key => key ∈ current.view ∧ key ∉ recreated) ++ recreated.elems

theorem mem_placedAfter : key ∈ placedAfter placed current recreated ↔
      (key ∈ placed ∧ key ∈ current.view ∧ key ∉ recreated) ∨ key ∈ recreated := by
  simp [placedAfter, OrderedSet.mem_elems]

section

variable (h : Logged withoutRecovers bound table field base live placed)
  (hempty : ∀ key, key ∈ base.view → 0 < prefixRows)
  (hsegment : Overlay live.view current.view recreated pending)
  (hwrites : Writes withoutRecovers prefixRows table written field seq first current
    recreated pending)
include h hempty hsegment hwrites

theorem ordinalOf_kept (hkey : key ∈ placed) (hcurrent : key ∈ current.view)
    (hrecreated : key ∉ recreated) :
    ordinalOf written field key = ordinalOf table field key := by
  by_cases hpending : key ∈ pending
  · rw [ordinalOf, hwrites.recorded key hpending]
    cases h.kept_place hempty hsegment hcurrent hrecreated seq
        (first + pending.elems.idxOf key) with
    | inl hkept => exact hkept.2
    | inr hprefix => exact absurd hkey hprefix.1
  · rw [ordinalOf, ordinalOf, hwrites.untouched key hpending]

private theorem placedAfter_iff (key : String) :
    key ∈ placedAfter placed current recreated ↔ ∃ record, newest written field key = some record ∧
        record.deleted = false ∧ record.ordinal ≠ journalPrefixOrdinal := by
  rw [mem_placedAfter]
  by_cases hpending : key ∈ pending
  · simp only [hwrites.recorded key hpending, Option.some.injEq, exists_eq_left']
    by_cases hcurrent : key ∈ current.view
    · have hdeleted : ∀ index, (keyRecord withoutRecovers prefixRows table field seq index
            current recreated key).deleted = false := by
        intro index
        simp [keyRecord, hcurrent]
      by_cases hrecreated : key ∈ recreated
      · apply iff_of_true (Or.inr hrecreated)
        refine ⟨hdeleted _, ?_⟩
        rw [created_ordinal hrecreated]
        exact appended_ne_prefixOrdinal _ _
      · cases h.kept_place hempty hsegment hcurrent hrecreated seq
            (first + pending.elems.idxOf key) with
        | inl hkept =>
          obtain ⟨record, hrecord, _, hne⟩ := (h.placed_iff key).mp hkept.1
          have hordinal : ordinalOf table field key = record.ordinal := by
            rw [ordinalOf, hrecord]
            rfl
          apply iff_of_true (Or.inl ⟨hkept.1, hcurrent, hrecreated⟩)
          refine ⟨hdeleted _, ?_⟩
          rw [hkept.2, hordinal]
          exact hne
        | inr hprefix =>
          apply iff_of_false
          · exact fun hcase => hcase.elim (fun hkept => hprefix.1 hkept.1) hrecreated
          · exact fun hplace => hplace.2 hprefix.2
    · have hrecreated : key ∉ recreated := fun hmem => hcurrent (hsegment.mem_current hmem)
      simp [hcurrent, hrecreated, keyRecord]
  · have hrecreated : key ∉ recreated := fun hmem => hpending (hsegment.mem_touched hmem)
    rw [hwrites.untouched key hpending, ← h.placed_iff key]
    have hsame : key ∈ current.view ↔ key ∈ live.view := by
      rw [← AList.lookup_isSome, ← AList.lookup_isSome, hsegment.lookup_eq key hpending]
    constructor
    · rintro (hkept | hmem)
      · exact hkept.1
      · exact absurd hmem hrecreated
    · intro hplaced
      exact Or.inl ⟨hplaced, hsame.mpr (h.mem_live hplaced), hrecreated⟩

private theorem placedAfter_sorted (hbound : bound < seq) (hseq : seq < 10 ^ 16)
    (hlength : first + pending.elems.length ≤ 10 ^ 16) :
    (placedAfter placed current recreated).Pairwise fun left right =>
      ordinalOf written field left < ordinalOf written field right := by
  have hcreated : ∀ key, key ∈ recreated → ordinalOf written field key =
        appended seq (first + pending.elems.idxOf key) := by
    intro key hkey
    rw [ordinalOf, hwrites.recorded key (hsegment.mem_touched hkey)]
    exact created_ordinal hkey _
  have hindex : ∀ key, key ∈ recreated →
      first + pending.elems.idxOf key < 10 ^ 16 := by
    intro key hkey
    have hlt := idxOf_lt_length_of_mem (OrderedSet.mem_elems.mpr (hsegment.mem_touched hkey))
    omega
  have hkept : ∀ key, key ∈ placed.filter (fun key => key ∈ current.view ∧ key ∉ recreated) →
      ordinalOf written field key = ordinalOf table field key := by
    intro key hkey
    rw [mem_filter, decide_eq_true_eq] at hkey
    exact h.ordinalOf_kept hempty hsegment hwrites hkey.1 hkey.2.1 hkey.2.2
  rw [placedAfter, pairwise_append]
  refine ⟨?_, ?_, ?_⟩
  · apply Pairwise.imp_of_mem _ (h.sorted.filter _)
    intro left right hleft hright hlt
    rwa [hkept left hleft, hkept right hright]
  · -- Created keys stand in the report's order.
    have hsub : recreated.elems.Sublist pending.elems := by
      rw [← hsegment.order_eq]
      exact filter_sublist
    apply Pairwise.imp_of_mem _ ((pairwise_idxOf pending.nodup).sublist hsub)
    intro left right hleft hright hlt
    rw [hcreated left hleft, hcreated right hright]
    exact appended_lt hseq hseq (hindex right hright) (Or.inr ⟨rfl, Nat.add_lt_add_left hlt first⟩)
  · -- An older row's ordinal is smaller than any of this row.
    intro left hleft right hright
    rw [hkept left hleft, hcreated right hright]
    have hplaced := (mem_filter.mp hleft).1
    obtain ⟨record, hrecord, _, hne⟩ := (h.placed_iff left).mp hplaced
    obtain ⟨older, index, hordinal, holder⟩ := (h.ordinals left record hrecord).resolve_left hne
    rw [ordinalOf, hrecord, Option.elim_some, hordinal]
    have hlt : older < seq := Nat.lt_of_le_of_lt holder hbound
    exact appended_lt (hlt.trans hseq) hseq (hindex right hright) (Or.inl hlt)

end

private theorem placedAfter_keys_eq (h : Logged withoutRecovers bound table field base live placed)
    (hsegment : Overlay live.view current.view recreated pending) :
    current.view.keys = base.view.keys.filter (fun key =>
        key ∈ current.view ∧ key ∉ placedAfter placed current recreated) ++
      placedAfter placed current recreated := by
  rw [hsegment.keys_eq, h.keys_eq, filter_append, filter_filter, append_assoc]
  congr 1
  apply filter_congr
  intro key _
  rw [Bool.eq_iff_iff]
  simp only [Bool.and_eq_true, decide_eq_true_eq, mem_placedAfter]
  constructor
  · rintro ⟨⟨hcurrent, hrecreated⟩, _, hplaced⟩
    exact ⟨hcurrent, by tauto⟩
  · rintro ⟨hcurrent, hplaced⟩
    have hrecreated : key ∉ recreated := fun hmem => hplaced (Or.inr hmem)
    have hlive := hsegment.mem_base hcurrent hrecreated
    exact ⟨⟨hcurrent, hrecreated⟩, hlive, by tauto⟩

/-- Writing one row's records keeps the table's account of the collection. -/
theorem row (h : Logged withoutRecovers bound table field base live placed)
    (hempty : ∀ key, key ∈ base.view → 0 < prefixRows)
    (hkind : current.isMap = live.isMap)
    (hsegment : Overlay live.view current.view recreated pending)
    (hwrites : Writes withoutRecovers prefixRows table written field seq first
      current recreated pending)
    (hbound : bound < seq) (hseq : seq < 10 ^ 16)
    (hlength : first + pending.elems.length ≤ 10 ^ 16) :
    Logged withoutRecovers seq written field base current
      (placedAfter placed current recreated) where
  kind := hkind.trans h.kind
  seq_le := by
    intro key record hrecord
    by_cases hpending : key ∈ pending
    · rw [hwrites.recorded key hpending, Option.some.injEq] at hrecord
      rw [← hrecord]
      exact le_rfl
    · rw [hwrites.untouched key hpending] at hrecord
      exact (h.seq_le key record hrecord).trans hbound.le
  ordinals := by
    intro key record hrecord
    by_cases hpending : key ∈ pending
    · rw [hwrites.recorded key hpending, Option.some.injEq] at hrecord
      rw [← hrecord]
      simp only [keyRecord, outcomeOrdinal]
      split
      · exact Or.inr ⟨seq, _, rfl, le_rfl⟩
      · split
        · next kept hkept =>
            split
            · exact Or.inr ⟨seq, _, rfl, le_rfl⟩
            · cases h.ordinals key kept hkept with
              | inl hb => exact Or.inl hb
              | inr hs =>
                obtain ⟨older, index, hordinal, holder⟩ := hs
                exact Or.inr ⟨older, index, hordinal, holder.trans hbound.le⟩
        · split
          · exact Or.inl rfl
          · exact Or.inr ⟨seq, _, rfl, le_rfl⟩
    · rw [hwrites.untouched key hpending] at hrecord
      exact (h.mono hbound.le).ordinals key record hrecord
  unrecorded := by
    intro key hrecord
    by_cases hpending : key ∈ pending
    · rw [hwrites.recorded key hpending] at hrecord
      cases hrecord
    · rw [hwrites.untouched key hpending] at hrecord
      rw [hsegment.lookup_eq key hpending, h.unrecorded key hrecord]
  present := by
    intro key record hrecord hdeleted
    by_cases hpending : key ∈ pending
    · rw [hwrites.recorded key hpending, Option.some.injEq] at hrecord
      subst hrecord
      have hcurrent : key ∈ current.view := by
        simpa [keyRecord] using hdeleted
      obtain ⟨value, hvalue⟩ := Option.isSome_iff_exists.mp (AList.lookup_isSome.mpr hcurrent)
      exact ⟨value, hvalue, by simp [keyRecord, hcurrent, hvalue]⟩
    · rw [hwrites.untouched key hpending] at hrecord
      rw [hsegment.lookup_eq key hpending]
      exact h.present key record hrecord hdeleted
  gone := by
    intro key record hrecord hdeleted
    by_cases hpending : key ∈ pending
    · rw [hwrites.recorded key hpending, Option.some.injEq] at hrecord
      subst hrecord
      simpa [keyRecord] using hdeleted
    · rw [hwrites.untouched key hpending] at hrecord
      rw [← AList.lookup_eq_none, hsegment.lookup_eq key hpending, AList.lookup_eq_none]
      exact h.gone key record hrecord hdeleted
  keys_eq := h.placedAfter_keys_eq hsegment
  placed_iff := h.placedAfter_iff hempty hsegment hwrites
  sorted := h.placedAfter_sorted hempty hsegment hwrites hbound hseq hlength

end Row

end Logged

end Wakii.OutcomeLog
