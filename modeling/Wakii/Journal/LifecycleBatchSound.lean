import Mathlib.Data.List.Nodup
import Wakii.Journal.LifecycleBatch
import Wakii.Library.Batches
import Wakii.Library.JsonFields

/-!
# Chunks of a settlement fit their rows

The loop's running totals are the cost of the pending chunk, so the chunks are the
batches of the mutations by that cost.  A row of a chunk takes no more bytes than
was measured: its numbers are no wider, its settlement id is no longer than the one
measured with, and a Stop widens a body no more than was allowed for.
-/

namespace Wakii.LifecycleBatch

open List Json

open Json (IntegerFormat field? fieldBytes fieldsBytes maxSafeInteger setField)

section Numbers

variable {N : Type} [IntCast N] (format : IntegerFormat N)

theorem byteLength_natural {natural : ℕ} (hsafe : natural ≤ maxSafeInteger) :
    Json.byteLength format.toNumberFormat (number natural) =
      (Json.decimalFormat.text natural).length := by
  have hinteger : ((natural : ℤ)).natAbs ≤ maxSafeInteger := by
    rwa [Int.natAbs_natCast]
  rw [number, byteLength_number, format.text_intCast _ hinteger, length_integerText_natCast]

theorem byteLength_number_le {natural : ℕ} (hsafe : natural ≤ maxSafeInteger) :
    Json.byteLength format.toNumberFormat (number natural) ≤
      Json.byteLength format.toNumberFormat (number maxSafeInteger) := by
  rw [byteLength_natural format hsafe, byteLength_natural format (Nat.le_refl _)]
  exact length_decimal_mono hsafe

end Numbers

section Bodies

variable {N : Type} {body : List (Text × Json N)}

theorem reads_setField {key other text : Text} {value : Json N} (hother : other ≠ key) :
    reads other text (setField key value body) = reads other text body := by
  rw [reads, reads, field?_setField_of_ne hother]

theorem reads_unique {key text other : Text} (hreads : reads key text body = true)
    (hother : text ≠ other) : reads key other body = false := by
  rw [reads] at hreads ⊢
  split at hreads
  next value hvalue =>
    rw [decide_eq_true_eq] at hreads
    rw [hreads]
    exact decide_eq_false hother
  next => cases hreads

theorem isTurn_turnEndAfterStop (stopEndsTurn : Bool) :
    isTurn (turnEndAfterStop stopEndsTurn body) = isTurn body := by
  rw [turnEndAfterStop]
  split_ifs
  · exact reads_setField (by decide)
  · rfl

variable [IntCast N] [LE N] [DecidableLE N]

theorem boundRunningToolOutput_turn (hturn : isTurn body = true) :
    boundRunningToolOutput body = body := by
  have hkind : reads kindKey (Text.ofString "tool-call") body = false :=
    reads_unique hturn (by decide)
  rw [boundRunningToolOutput, hkind]
  rfl

theorem isTurn_boundRunningToolOutput : isTurn (boundRunningToolOutput body) = isTurn body := by
  rw [boundRunningToolOutput]
  split_ifs
  · rfl
  · split
    · exact reads_setField (by decide)
    · rfl

/-- A Stop widens a body no more than it was measured for. -/
theorem byteLength_body_le (format : IntegerFormat N) (stopEndsTurn : Bool) :
    Json.byteLength format.toNumberFormat
        (.object (boundRunningToolOutput (turnEndAfterStop stopEndsTurn body))) ≤
      Json.byteLength format.toNumberFormat
        (.object (boundRunningToolOutput (if awaitsStop body then cancelled body else body))) := by
  by_cases hawaits : awaitsStop body = true
  · rw [if_pos hawaits]
    cases stopEndsTurn with
    | true =>
      rw [turnEndAfterStop, hawaits]
      exact Nat.le_refl _
    | false =>
      have hsame : turnEndAfterStop false body = body := by
        rw [turnEndAfterStop, Bool.and_false]
        rfl
      rw [awaitsStop, Bool.and_eq_true, Bool.and_eq_true, Option.isNone_iff_eq_none] at hawaits
      obtain ⟨⟨hturn, -⟩, hnone⟩ := hawaits
      have hcancelled : isTurn (cancelled body) = true := by
        rw [isTurn, cancelled, reads_setField (by decide)]
        exact hturn
      have hsome : body ≠ [] := by
        rintro rfl
        cases hturn
      rw [hsame, boundRunningToolOutput_turn hturn, boundRunningToolOutput_turn hcancelled,
        cancelled, setField_of_notMem (field?_eq_none.mp hnone),
        byteLength_object _ hsome, byteLength_object _ (by simp),
        fieldsBytes_append]
      omega
  · have hsame : turnEndAfterStop stopEndsTurn body = body := by
      rw [Bool.not_eq_true] at hawaits
      rw [turnEndAfterStop, hawaits]
      rfl
    rw [if_neg hawaits, hsame]

end Bodies

section Rows

variable {N : Type} [IntCast N] [LE N] [DecidableLE N] (format : IntegerFormat N)

theorem byteLength_row_le (mutation : JournalLifecycleMutationInput N) {written : Written}
    (hrevision : written.revision ≤ maxSafeInteger)
    (hfence : written.ownerFence ≤ maxSafeInteger) :
    Json.byteLength format.toNumberFormat (written.row mutation) ≤
      lifecycleMutationBytes format mutation := by
  have hwidth := byteLength_number_le format hrevision
  have howner := byteLength_number_le format hfence
  cases mutation with
  | tombstone address =>
    rw [Written.row, lifecycleMutationBytes, toLifecycleMutationRow]
    change Json.byteLength _ (.object [_, _, _]) ≤ Json.byteLength _ (.object [_, _, _])
    rw [byteLength_object _ (cons_ne_nil _ _), byteLength_object _ (cons_ne_nil _ _)]
    simp only [fieldsBytes_cons, fieldsBytes_nil, fieldBytes, JournalLifecycleMutationInput.address]
    omega
  | item address item =>
    have hbody := @byteLength_body_le N item.body _ _ _ format written.stopEndsTurn
    have hsized : sizedAsStopped (.item address item) = .item address
        { item with body := if awaitsStop item.body then cancelled item.body else item.body } := by
      rw [sizedAsStopped]
      split_ifs <;> rfl
    rw [Written.row, lifecycleMutationBytes, toLifecycleMutationRow, hsized, afterStop,
      journalLifecycleMutationRow, journalLifecycleMutationRow]
    dsimp only
    rw [byteLength_object _ (by simp), byteLength_object _ (by simp)]
    simp only [fieldsBytes_append, fieldsBytes_cons, fieldsBytes_nil, fieldBytes,
      JournalLifecycleMutationInput.address]
    omega

end Rows

section Costs

variable {N : Type} [IntCast N] [LE N] [DecidableLE N] (format : IntegerFormat N)

def chunkVersion (mutations : List (JournalLifecycleMutationInput N)) : ℕ :=
  journalRowSchemaVersion (mutations.filterMap JournalLifecycleMutationInput.body?)

def chunkBytes (mutations : List (JournalLifecycleMutationInput N)) : ℕ :=
  (mutations.map (lifecycleMutationBytes format)).sum + (mutations.length - 1)

def chunkCost (overhead : ℕ → ℕ) (mutations : List (JournalLifecycleMutationInput N)) : ℕ :=
  chunkBytes format mutations + overhead (chunkVersion mutations)

section

variable (mutations : List (JournalLifecycleMutationInput N))
  (mutation : JournalLifecycleMutationInput N)

theorem chunkBytes_append :
    chunkBytes format (mutations ++ [mutation]) = chunkBytes format mutations +
      (lifecycleMutationBytes format mutation + if mutations.length > 0 then 1 else 0) := by
  rw [chunkBytes, chunkBytes, map_append, sum_append, length_append]
  simp only [map_cons, map_nil, sum_cons, sum_nil, length_cons, length_nil]
  split_ifs <;> omega

omit [IntCast N] [LE N] [DecidableLE N] in
theorem chunkVersion_append : chunkVersion (mutations ++ [mutation]) =
      max (chunkVersion mutations) (mutationSchemaVersion mutation) := by
  have hlast : [mutation].filterMap JournalLifecycleMutationInput.body? =
      mutation.body?.toList := by
    cases mutation <;> rfl
  rw [chunkVersion, chunkVersion, mutationSchemaVersion, filterMap_append, hlast,
    journalRowSchemaVersion, journalRowSchemaVersion, journalRowSchemaVersion, any_append]
  cases (mutations.filterMap JournalLifecycleMutationInput.body?).any isTurn <;>
    cases mutation.body?.toList.any isTurn <;> rfl

end

structure Tracks (state : Pending N) (filling : List (List (JournalLifecycleMutationInput N)) ×
    List (JournalLifecycleMutationInput N)) : Prop where
  chunks : state.chunks = filling.1
  pending : state.pending = filling.2
  bytes : state.pendingBytes = chunkBytes format state.pending
  version : state.pendingVersion = chunkVersion state.pending

variable {format} {state : Pending N} {filling : List (List (JournalLifecycleMutationInput N)) ×
  List (JournalLifecycleMutationInput N)}

section

variable (htracks : Tracks format state filling)
include htracks

theorem Tracks.flush : Tracks format state.flush (filling.1 ++ [filling.2], []) where
  chunks := by rw [Pending.flush, htracks.chunks, htracks.pending]
  pending := rfl
  bytes := rfl
  version := rfl

theorem Tracks.add (mutation : JournalLifecycleMutationInput N) : Tracks format
      (state.add (lifecycleMutationBytes format mutation) (mutationSchemaVersion mutation) mutation)
      (filling.1, filling.2 ++ [mutation]) where
  chunks := htracks.chunks
  pending := by rw [Pending.add, htracks.pending]
  bytes := by
    dsimp only [Pending.add]
    rw [htracks.bytes, chunkBytes_append]
  version := by
    dsimp only [Pending.add]
    rw [htracks.version, chunkVersion_append]

/-- A mutation that does not fit opens the next batch. -/
theorem Tracks.addMutation (overhead : ℕ → ℕ) (mutation : JournalLifecycleMutationInput N) :
    Tracks format (addMutation format overhead state mutation)
      (Batches.push (chunkCost format overhead) MAX_JOURNAL_LIFECYCLE_BATCH_BYTES
        MAX_JOURNAL_LIFECYCLE_BATCH_MUTATIONS filling mutation) := by
  have hadd {room : Pending N} {batch} (hroom : Tracks format room batch) : Tracks format
        (if (room.add (lifecycleMutationBytes format mutation) (mutationSchemaVersion mutation)
            mutation).pending.length = MAX_JOURNAL_LIFECYCLE_BATCH_MUTATIONS then
          (room.add (lifecycleMutationBytes format mutation) (mutationSchemaVersion mutation)
            mutation).flush
        else room.add (lifecycleMutationBytes format mutation) (mutationSchemaVersion mutation)
          mutation)
        (if (batch.2 ++ [mutation]).length = MAX_JOURNAL_LIFECYCLE_BATCH_MUTATIONS then
          (batch.1 ++ [batch.2 ++ [mutation]], [])
        else (batch.1, batch.2 ++ [mutation])) := by
    have hadded := hroom.add mutation
    rw [hadded.pending]
    split_ifs
    · exact hadded.flush
    · exact hadded
  have hcost : state.pendingBytes + lifecycleMutationBytes format mutation +
          (if state.pending.length > 0 then 1 else 0) +
          overhead (max state.pendingVersion (mutationSchemaVersion mutation)) =
        chunkCost format overhead (filling.2 ++ [mutation]) := by
    rw [chunkCost, ← htracks.pending, chunkBytes_append, chunkVersion_append, htracks.bytes,
      htracks.version, Nat.add_assoc (chunkBytes format state.pending)]
  have hiff : (state.pending.length > 0 ∧ MAX_JOURNAL_LIFECYCLE_BATCH_BYTES <
      state.pendingBytes + lifecycleMutationBytes format mutation +
        (if state.pending.length > 0 then 1 else 0) +
        overhead (max state.pendingVersion (mutationSchemaVersion mutation))) ↔
      filling.2 ≠ [] ∧ MAX_JOURNAL_LIFECYCLE_BATCH_BYTES <
        chunkCost format overhead (filling.2 ++ [mutation]) := by
    have hsome : filling.2 ≠ [] ↔ state.pending.length > 0 := by
      rw [← htracks.pending, ← length_pos_iff]
    rw [hsome]
    exact and_congr_right fun hpending => by rw [hcost]
  rw [LifecycleBatch.addMutation, Batches.push]
  simp only [hiff]
  by_cases hover : filling.2 ≠ [] ∧ MAX_JOURNAL_LIFECYCLE_BATCH_BYTES <
      chunkCost format overhead (filling.2 ++ [mutation])
  · rw [if_pos hover, if_pos hover]
    exact hadd htracks.flush
  · rw [if_neg hover, if_neg hover]
    exact hadd htracks

theorem Tracks.closed :
    (if state.pending.length > 0 then state.chunks ++ [state.pending] else state.chunks) =
      Batches.closed filling := by
  rw [Batches.closed, htracks.chunks, htracks.pending]
  by_cases hnil : filling.2 = []
  · rw [if_pos hnil, hnil]
    exact if_neg (Nat.lt_irrefl 0)
  · rw [if_neg hnil, if_pos (length_pos_iff.mpr hnil)]

end

theorem Tracks.run (overhead : ℕ → ℕ) (mutations : List (JournalLifecycleMutationInput N)) :
    Tracks format (mutations.foldl (LifecycleBatch.addMutation format overhead)
        ⟨[], [], 0, journalRowSchemaVersion (N := N) []⟩)
      (mutations.foldl (Batches.push (chunkCost format overhead)
        MAX_JOURNAL_LIFECYCLE_BATCH_BYTES MAX_JOURNAL_LIFECYCLE_BATCH_MUTATIONS) ([], [])) := by
  induction mutations using List.reverseRecOn with
  | nil => exact ⟨rfl, rfl, rfl, rfl⟩
  | append_singleton before mutation ih =>
    rw [foldl_append, foldl_append]
    exact ih.addMutation overhead mutation

end Costs

section Ids

theorem byteLength_chunkSettlementId (settlementId : Text) (index total : ℕ) :
    Text.byteLength (Json.quote (chunkSettlementId settlementId index total)) =
      Text.byteLength (Json.quote settlementId) +
        ((Json.decimalFormat.text (index + 1)).length + (Json.decimalFormat.text total).length +
          2) := by
  have hplain : ∀ unit ∈ (0x3A :: (Json.decimalFormat.text (index + 1) ++
      0x2F :: Json.decimalFormat.text total) : Text), Json.isPlain unit = true := by
    intro unit hunit
    rcases mem_cons.mp hunit with rfl | hrest
    · rfl
    · rcases mem_append.mp hrest with hplace | htotal
      · exact isPlain_decimal _ unit hplace
      · rcases mem_cons.mp htotal with rfl | hdigit
        · rfl
        · exact isPlain_decimal _ unit hdigit
  rw [chunkSettlementId, byteLength_quote_append settlementId hplain, length_cons,
    length_append, length_cons]
  omega

theorem byteLength_chunkSettlementId_le (settlementId : Text) {index total count : ℕ}
    (hindex : index < total) (htotal : total ≤ count) :
    Text.byteLength (Json.quote (chunkSettlementId settlementId index total)) ≤
      Text.byteLength (Json.quote (chunkSettlementId settlementId (count - 1) count)) := by
  have hplace : (Json.decimalFormat.text (index + 1)).length ≤
      (Json.decimalFormat.text (count - 1 + 1)).length :=
    length_decimal_mono (by omega)
  have hcount := length_decimal_mono htotal
  rw [byteLength_chunkSettlementId, byteLength_chunkSettlementId]
  omega

theorem chunkSettlementId_injective {settlementId : Text} {index other total : ℕ}
    (hsame : chunkSettlementId settlementId index total =
      chunkSettlementId settlementId other total) : index = other := by
  rw [chunkSettlementId, chunkSettlementId] at hsame
  have hplaces := append_cancel_right (List.cons.inj (append_cancel_left hsame)).2
  have hvalue := congrArg Json.decimalFormat.value hplaces
  rw [decimalFormat.value_text, decimalFormat.value_text] at hvalue
  exact Nat.succ_injective hvalue

end Ids

section Written

variable {N : Type} [IntCast N] [LE N] [DecidableLE N]
  {mutations : List (JournalLifecycleMutationInput N)} {written : List Written}

theorem version_written (hlength : written.length = mutations.length) :
    journalRowSchemaVersion (written.zipWith Written.body? mutations).reduceOption =
      chunkVersion mutations := by
  have hany : (written.zipWith Written.body? mutations).reduceOption.any isTurn =
      (mutations.filterMap JournalLifecycleMutationInput.body?).any isTurn := by
    induction mutations generalizing written with
    | nil => rw [zipWith_nil_right]; rfl
    | cons mutation rest ih =>
      obtain _ | ⟨first, later⟩ := written
      · cases hlength
      · have hrest := ih (Nat.succ.inj hlength)
        cases mutation with
        | tombstone address => exact hrest
        | item address item =>
          change (isTurn (boundRunningToolOutput (turnEndAfterStop first.stopEndsTurn
            item.body)) || _) = (isTurn item.body || _)
          rw [isTurn_boundRunningToolOutput, isTurn_turnEndAfterStop]
          exact congrArg (isTurn item.body || ·) hrest
  rw [journalRowSchemaVersion, hany, chunkVersion, journalRowSchemaVersion]

variable (format : IntegerFormat N)

theorem byteLength_rows_le (hsome : mutations ≠ []) (hlength : written.length = mutations.length)
    (hsafe : ∀ fixed ∈ written,
      fixed.revision ≤ maxSafeInteger ∧ fixed.ownerFence ≤ maxSafeInteger) :
    Json.byteLength format.toNumberFormat (.array (written.zipWith Written.row mutations)) ≤
      chunkBytes format mutations + 2 := by
  have hsum : ((written.zipWith Written.row mutations).map fun row =>
        Json.byteLength format.toNumberFormat row + 1).sum ≤
      (mutations.map (lifecycleMutationBytes format)).sum + mutations.length := by
    clear hsome
    induction mutations generalizing written with
    | nil => rw [zipWith_nil_right]; exact Nat.le_refl 0
    | cons mutation rest ih =>
      obtain _ | ⟨first, later⟩ := written
      · cases hlength
      · have hfirst := hsafe first mem_cons_self
        have hrow := byteLength_row_le format mutation hfirst.1 hfirst.2
        have hrest := ih (Nat.succ.inj hlength) fun fixed hfixed =>
          hsafe fixed (mem_cons_of_mem _ hfixed)
        rw [zipWith_cons_cons, map_cons, sum_cons, map_cons, sum_cons, length_cons]
        omega
  have hrows : written.zipWith Written.row mutations ≠ [] := by
    rw [← length_pos_iff, length_zipWith, hlength, Nat.min_self]
    exact length_pos_iff.mpr hsome
  have hcount := length_pos_iff.mpr hsome
  rw [byteLength_array _ hrows, chunkBytes]
  omega

theorem byteLength_batchRow_le {chunk : JournalLifecycleMutationChunk N} {probeId epoch : Text}
    {seq fence ts : ℕ} (options : JournalLifecycleBatchSizeOptions) (hsome : chunk.mutations ≠ [])
    (hlength : written.length = chunk.mutations.length)
    (hsafe : ∀ fixed ∈ written, fixed.revision ≤ maxSafeInteger ∧ fixed.ownerFence ≤ maxSafeInteger)
    (hid : Text.byteLength (Json.quote chunk.settlementId) ≤ Text.byteLength (Json.quote probeId))
    (hepoch : Text.byteLength (Json.quote epoch) ≤
      Text.byteLength (Json.quote (options.epoch.getD standInEpoch))) (hseq : seq ≤ maxSafeInteger)
    (hfence : fence ≤ maxSafeInteger) (hts : ts ≤ maxSafeInteger) :
    Json.byteLength format.toNumberFormat
        (batchRow chunk written epoch seq fence ts options.recovered) + 1 ≤
      chunkCost format (fun version =>
        serializedLifecycleBatchOverhead format probeId version options) chunk.mutations := by
  have hrows := byteLength_rows_le format hsome hlength hsafe
  have hseqBytes := byteLength_number_le format hseq
  have hfenceBytes := byteLength_number_le format hfence
  have htsBytes := byteLength_number_le format hts
  rw [batchRow, version_written hlength, journalLifecycleBatchRow, journalRowBase, chunkCost,
    serializedLifecycleBatchOverhead, byteLength_object _ (by simp),
    byteLength_object _ (by simp)]
  simp only [fieldsBytes_append, fieldsBytes_cons, fieldsBytes_nil, fieldBytes,
    byteLength_string, byteLength_array_nil]
  omega

end Written

section Partition

variable {N : Type} [IntCast N] [LE N] [DecidableLE N] (format : IntegerFormat N)

/-- The cost of a chunk, with the id its settlement's chunks are measured with. -/
def settlementCost (settlementId : Text) (count : ℕ) (options : JournalLifecycleBatchSizeOptions)
    (mutations : List (JournalLifecycleMutationInput N)) : ℕ :=
  chunkCost format (fun version => serializedLifecycleBatchOverhead format
    (chunkSettlementId settlementId (count - 1) count) version options) mutations

def settlementBatches (settlementId : Text) (options : JournalLifecycleBatchSizeOptions)
    (mutations : List (JournalLifecycleMutationInput N)) :
    List (List (JournalLifecycleMutationInput N)) :=
  Batches.batches (settlementCost format settlementId mutations.length options)
    MAX_JOURNAL_LIFECYCLE_BATCH_BYTES MAX_JOURNAL_LIFECYCLE_BATCH_MUTATIONS mutations

variable {mutations : List (JournalLifecycleMutationInput N)}

theorem partition_many (settlementId : Text) (options : JournalLifecycleBatchSizeOptions)
    (hmany : 1 < mutations.length) :
    partitionJournalLifecycleMutations format settlementId mutations options =
      (settlementBatches format settlementId options mutations).mapIdx fun index chunk =>
        ⟨if (settlementBatches format settlementId options mutations).length = 1 then settlementId
          else chunkSettlementId settlementId index
            (settlementBatches format settlementId options mutations).length, chunk⟩ := by
  obtain _ | ⟨first, _ | ⟨second, rest⟩⟩ := mutations
  · cases hmany
  · exact absurd hmany (Nat.lt_irrefl 1)
  · have htracks : Tracks format _ _ := Tracks.run (fun version =>
      serializedLifecycleBatchOverhead format (chunkSettlementId settlementId
        ((first :: second :: rest).length - 1) (first :: second :: rest).length) version options)
      (first :: second :: rest)
    have hclosed := htracks.closed
    rw [partitionJournalLifecycleMutations]
    · rw [hclosed]
      rfl
    · exact fun hnil => by cases hnil
    · exact fun mutation hone => by cases hone

variable {options : JournalLifecycleBatchSizeOptions}

theorem mem_partition {settlementId : Text} (hmany : 1 < mutations.length)
    {chunk : JournalLifecycleMutationChunk N}
    (hchunk : chunk ∈ partitionJournalLifecycleMutations format settlementId mutations options) :
    Batches.Fits (settlementCost format settlementId mutations.length options)
        MAX_JOURNAL_LIFECYCLE_BATCH_BYTES MAX_JOURNAL_LIFECYCLE_BATCH_MUTATIONS chunk.mutations ∧
      Text.byteLength (Json.quote chunk.settlementId) ≤ Text.byteLength (Json.quote
        (chunkSettlementId settlementId (mutations.length - 1) mutations.length)) := by
  have hcap : 0 < MAX_JOURNAL_LIFECYCLE_BATCH_MUTATIONS := by decide
  rw [partition_many format settlementId options hmany, mem_mapIdx] at hchunk
  obtain ⟨index, hindex, rfl⟩ := hchunk
  have hfits := Batches.fits_batches hcap mutations _ (getElem_mem hindex)
  refine ⟨hfits, ?_⟩
  dsimp only
  split_ifs with hone
  · rw [byteLength_chunkSettlementId]
    exact Nat.le_add_right _ _
  · exact byteLength_chunkSettlementId_le settlementId hindex
      (Batches.length_batches_le hcap mutations)

theorem nodup_settlementIds (settlementId : Text) (options : JournalLifecycleBatchSizeOptions)
    (mutations : List (JournalLifecycleMutationInput N)) :
    ((partitionJournalLifecycleMutations format settlementId mutations options).map
      fun chunk => chunk.settlementId).Nodup := by
  obtain _ | ⟨first, _ | ⟨second, rest⟩⟩ := mutations
  · exact nodup_nil
  · exact nodup_singleton _
  · rw [partition_many format settlementId options (by simp)]
    generalize settlementBatches format settlementId options (first :: second :: rest) = batches
    rw [nodup_iff_injective_getElem]
    rintro ⟨place, hplace⟩ ⟨other, hother⟩ hsame
    have hcounts : place < batches.length ∧ other < batches.length := by
      rw [length_map, length_mapIdx] at hplace hother
      exact ⟨hplace, hother⟩
    simp only [getElem_map, getElem_mapIdx] at hsame
    apply Fin.ext
    by_cases hone : batches.length = 1
    · dsimp only
      omega
    · rw [if_neg hone, if_neg hone] at hsame
      exact chunkSettlementId_injective hsame

/-- The epoch of a row: the one measured with, or one no longer than a generated one. -/
def MeasuredEpoch (options : JournalLifecycleBatchSizeOptions) (epoch : Text) : Prop :=
  match options.epoch with
  | some measured => epoch = measured
  | none => Text.byteLength (Json.quote epoch) ≤ Text.byteLength (Json.quote standInEpoch)

theorem MeasuredEpoch.le {epoch : Text} (hepoch : MeasuredEpoch options epoch) :
    Text.byteLength (Json.quote epoch) ≤
      Text.byteLength (Json.quote (options.epoch.getD standInEpoch)) := by
  rw [MeasuredEpoch] at hepoch
  split at hepoch
  next measured hmeasured => rw [hepoch, hmeasured, Option.getD_some]
  next hnone => rwa [hnone, Option.getD_none]

/-- Splitting a settlement loses nothing, and each chunk of several mutations fits a row,
its newline counted in. -/
theorem partition_loses_nothing_and_fits (settlementId : Text)
    (mutations : List (JournalLifecycleMutationInput N))
    (options : JournalLifecycleBatchSizeOptions) :
    let chunks := partitionJournalLifecycleMutations format settlementId mutations options
    chunks.flatMap (fun chunk => chunk.mutations) = mutations ∧
      (∀ chunk ∈ chunks, chunk.mutations ≠ []) ∧
      (chunks.map fun chunk => chunk.settlementId).Nodup ∧
      (∀ chunk, chunks = [chunk] → chunk.settlementId = settlementId) ∧
      (∀ chunk ∈ chunks, chunk.mutations.length ≤ MAX_JOURNAL_LIFECYCLE_BATCH_MUTATIONS) ∧
      ∀ chunk ∈ chunks, 1 < chunk.mutations.length →
        ∀ (written : List Written) (epoch : Text) (seq fence ts : ℕ),
          written.length = chunk.mutations.length →
          (∀ fixed ∈ written, fixed.revision ≤ maxSafeInteger ∧ fixed.ownerFence ≤ maxSafeInteger) →
          MeasuredEpoch options epoch → seq ≤ maxSafeInteger → fence ≤ maxSafeInteger →
          ts ≤ maxSafeInteger →
          Json.byteLength format.toNumberFormat
              (batchRow chunk written epoch seq fence ts options.recovered) + 1 ≤
            MAX_JOURNAL_LIFECYCLE_BATCH_BYTES := by
  have hnodup := nodup_settlementIds format settlementId options mutations
  obtain hfew | hmany := Nat.lt_or_ge 1 mutations.length |>.symm
  · have hsingle : ∀ chunk ∈
        partitionJournalLifecycleMutations format settlementId mutations options,
        chunk = ⟨settlementId, mutations⟩ ∧ mutations.length = 1 := by
      obtain _ | ⟨first, _ | ⟨second, rest⟩⟩ := mutations
      · exact fun chunk hchunk => absurd hchunk not_mem_nil
      · exact fun chunk hchunk => ⟨mem_singleton.mp hchunk, rfl⟩
      · exact absurd hfew (by simp)
    refine ⟨?_, fun chunk hchunk => ?_, hnodup, fun chunk hone => ?_, fun chunk hchunk => ?_,
      fun chunk hchunk hlength => ?_⟩
    · obtain _ | ⟨first, _ | ⟨second, rest⟩⟩ := mutations
      · rfl
      · rfl
      · exact absurd hfew (by simp)
    · obtain ⟨rfl, hlength⟩ := hsingle chunk hchunk
      exact length_pos_iff.mp (by dsimp only; omega)
    · exact congrArg (fun chunk => chunk.settlementId)
        (hsingle chunk (by rw [hone]; exact mem_singleton_self chunk)).1
    · obtain ⟨rfl, hlength⟩ := hsingle chunk hchunk
      exact hlength.trans_le (by decide)
    · obtain ⟨rfl, hsame⟩ := hsingle chunk hchunk
      exact absurd hlength (by dsimp only; omega)
  · have hcap : 0 < MAX_JOURNAL_LIFECYCLE_BATCH_MUTATIONS := by decide
    refine ⟨?_, fun chunk hchunk => (mem_partition format hmany hchunk).1.nonempty, hnodup,
      fun chunk hone => ?_, fun chunk hchunk => (mem_partition format hmany hchunk).1.length,
      fun chunk hchunk hlength written epoch seq fence ts hwritten hsafe hepoch hseq hfence hts =>
        ?_⟩
    · have hparts : (partitionJournalLifecycleMutations format settlementId mutations options).map
          (fun chunk => chunk.mutations) =
            settlementBatches format settlementId options mutations := by
        rw [partition_many format settlementId options hmany]
        refine ext_getElem (by rw [length_map, length_mapIdx]) fun index _ _ => ?_
        rw [getElem_map, getElem_mapIdx]
      rw [flatMap_def, hparts]
      exact Batches.flatten_batches hcap mutations
    · have hlength : (settlementBatches format settlementId options mutations).length = 1 := by
        have hcount := congrArg List.length (partition_many format settlementId options hmany)
        rw [length_mapIdx, hone, length_singleton] at hcount
        exact hcount.symm
      have hmem : chunk ∈
          partitionJournalLifecycleMutations format settlementId mutations options := by
        rw [hone]
        exact mem_singleton_self chunk
      rw [partition_many format settlementId options hmany, mem_mapIdx] at hmem
      obtain ⟨index, -, rfl⟩ := hmem
      exact if_pos hlength
    · obtain ⟨hfits, hid⟩ := mem_partition format hmany hchunk
      exact (byteLength_batchRow_le format options hfits.nonempty hwritten hsafe hid hepoch.le hseq
        hfence hts).trans (hfits.cost hlength)

def removals : List (JournalLifecycleMutationInput ℤ) :=
  [.tombstone (.itemId (Text.ofString "first")), .tombstone (.itemId (Text.ofString "second"))]

theorem partition_removals :
    let chunks := partitionJournalLifecycleMutations Json.integerFormat (Text.ofString "stop")
      removals ⟨true, none⟩
    chunks.map (fun chunk => (chunk.settlementId, chunk.mutations.length)) =
        [(Text.ofString "stop", 2)] ∧
      chunks.flatMap (fun chunk => chunk.mutations) = removals ∧
      ∀ chunk ∈ chunks, Json.byteLength Json.integerFormat.toNumberFormat
            (batchRow chunk [⟨false, 4, 7⟩, ⟨true, 1, 7⟩] standInEpoch 12 7 1700000000000 true) +
              1 ≤
          MAX_JOURNAL_LIFECYCLE_BATCH_BYTES := by
  have hsound := partition_loses_nothing_and_fits Json.integerFormat (Text.ofString "stop")
    removals ⟨true, none⟩
  have hchunks : (partitionJournalLifecycleMutations Json.integerFormat (Text.ofString "stop")
      removals ⟨true, none⟩).map (fun chunk => (chunk.settlementId, chunk.mutations.length)) =
        [(Text.ofString "stop", 2)] := by decide +kernel
  refine ⟨hchunks, hsound.1, fun chunk hchunk => ?_⟩
  have hlength : chunk.mutations.length = 2 := by
    have hmem := mem_map_of_mem (f := fun chunk : JournalLifecycleMutationChunk ℤ =>
      (chunk.settlementId, chunk.mutations.length)) hchunk
    rw [hchunks, mem_singleton] at hmem
    exact (Prod.mk.inj hmem).2
  exact hsound.2.2.2.2.2 chunk hchunk (by omega) _ _ _ _ _ hlength.symm (by decide) (Nat.le_refl _)
    (by decide) (by decide) (by decide)

end Partition

end Wakii.LifecycleBatch
