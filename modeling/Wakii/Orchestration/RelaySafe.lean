import Wakii.Orchestration.RelayImports
import Wakii.Orchestration.RelayRows

/-!
# What holds in every run of the relay

The rows, the imports and every page under way are numbered in a row, and they
agree wherever they overlap.  A report that takes the slot of a heartbeat the
home already knows is the one step that breaks this.
-/

namespace Wakii.FederationRelay

open List

variable {P : Type}

section Invariant

/-- A row of the relay holds what the item says; the payload of a heartbeat may be newer. -/
def Carries (items : List (RelayItem P)) (item : RelayWireItem P) : Prop :=
  ∃ row ∈ items, row.sequence = item.sequence ∧ row.messageId = item.messageId ∧
    row.kind = item.kind ∧ (item.kind ≠ .heartbeat → row.payload = item.payload)

/-- The items still to come continue a cursor the home has reached. -/
structure Held (items : List (RelayItem P)) (imported cursor : ℕ)
    (held : List (RelayWireItem P)) : Prop where
  reached : cursor ≤ imported
  in_order : Numbered.Run RelayWireItem.sequence (cursor + 1) held
  carried : ∀ item ∈ held, Carries items item

def PhaseOk (items : List (RelayItem P)) (imported : ℕ) (base : SyncBase) : SyncPhase P → Prop
  | .pulling => True
  | .pulled page => Held items imported (firstCursor base page) page.items
  | .importing _ rest progress =>
    Held items imported progress.cursor rest ∧
      ∀ barrier ∈ progress.barrier, barrier ≤ progress.cursor
  | .acknowledging _ request => request.throughSequence ≤ imported

def SyncOk (items : List (RelayItem P)) (imported : ℕ) (sync : Sync P) : Prop :=
  sync.base.importedSequence ≤ imported ∧ PhaseOk items imported sync.base sync.phase

/-- The rows and what the home imported of them. -/
structure RowsOk (items : List (RelayItem P)) (imports : List (RelayWireItem P))
    (imported : ℕ) : Prop where
  in_order : Numbered.Run RelayItem.sequence 1 items
  ids_nodup : (items.map RelayItem.messageId).Nodup
  acked : ∃ through ≤ imported, ∀ row ∈ items, row.acked = true ↔ row.sequence ≤ through
  imports_in_order : Numbered.Run RelayWireItem.sequence 1 imports
  imports_length : imports.length = imported
  imports_carried : ∀ item ∈ imports, Carries items item

structure HomeOk (home : Home) (imports : List (RelayWireItem P)) : Prop where
  acknowledged : home.acknowledgedSequence ≤ home.importedSequence
  checkpoint : ∀ checkpoint ∈ home.checkpoint, checkpoint.throughSequence ≤ home.importedSequence
  messages : ∀ item ∈ imports, ∃ message ∈ home.messages, message.id = item.messageId

/-- Every enqueue keeps its row, and every row but a heartbeat stems from one. -/
structure EnqueuedOk (items : List (RelayItem P))
    (enqueued : List (EnqueueParams P × RelayItem P)) : Prop where
  kept : ∀ entry ∈ enqueued, entry.1.kind ≠ .heartbeat →
    entry.2.kind = entry.1.kind ∧ entry.2.payload = entry.1.payload ∧
      Carries items (federationRelayWireItem entry.2)
  origin : ∀ row ∈ items, row.kind ≠ .heartbeat →
    ∃ entry ∈ enqueued, entry.1.messageId = row.messageId ∧ entry.1.kind = row.kind ∧
      entry.1.payload = row.payload ∧ entry.2.sequence = row.sequence

structure Invariant (relay : Relay P) : Prop where
  rows : RowsOk relay.host.items relay.imports relay.home.importedSequence
  home : HomeOk relay.home relay.imports
  syncs : ∀ sync ∈ relay.syncs, SyncOk relay.host.items relay.home.importedSequence sync
  requests : ∀ request ∈ relay.ackRequests, request.throughSequence ≤ relay.home.importedSequence
  enqueued : EnqueuedOk relay.host.items relay.enqueued
  refusals : ∀ refusal ∈ relay.refusals, refusal.isMisplaced = false

end Invariant

section Rows

variable {items next : List (RelayItem P)} {imports : List (RelayWireItem P)}
  {imported : ℕ} {apart : ℕ → Prop} {sequence : ℕ}

/-- The rows whose sequence is not set apart go on carrying what they carried. -/
def KeepsRows (items next : List (RelayItem P)) (apart : ℕ → Prop) : Prop :=
  ∀ row ∈ items, ¬ apart row.sequence → Carries next (federationRelayWireItem row)

theorem Carries.of_mem {row : RelayItem P} (hrow : row ∈ items) :
    Carries items (federationRelayWireItem row) :=
  ⟨row, hrow, rfl, rfl, rfl, fun _ => rfl⟩

theorem Carries.keep {item : RelayWireItem P} (hcarries : Carries items item)
    (hkeeps : KeepsRows items next apart) (hapart : ¬ apart item.sequence) :
    Carries next item := by
  obtain ⟨row, hrow, hsequence, hid, hkind, hpayload⟩ := hcarries
  obtain ⟨other, hother, hsequence', hid', hkind', hpayload'⟩ :=
    hkeeps row hrow (by rwa [hsequence])
  refine ⟨other, hother, hsequence'.trans hsequence, hid'.trans hid, hkind'.trans hkind, ?_⟩
  intro hnot
  have hrowKind : row.kind ≠ .heartbeat := hkind ▸ hnot
  exact (hpayload' hrowKind).trans (hpayload hnot)

theorem KeepsRows.of_mem (hsub : ∀ row ∈ items, row ∈ next) : KeepsRows items next apart :=
  fun row hrow _ => Carries.of_mem (hsub row hrow)

theorem Held.keep {later cursor : ℕ} {held : List (RelayWireItem P)}
    (hheld : Held items imported cursor held) (himported : imported ≤ later)
    (hkeeps : KeepsRows items next apart) (hapart : ∀ item ∈ held, ¬ apart item.sequence) :
    Held next later cursor held :=
  ⟨Nat.le_trans hheld.reached himported, hheld.in_order,
    fun item hitem => (hheld.carried item hitem).keep hkeeps (hapart item hitem)⟩

/-- The pulled items a sync has yet to import. -/
def SyncPhase.held : SyncPhase P → List (RelayWireItem P)
  | .pulled page => page.items
  | .importing _ rest _ => rest
  | .pulling | .acknowledging _ _ => []

theorem SyncOk.keep {later : ℕ} {sync : Sync P} (hsync : SyncOk items imported sync)
    (himported : imported ≤ later) (hkeeps : KeepsRows items next apart)
    (hapart : ∀ item ∈ sync.phase.held, ¬ apart item.sequence) : SyncOk next later sync := by
  obtain ⟨base, phase⟩ := sync
  obtain ⟨hbase, hphase⟩ := hsync
  refine ⟨Nat.le_trans hbase himported, ?_⟩
  cases phase with
  | pulling => trivial
  | pulled page => exact Held.keep hphase himported hkeeps hapart
  | importing page rest progress =>
    exact ⟨Held.keep hphase.1 himported hkeeps hapart, hphase.2⟩
  | acknowledging page request => exact Nat.le_trans hphase himported

theorem mem_updateItem {write : RelayItem P → RelayItem P} {row : RelayItem P} :
    row ∈ updateItem items sequence write ↔
      ∃ old ∈ items, (if old.sequence = sequence then write old else old) = row := by
  rw [updateItem, mem_map]

theorem updateItem_keeps {write : RelayItem P → RelayItem P} :
    KeepsRows items (updateItem items sequence write) (fun number => number = sequence) := by
  intro row hrow hapart
  exact Carries.of_mem (mem_updateItem.mpr ⟨row, hrow, if_neg hapart⟩)

section

variable (hrows : RowsOk items imports imported)
include hrows

theorem RowsOk.imported_le : imported ≤ items.length := by
  by_contra hmore
  have hlength := hrows.imports_length
  obtain ⟨item, hitem, hsequence⟩ := Numbered.exists_of_bounds hrows.imports_in_order
      (show 1 ≤ imported by omega) (show imported < 1 + imports.length by omega)
  obtain ⟨row, hrow, hnumber, -⟩ := hrows.imports_carried item hitem
  have hbounds := Numbered.bounds_of_mem hrows.in_order hrow
  omega

theorem RowsOk.update {write : RelayItem P → RelayItem P}
    (hsequence : ∀ row, (write row).sequence = row.sequence)
    (hacked : ∀ row, (write row).acked = row.acked)
    (hids : ((updateItem items sequence write).map RelayItem.messageId).Nodup)
    (hcarried : ∀ item ∈ imports, Carries (updateItem items sequence write) item) :
    RowsOk (updateItem items sequence write) imports imported := by
  refine ⟨?_, hids, ?_, hrows.imports_in_order, hrows.imports_length, hcarried⟩
  · refine (Numbered.run_map fun row => ?_).mpr hrows.in_order
    split
    · exact hsequence row
    · rfl
  · obtain ⟨through, hthrough, hmarked⟩ := hrows.acked
    refine ⟨through, hthrough, fun row hrow => ?_⟩
    obtain ⟨old, hold, hold'⟩ := mem_updateItem.mp hrow
    have hmark := hmarked old hold
    subst hold'
    split
    · rwa [hacked, hsequence]
    · exact hmark

theorem RowsOk.insert {row : RelayItem P} (hfresh : ∀ item ∈ items, item.messageId ≠ row.messageId)
    (hsequence : row.sequence = items.length + 1) (hacked : row.acked = false) :
    RowsOk (items ++ [row]) imports imported := by
  have himported := hrows.imported_le
  refine ⟨?_, ?_, ?_, hrows.imports_in_order, hrows.imports_length, ?_⟩
  · exact Numbered.run_concat hrows.in_order (by omega)
  · rw [map_append, nodup_append]
    refine ⟨hrows.ids_nodup, by simp, ?_⟩
    intro id hid other hother
    obtain ⟨item, hitem, rfl⟩ := mem_map.mp hid
    rw [map_singleton, mem_singleton] at hother
    exact hother ▸ hfresh item hitem
  · obtain ⟨through, hthrough, hmarked⟩ := hrows.acked
    refine ⟨through, hthrough, fun other hother => ?_⟩
    cases mem_append.mp hother with
    | inl hold => exact hmarked other hold
    | inr hnew =>
      rw [mem_singleton.mp hnew, hacked, hsequence]
      simp only [Bool.false_eq_true, false_iff]
      omega
  · intro item hitem
    exact (hrows.imports_carried item hitem).keep
      (@KeepsRows.of_mem _ _ _ (fun _ => False) fun row hrow => mem_append_left _ hrow) id

end

end Rows

section Enqueue

variable [DecidableEq P] {reader : PayloadReader P} {host next : Host P}
  {params : EnqueueParams P} {row : RelayItem P} {imports : List (RelayWireItem P)}
  {imported : ℕ} {enqueued : List (EnqueueParams P × RelayItem P)}

/-- The sequence an enqueue gives to another message. -/
def ChangesHands (reader : PayloadReader P) (host : Host P) (params : EnqueueParams P)
    (sequence : ℕ) : Prop :=
  ∃ heartbeat, takenSlot reader host params = some heartbeat ∧ heartbeat.sequence = sequence

omit [DecidableEq P] in
theorem RowsOk.heartbeat_apart {items : List (RelayItem P)} {heartbeat : RelayItem P}
    (hrows : RowsOk items imports imported) (hmem : heartbeat ∈ items)
    (hheartbeat : heartbeat.kind = .heartbeat) {row : RelayItem P} (hrow : row ∈ items)
    (hkind : row.kind ≠ .heartbeat) : row.sequence ≠ heartbeat.sequence := by
  intro hsame
  have hrowIs := Numbered.eq_of_number hrows.in_order hrow hmem hsame
  exact hkind (hrowIs ▸ hheartbeat)

section

variable (hrows : RowsOk host.items imports imported) (hok : Enqueued reader host next params row)
include hrows hok

theorem enqueue_keeps : KeepsRows host.items next.items (ChangesHands reader host params) := by
  cases hok with
  | coalesced heartbeat hkind hmem hpending hheartbeat hitems =>
    intro old hold hapart
    rw [hitems]
    by_cases hsame : old.sequence = heartbeat.sequence
    · have holdIs := Numbered.eq_of_number hrows.in_order hold hmem hsame
      refine ⟨refreshHeartbeat reader params old, ?_, rfl, rfl, rfl, ?_⟩
      · exact mem_updateItem.mpr ⟨old, hold, if_pos hsame⟩
      · intro hnot
        exact absurd (holdIs ▸ hheartbeat) hnot
    · exact updateItem_keeps old hold hsame
  | repeated hmem hkind hpayload hitems =>
    rw [hitems]
    exact KeepsRows.of_mem fun old hold => hold
  | displaced heartbeat htaken hmem hpending hheartbeat hfresh hrow hitems =>
    intro old hold hapart
    rw [hitems]
    refine updateItem_keeps old hold fun hsame => hapart ⟨heartbeat, htaken, hsame.symm⟩
  | inserted hfresh hrow hitems =>
    rw [hitems]
    exact KeepsRows.of_mem fun old hold => mem_append_left _ hold

/-- An enqueue that takes no imported slot keeps the rows in step with the imports. -/
theorem RowsOk.enqueue
    (hapart : ∀ item ∈ imports, ¬ ChangesHands reader host params item.sequence) :
    RowsOk next.items imports imported := by
  have hkeeps := enqueue_keeps hrows hok
  have hcarried : ∀ item ∈ imports, Carries next.items item := fun item hitem =>
    (hrows.imports_carried item hitem).keep hkeeps (hapart item hitem)
  cases hok with
  | coalesced heartbeat hkind hmem hpending hheartbeat hitems =>
    rw [hitems] at hcarried ⊢
    refine hrows.update (fun _ => rfl) (fun _ => rfl) ?_ hcarried
    have hids : (updateItem host.items heartbeat.sequence
        (refreshHeartbeat reader params)).map RelayItem.messageId =
          host.items.map RelayItem.messageId := by
      rw [updateItem, map_map]
      refine map_congr_left fun old hold => ?_
      simp only [Function.comp_apply]
      split <;> rfl
    rw [hids]
    exact hrows.ids_nodup
  | repeated hmem hkind hpayload hitems =>
    rw [hitems]
    exact hrows
  | displaced heartbeat htaken hmem hpending hheartbeat hfresh hrow hitems =>
    rw [hitems] at hcarried ⊢
    refine hrows.update (fun _ => rfl) (fun _ => rfl) ?_ hcarried
    have hdistinct : host.items.Nodup := Nodup.of_map _ hrows.ids_nodup
    rw [updateItem, map_map]
    refine Nodup.map_on (fun left hleft right hright hsame => ?_) hdistinct
    simp only [Function.comp_apply] at hsame
    -- the new id stands in one slot only, and the other ids were distinct before
    by_cases hl : left.sequence = heartbeat.sequence <;>
      by_cases hr : right.sequence = heartbeat.sequence
    · exact Numbered.eq_of_number hrows.in_order hleft hright (hl.trans hr.symm)
    · rw [if_pos hl, if_neg hr] at hsame
      exact absurd (hfresh right hright hsame.symm) hr
    · rw [if_neg hl, if_pos hr] at hsame
      exact absurd (hfresh left hleft hsame) hl
    · rw [if_neg hl, if_neg hr] at hsame
      exact inj_on_of_nodup_map hrows.ids_nodup hleft hright hsame
  | inserted hfresh hrow hitems =>
    rw [hitems]
    refine hrows.insert ?_ ?_ ?_
    · rw [hrow]
      exact hfresh
    · rw [hrow]
      exact nextSequence_eq hrows.in_order
    · rw [hrow]
      rfl

end

theorem enqueue_returns (hok : Enqueued reader host next params row)
    (hkind : params.kind ≠ .heartbeat) :
    row.kind = params.kind ∧ row.payload = params.payload ∧ row ∈ next.items := by
  cases hok with
  | coalesced heartbeat hheartbeat => exact absurd hheartbeat hkind
  | repeated hmem hrowKind hpayload hitems => exact ⟨hrowKind, hpayload, hitems ▸ hmem⟩
  | displaced heartbeat htaken hmem hpending hheartbeat hfresh hrow hitems =>
    subst hrow
    refine ⟨rfl, rfl, ?_⟩
    rw [hitems]
    exact mem_updateItem.mpr ⟨heartbeat, hmem, if_pos rfl⟩
  | inserted hfresh hrow hitems =>
    subst hrow
    refine ⟨rfl, rfl, ?_⟩
    rw [hitems]
    exact mem_append_right _ mem_cons_self

/-- Every row that is no heartbeat was there before or is the one just written. -/
theorem enqueue_origin (hrows : RowsOk host.items imports imported)
    (hok : Enqueued reader host next params row) {item : RelayItem P}
    (hitem : item ∈ next.items) (hkind : item.kind ≠ .heartbeat) :
    item ∈ host.items ∨ item.messageId = params.messageId ∧ item = row ∧
      row.kind = params.kind ∧ row.payload = params.payload := by
  cases hok with
  | coalesced heartbeat hheartbeatKind hmem hpending hheartbeat hitems =>
    rw [hitems] at hitem
    obtain ⟨old, hold, hwritten⟩ := mem_updateItem.mp hitem
    by_cases hsame : old.sequence = heartbeat.sequence
    · rw [if_pos hsame] at hwritten
      have holdKind : old.kind ≠ .heartbeat := by
        rw [← hwritten] at hkind
        exact hkind
      exact absurd hsame (hrows.heartbeat_apart hmem hheartbeat hold holdKind)
    · rw [if_neg hsame] at hwritten
      exact .inl (hwritten ▸ hold)
  | repeated hmem hrowKind hpayload hitems => exact .inl (hitems ▸ hitem)
  | displaced heartbeat htaken hmem hpending hheartbeat hfresh hrow hitems =>
    rw [hitems] at hitem
    obtain ⟨old, hold, hwritten⟩ := mem_updateItem.mp hitem
    by_cases hsame : old.sequence = heartbeat.sequence
    · rw [if_pos hsame] at hwritten
      have holdIs := Numbered.eq_of_number hrows.in_order hold hmem hsame
      subst hwritten
      subst hrow
      exact .inr ⟨rfl, by rw [holdIs], rfl, rfl⟩
    · rw [if_neg hsame] at hwritten
      exact .inl (hwritten ▸ hold)
  | inserted hfresh hrow hitems =>
    rw [hitems] at hitem
    cases mem_append.mp hitem with
    | inl hold => exact .inl hold
    | inr hnew =>
      have hitemIs := mem_singleton.mp hnew
      subst hrow
      exact .inr ⟨by rw [hitemIs]; rfl, hitemIs, rfl, rfl⟩

theorem EnqueuedOk.enqueue (henqueued : EnqueuedOk host.items enqueued)
    (hrows : RowsOk host.items imports imported)
    (hok : Enqueued reader host next params row) :
    EnqueuedOk next.items (enqueued ++ [(params, row)]) := by
  refine ⟨?_, ?_⟩
  · intro entry hentry hkind
    cases mem_append.mp hentry with
    | inl hold =>
      obtain ⟨hrowKind, hpayload, hcarries⟩ := henqueued.kept entry hold hkind
      refine ⟨hrowKind, hpayload, ?_⟩
      -- a slot that changes hands holds a heartbeat, and this row is none
      refine hcarries.keep (enqueue_keeps hrows hok) ?_
      rintro ⟨heartbeat, htaken, hsame⟩
      obtain ⟨carrier, hcarrier, hsequence, -, hcarrierKind, -⟩ := hcarries
      have hnot : carrier.kind ≠ .heartbeat := by
        rw [hcarrierKind]
        intro hheartbeat
        exact hkind (hrowKind.symm.trans hheartbeat)
      obtain ⟨hmem, hheartbeat⟩ := takenSlot_some htaken
      exact hrows.heartbeat_apart hmem hheartbeat hcarrier hnot (hsequence.trans hsame.symm)
    | inr hnew =>
      obtain rfl := mem_singleton.mp hnew
      obtain ⟨hrowKind, hpayload, hmem⟩ := enqueue_returns hok hkind
      exact ⟨hrowKind, hpayload, Carries.of_mem hmem⟩
  · intro item hitem hkind
    cases enqueue_origin hrows hok hitem hkind with
    | inl hold =>
      obtain ⟨entry, hentry, hwrites⟩ := henqueued.origin item hold hkind
      exact ⟨entry, mem_append_left _ hentry, hwrites⟩
    | inr hnew =>
      obtain ⟨hid, hitemIs, hrowKind, hpayload⟩ := hnew
      refine ⟨(params, row), mem_append_right _ mem_cons_self, hid.symm, ?_⟩
      subst hitemIs
      exact ⟨hrowKind.symm, hpayload.symm, rfl⟩

end Enqueue

section Acknowledge

variable {items : List (RelayItem P)} {imports : List (RelayWireItem P)} {imported : ℕ}
  {apart : ℕ → Prop} {throughSequence : ℕ}

end Acknowledge

end Wakii.FederationRelay
