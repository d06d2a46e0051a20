import Wakii.Orchestration.RelaySafe

/-!
# Runs of the relay

Whatever the order of its steps, a run in which no report takes the slot of a
heartbeat the home knows loses, repeats and refuses nothing.
-/

namespace Wakii.FederationRelay

open List Orchestration

variable {P : Type}

namespace Relay

/-- A sequence the home imported, or that a page on its way or under import holds. -/
def KnownAtHome (relay : Relay P) (sequence : ℕ) : Prop :=
  sequence ≤ relay.home.importedSequence ∨
    ∃ sync ∈ relay.syncs, ∃ item ∈ sync.phase.held, item.sequence = sequence

/-- The step takes no slot of a heartbeat the home knows. -/
def SparesKnownSlots [DecidableEq P] (reader : PayloadReader P) (relay : Relay P) : Action P → Prop
  | .enqueue params =>
    ∀ heartbeat ∈ takenSlot reader relay.host params, ¬ relay.KnownAtHome heartbeat.sequence
  | _ => True

instance (relay : Relay P) (sequence : ℕ) : Decidable (relay.KnownAtHome sequence) :=
  inferInstanceAs (Decidable (_ ∨ _))

instance [DecidableEq P] (reader : PayloadReader P) (relay : Relay P) (action : Action P) :
    Decidable (relay.SparesKnownSlots reader action) :=
  match action with
  | .enqueue params =>
    inferInstanceAs (Decidable (∀ heartbeat ∈ takenSlot reader relay.host params, _))
  | .setAttachment _ | .restartHost _ | .restartHome | .startSync _ _ | .answerPull _
  | .receivePage _ | .importItem _ _ | .finishImport _ _ | .handleAck _ | .receiveAck _
  | .dropSync _ => isTrue trivial

/-- Every step of the run spares the slots known at the home. -/
def RunSpares [DecidableEq P] (reader : PayloadReader P) : Relay P → List (Action P) → Prop
  | _, [] => True
  | relay, action :: rest =>
    relay.SparesKnownSlots reader action ∧ RunSpares reader (relay.step reader action) rest

instance decidableRunSpares [DecidableEq P] (reader : PayloadReader P) :
    (relay : Relay P) → (actions : List (Action P)) → Decidable (relay.RunSpares reader actions)
  | _, [] => isTrue trivial
  | relay, action :: rest =>
    have := decidableRunSpares reader (relay.step reader action) rest
    inferInstanceAs (Decidable (relay.SparesKnownSlots reader action ∧ _))

end Relay

section Steps

variable {relay : Relay P}

section

variable (hinv : Invariant relay)
include hinv

theorem Invariant.setSyncs {syncs : List (Sync P)}
    (hsyncs : ∀ sync ∈ syncs, SyncOk relay.host.items relay.home.importedSequence sync) :
    Invariant { relay with syncs } :=
  ⟨hinv.rows, hinv.home, hsyncs, hinv.requests, hinv.enqueued, hinv.refusals⟩

theorem Invariant.endSync (index : ℕ) : Invariant (relay.endSync index) :=
  hinv.setSyncs fun sync hsync => hinv.syncs sync (mem_of_mem_eraseIdx hsync)

theorem Invariant.setPhase (index : ℕ) {sync : Sync P}
    {phase : SyncPhase P} (hbase : sync.base.importedSequence ≤ relay.home.importedSequence)
    (hphase : PhaseOk relay.host.items relay.home.importedSequence sync.base phase) :
    Invariant (relay.setPhase index sync phase) := by
  refine hinv.setSyncs fun other hother => ?_
  cases mem_or_eq_of_mem_set hother with
  | inl hold => exact hinv.syncs other hold
  | inr hnew =>
    subst hnew
    exact ⟨hbase, hphase⟩

theorem Invariant.setHost {host : Host P}
    (hitems : host.items = relay.host.items) : Invariant (relay.setHost host) := by
  refine ⟨?_, hinv.home, ?_, hinv.requests, ?_, hinv.refusals⟩
  · rw [Relay.setHost, hitems]
    exact hinv.rows
  · rw [Relay.setHost, hitems]
    exact hinv.syncs
  · rw [Relay.setHost, hitems]
    exact hinv.enqueued

theorem Invariant.setHome {home : Home}
    (himported : home.importedSequence = relay.home.importedSequence)
    (hhome : HomeOk home relay.imports) : Invariant (relay.setHome home) := by
  refine ⟨?_, hhome, ?_, ?_, hinv.enqueued, hinv.refusals⟩
  · rw [Relay.setHome, himported]
    exact hinv.rows
  · rw [Relay.setHome, himported]
    exact hinv.syncs
  · rw [Relay.setHome, himported]
    exact hinv.requests

theorem Invariant.refuse {refusal : RelayRefusal}
    (hrefusal : refusal.isMisplaced = false) : Invariant (relay.refuse refusal) := by
  refine ⟨hinv.rows, hinv.home, hinv.syncs, hinv.requests, hinv.enqueued, ?_⟩
  intro other hother
  cases mem_append.mp hother with
  | inl hold => exact hinv.refusals other hold
  | inr hnew => exact mem_singleton.mp hnew ▸ hrefusal

theorem Invariant.requestAck {request : AckRequest}
    (hthrough : request.throughSequence ≤ relay.home.importedSequence) :
    Invariant (relay.requestAck request) := by
  refine ⟨hinv.rows, hinv.home, hinv.syncs, ?_, hinv.enqueued, hinv.refusals⟩
  intro other hother
  cases mem_append.mp hother with
  | inl hold => exact hinv.requests other hold
  | inr hnew => exact mem_singleton.mp hnew ▸ hthrough

end

section

variable {index : ℕ} {page : PulledRelayPage P} (hinv : Invariant relay)
include hinv

end

end Steps

section Runs

structure Safe (relay : Relay P) : Prop where
  /-- The home imports 1, 2, 3, ... and each once. -/
  imports_in_order : relay.imports.map RelayWireItem.sequence =
    List.range' 1 relay.home.importedSequence
  /-- What the home imported was enqueued, under its id, sequence and payload. -/
  imports_enqueued : ∀ item ∈ relay.imports, item.kind ≠ .heartbeat →
    ∃ entry ∈ relay.enqueued, entry.1.messageId = item.messageId ∧ entry.1.kind = item.kind ∧
      entry.1.payload = item.payload ∧ entry.2.sequence = item.sequence
  /-- A message enqueued keeps its row, is what the home imports at its sequence, and is
  imported by the time the row is acknowledged. -/
  enqueued_imported : ∀ entry ∈ relay.enqueued, entry.1.kind ≠ .heartbeat →
    entry.2.kind = entry.1.kind ∧ entry.2.payload = entry.1.payload ∧
      (entry.2.sequence ≤ relay.home.importedSequence →
        federationRelayWireItem entry.2 ∈ relay.imports) ∧
      ∃ row ∈ relay.host.items, federationRelayWireItem row = federationRelayWireItem entry.2 ∧
          (row.acked = true → entry.2.sequence ≤ relay.home.importedSequence)
  acknowledged_imported : relay.home.acknowledgedSequence ≤ relay.home.importedSequence ∧
    ∀ checkpoint ∈ relay.home.checkpoint, checkpoint.throughSequence ≤ relay.home.importedSequence
  never_misplaced : ∀ refusal ∈ relay.refusals, refusal.isMisplaced = false

theorem Carries.wire_eq {items : List (RelayItem P)} {imports : List (RelayWireItem P)}
    {imported : ℕ} {item : RelayWireItem P} (hrows : RowsOk items imports imported)
    (hcarries : Carries items item) (hkind : item.kind ≠ .heartbeat) {row : RelayItem P}
    (hrow : row ∈ items) (hsequence : row.sequence = item.sequence) :
    federationRelayWireItem row = item := by
  obtain ⟨other, hother, hnumber, hid, hotherKind, hpayload⟩ := hcarries
  have hsame : row = other :=
    Numbered.eq_of_number hrows.in_order hrow hother (hsequence.trans hnumber.symm)
  cases item
  simp_all [federationRelayWireItem]

/-- What the invariant says of loss and order. -/
theorem Invariant.safe {relay : Relay P} (hinv : Invariant relay) : Safe relay := by
  have hrows := hinv.rows
  refine ⟨?_, ?_, ?_, ⟨hinv.home.acknowledged, hinv.home.checkpoint⟩, hinv.refusals⟩
  · rw [Numbered.map_number hrows.imports_in_order, hrows.imports_length]
  · intro item hitem hkind
    have hcarries := hrows.imports_carried item hitem
    obtain ⟨row, hrow, hsequence, hid, hrowKind, hpayload⟩ := hcarries
    obtain ⟨entry, hentry, hid', hkind', hpayload', hsequence'⟩ :=
      hinv.enqueued.origin row hrow (hrowKind ▸ hkind)
    exact ⟨entry, hentry, hid'.trans hid, hkind'.trans hrowKind,
      hpayload'.trans (hpayload hkind), hsequence'.trans hsequence⟩
  · intro entry hentry hkind
    obtain ⟨hrowKind, hpayload, hcarries⟩ := hinv.enqueued.kept entry hentry hkind
    have hwireKind : (federationRelayWireItem entry.2).kind ≠ .heartbeat := by
      change entry.2.kind ≠ .heartbeat
      rw [hrowKind]
      exact hkind
    obtain ⟨row, hrow, hsequence, -⟩ := id hcarries
    have hwire := hcarries.wire_eq hrows hwireKind hrow hsequence
    have hbounds := Numbered.bounds_of_mem hrows.in_order hrow
    refine ⟨hrowKind, hpayload, fun himported => ?_, row, hrow, hwire, fun hacked => ?_⟩
    · have hlength := hrows.imports_length
      change row.sequence = entry.2.sequence at hsequence
      obtain ⟨item, hitem, hnumber⟩ := Numbered.exists_of_bounds hrows.imports_in_order hbounds.1
          (show row.sequence < 1 + relay.imports.length by omega)
      have hitemCarried := hrows.imports_carried item hitem
      have hitemKind : item.kind ≠ .heartbeat := by
        obtain ⟨other, hother, hotherNumber, -, hotherKind, -⟩ := hitemCarried
        have hsame : other = row :=
          Numbered.eq_of_number hrows.in_order hother hrow (hotherNumber.trans hnumber)
        rw [← hotherKind, hsame]
        have hrowWire := congrArg RelayWireItem.kind hwire
        rw [← hrowWire] at hwireKind
        exact hwireKind
      have hitemWire := hitemCarried.wire_eq hrows hitemKind hrow hnumber.symm
      rw [← hwire, hitemWire]
      exact hitem
    · obtain ⟨through, hthrough, hmarked⟩ := hrows.acked
      have hbelow := (hmarked row hrow).mp hacked
      change row.sequence = entry.2.sequence at hsequence
      omega

end Runs

end Wakii.FederationRelay
