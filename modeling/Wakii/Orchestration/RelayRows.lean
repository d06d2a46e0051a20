import Wakii.Library.Numbered
import Wakii.Orchestration.RelayHost

/-!
# What an enqueue and an acknowledgment do to the rows

An enqueue rewrites one pending heartbeat, answers with a pending report, or
adds the next row; an acknowledgment marks the rows up to a sequence.
-/

namespace Wakii.FederationRelay

open List

variable {P : Type}

theorem isPendingHeartbeat_iff {item : RelayItem P} :
    item.isPendingHeartbeat = true ↔ item.acked = false ∧ item.kind = .heartbeat := by
  simp [RelayItem.isPendingHeartbeat, RelayItem.isPending]

variable {items : List (RelayItem P)}

theorem earliestPendingHeartbeat_some {heartbeat : RelayItem P}
    (hfound : earliestPendingHeartbeat items = some heartbeat) :
    heartbeat ∈ items ∧ heartbeat.acked = false ∧ heartbeat.kind = .heartbeat :=
  ⟨mem_of_find?_eq_some hfound, isPendingHeartbeat_iff.mp (find?_some hfound)⟩

theorem nextSequence_eq (hitems : Numbered.Run RelayItem.sequence 1 items) :
    nextSequence items = items.length + 1 := by
  have hmax : ∀ (start : ℕ) (rows : List (RelayItem P)),
      Numbered.Run RelayItem.sequence (start + 1) rows →
        (rows.map RelayItem.sequence).foldr max 0 ≤ start + rows.length ∧
          (rows ≠ [] → start + rows.length ≤ (rows.map RelayItem.sequence).foldr max 0) := by
    intro start rows hrows
    induction rows generalizing start with
    | nil => simp
    | cons row rest ih =>
      obtain ⟨hrow, hrest⟩ := hrows
      obtain ⟨hle, hge⟩ := ih (start + 1) hrest
      simp only [map_cons, foldr_cons, length_cons]
      refine ⟨by omega, fun _ => ?_⟩
      cases rest with
      | nil => simp [hrow]
      | cons next more =>
        have hmore := hge (by simp)
        simp only [length_cons] at hmore ⊢
        omega
  rw [nextSequence]
  cases items with
  | nil => rfl
  | cons row rest =>
    obtain ⟨hle, hge⟩ := hmax 0 (row :: rest) hitems
    have hlast := hge (by simp)
    omega

section Enqueue

variable [DecidableEq P] {reader : PayloadReader P} {host next : Host P}
  {params : EnqueueParams P} {row : RelayItem P}

/-- The pending heartbeat whose slot an enqueue takes: a new report, with the quota full. -/
def takenSlot (reader : PayloadReader P) (host : Host P) (params : EnqueueParams P) :
    Option (RelayItem P) :=
  if (admitEnqueue reader host params).isOk && (repeatedReport host params).isNone &&
      quotaExceeded host.items (reader.byteLength params.payload) then
    (displacedHeartbeat host params).filter fun heartbeat =>
      host.items.all fun item =>
        item.messageId != params.messageId || item.sequence == heartbeat.sequence
  else none

theorem takenSlot_some {heartbeat : RelayItem P}
    (htaken : takenSlot reader host params = some heartbeat) :
    heartbeat ∈ host.items ∧ heartbeat.kind = .heartbeat := by
  unfold takenSlot at htaken
  split_ifs at htaken
  have hfound := (Option.filter_eq_some_iff.mp htaken).1
  unfold displacedHeartbeat at hfound
  split_ifs at hfound
  obtain ⟨hmem, -, hheartbeat⟩ := earliestPendingHeartbeat_some hfound
  exact ⟨hmem, hheartbeat⟩

/-- The outcomes of an enqueue, by what happens to the rows. -/
inductive Enqueued (reader : PayloadReader P) (host next : Host P) (params : EnqueueParams P)
    (row : RelayItem P) : Prop
  | coalesced (heartbeat : RelayItem P) (hkind : params.kind = .heartbeat)
      (hmem : heartbeat ∈ host.items) (hpending : heartbeat.acked = false)
      (hheartbeat : heartbeat.kind = .heartbeat)
      (hitems : next.items =
        updateItem host.items heartbeat.sequence (refreshHeartbeat reader params))
  | repeated (hmem : row ∈ host.items) (hkind : row.kind = params.kind)
      (hpayload : row.payload = params.payload) (hitems : next.items = host.items)
  | displaced (heartbeat : RelayItem P)
      (htaken : takenSlot reader host params = some heartbeat)
      (hmem : heartbeat ∈ host.items) (hpending : heartbeat.acked = false)
      (hheartbeat : heartbeat.kind = .heartbeat)
      (hfresh : ∀ item ∈ host.items,
        item.messageId = params.messageId → item.sequence = heartbeat.sequence)
      (hrow : row = takeSlot reader params heartbeat)
      (hitems : next.items = updateItem host.items heartbeat.sequence (takeSlot reader params))
  | inserted (hfresh : ∀ item ∈ host.items, item.messageId ≠ params.messageId)
      (hrow : row = newItem reader host params) (hitems : next.items = host.items ++ [row])

end Enqueue

section Acknowledge

variable {reader : PayloadReader P} {host next : Host P} {request : AckRequest}

end Acknowledge

end Wakii.FederationRelay
