import Mathlib.Algebra.GroupWithZero.Nat
import Wakii.Orchestration.WorkerStates

/-!
# The relay of the execution host

The host queues what its worker sends to the run home as numbered items and
deletes none: an item is marked when the home acknowledges it.  Items that are
not yet marked may be rewritten in place.
-/

namespace Wakii.FederationRelay

open Orchestration

/-- Ids and epochs are only ever compared. -/
abbrev MessageId := ℕ

abbrev RuntimeEpoch := ℕ

inductive RelayKind
  | heartbeat
  | workerDone
  | other (name : String)
  deriving DecidableEq

/-- What the two sides read off a payload. -/
structure PayloadReader (P : Type) where
  byteLength : P → ℕ
  /-- The type of the relayed message; an unreadable payload has none. -/
  messageType : P → Option MessageType
  /-- The outcome the execution host reads off a queued report. -/
  reportOutcome : P → Option WorkerReportOutcome
  /-- The outcome the home reads off a report that names this dispatch and its task. -/
  workerReport : P → Except (ReportRejectionCode × String) WorkerReportOutcome

inductive RelayRefusal
  | itemTooLarge
  | noRelayCapacity
  | dispatchInactive
  | dispatchNotFound
  | cannotSettle (fromState toState : WorkerDispatchState)
  | uniqueConstraint
  | reportMismatch
  | omittedSettlement
  | conflictingSettlements
  | acknowledgmentExceedsImport
  | notContiguous (after : ℕ)
  | committedWithoutMessage (sequence : ℕ)
  | conflictingMessage
  | unreadableMessage
  | settlementFailed
  deriving DecidableEq

/-- The error code a refusal carries; the store's own failure carries none. -/
def RelayRefusal.code : RelayRefusal → Option String
  | .itemTooLarge | .noRelayCapacity => some "relay_quota_exceeded"
  | .dispatchInactive => some "dispatch_inactive"
  | .dispatchNotFound => some "dispatch_not_found"
  | .cannotSettle _ _ | .reportMismatch | .omittedSettlement | .conflictingSettlements
  | .acknowledgmentExceedsImport | .conflictingMessage => some "request_mismatch"
  | .notContiguous _ | .committedWithoutMessage _ => some "operation_unknown"
  | .unreadableMessage => some "invalid_argument"
  | .uniqueConstraint | .settlementFailed => none

variable {P : Type}

/-- A row of the relay to the home. -/
structure RelayItem (P : Type) where
  sequence : ℕ
  messageId : MessageId
  kind : RelayKind
  payload : P
  byteCount : ℕ
  acked : Bool
  deriving DecidableEq

structure RemoteDispatchAttachment where
  state : WorkerDispatchState
  protocolVersion : ℕ
  deriving DecidableEq

/-- The rows of one dispatch stand in the order of their sequence. -/
structure Host (P : Type) where
  items : List (RelayItem P)
  remoteQuestions : List MessageId
  attachment : Option RemoteDispatchAttachment
  runtimeEpoch : RuntimeEpoch
  deriving DecidableEq

def MAX_RELAY_ITEM_BYTES : ℕ := 64 * 1024

def MAX_RELAY_ITEMS : ℕ := 256

def MAX_RELAY_BYTES : ℕ := 1024 * 1024

def ORCHESTRATION_FEDERATION_LIFECYCLE_SETTLEMENT_PROTOCOL_VERSION : ℕ := 3

section Rows

def RelayItem.isPending (item : RelayItem P) : Bool := !item.acked

def RelayItem.isPendingHeartbeat (item : RelayItem P) : Bool :=
  item.isPending && item.kind == .heartbeat

/-- `ORDER BY sequence DESC LIMIT 1` among the heartbeats not acknowledged. -/
def latestPendingHeartbeat (items : List (RelayItem P)) : Option (RelayItem P) :=
  (items.filter RelayItem.isPendingHeartbeat).getLast?

/-- `ORDER BY sequence LIMIT 1` among them. -/
def earliestPendingHeartbeat (items : List (RelayItem P)) : Option (RelayItem P) :=
  items.find? RelayItem.isPendingHeartbeat

def identicalReport [DecidableEq P] (items : List (RelayItem P)) (payload : P) :
    Option (RelayItem P) :=
  (items.filter fun item =>
    item.isPending && item.kind == .workerDone && item.payload == payload).getLast?

def quotaExceeded (items : List (RelayItem P)) (byteCount : ℕ) : Bool :=
  let pending := items.filter RelayItem.isPending
  MAX_RELAY_ITEMS ≤ pending.length ||
    MAX_RELAY_BYTES < (pending.map RelayItem.byteCount).sum + byteCount

def updateItem (items : List (RelayItem P)) (sequence : ℕ) (write : RelayItem P → RelayItem P) :
    List (RelayItem P) :=
  items.map fun item => if item.sequence = sequence then write item else item

/-- `COALESCE(MAX(sequence), 0) + 1`. -/
def nextSequence (items : List (RelayItem P)) : ℕ :=
  (items.map RelayItem.sequence).foldr max 0 + 1

end Rows

/-- A settled outcome moves the attachment once; an unsettled one moves nothing. -/
def settleRemoteAttachmentInRelayTransaction (attachment : Option RemoteDispatchAttachment)
    (outcome : Option WorkerReportOutcome) :
    Except RelayRefusal (Option RemoteDispatchAttachment) :=
  match outcome with
  | none => .ok attachment
  | some outcome =>
    match attachment with
    | none => .error .dispatchNotFound
    | some current =>
      if current.state = outcome.workerState then .ok attachment
      else if isWorkerStateIn SETTLEABLE_WORKER_STATES (some current.state) then
        .ok (some { current with state := outcome.workerState })
      else .error (.cannotSettle current.state outcome.workerState)

structure EnqueueParams (P : Type) where
  kind : RelayKind
  payload : P
  messageId : MessageId
  settleRemoteOutcome : Option WorkerReportOutcome
  remoteQuestion : Bool
  deriving DecidableEq

section Enqueue

variable [DecidableEq P] (reader : PayloadReader P)

def admitEnqueue (host : Host P) (params : EnqueueParams P) : Except RelayRefusal Unit :=
  if MAX_RELAY_ITEM_BYTES < reader.byteLength params.payload then .error .itemTooLarge
  else if params.settleRemoteOutcome.isSome &&
      !isWorkerStateIn SETTLEABLE_WORKER_STATES
        (host.attachment.map RemoteDispatchAttachment.state) then
    .error .dispatchInactive
  else .ok ()

def coalescedHeartbeat (host : Host P) (params : EnqueueParams P) : Option (RelayItem P) :=
  if params.kind = .heartbeat then latestPendingHeartbeat host.items else none

def repeatedReport (host : Host P) (params : EnqueueParams P) : Option (RelayItem P) :=
  if params.kind = .workerDone then identicalReport host.items params.payload else none

/-- The pending heartbeat whose slot a report takes. -/
def displacedHeartbeat (host : Host P) (params : EnqueueParams P) : Option (RelayItem P) :=
  if params.kind = .workerDone then earliestPendingHeartbeat host.items else none

def commitEnqueue (host : Host P) (params : EnqueueParams P) (row : RelayItem P) :
    Except RelayRefusal (Host P × RelayItem P) := do
  let attachment ←
    settleRemoteAttachmentInRelayTransaction host.attachment params.settleRemoteOutcome
  return ({ host with attachment }, row)

def refreshHeartbeat (params : EnqueueParams P) (item : RelayItem P) : RelayItem P :=
  { item with payload := params.payload, byteCount := reader.byteLength params.payload }

def takeSlot (params : EnqueueParams P) (item : RelayItem P) : RelayItem P :=
  { item with
    messageId := params.messageId
    kind := params.kind
    payload := params.payload
    byteCount := reader.byteLength params.payload }

def newItem (host : Host P) (params : EnqueueParams P) : RelayItem P :=
  { sequence := nextSequence host.items
    messageId := params.messageId
    kind := params.kind
    payload := params.payload
    byteCount := reader.byteLength params.payload
    acked := false }

def coalesce (host : Host P) (params : EnqueueParams P) (heartbeat : RelayItem P) :
    Host P × RelayItem P :=
  ({ host with
      items := updateItem host.items heartbeat.sequence (refreshHeartbeat reader params) },
    refreshHeartbeat reader params heartbeat)

def displace (host : Host P) (params : EnqueueParams P) (heartbeat : RelayItem P) :
    Except RelayRefusal (Host P × RelayItem P) :=
  if host.items.any fun item =>
      item.messageId == params.messageId && item.sequence != heartbeat.sequence then
    .error .uniqueConstraint
  else
    commitEnqueue
      { host with items := updateItem host.items heartbeat.sequence (takeSlot reader params) }
      params (takeSlot reader params heartbeat)

def insertItem (host : Host P) (params : EnqueueParams P) :
    Except RelayRefusal (Host P × RelayItem P) :=
  if host.items.any fun item => item.messageId == params.messageId then .error .uniqueConstraint
  else if params.remoteQuestion && host.remoteQuestions.contains params.messageId then
    .error .uniqueConstraint
  else
    commitEnqueue
      { host with
        items := host.items ++ [newItem reader host params]
        remoteQuestions :=
          if params.remoteQuestion then host.remoteQuestions ++ [params.messageId]
          else host.remoteQuestions }
      params (newItem reader host params)

def enqueueFederationRelay (host : Host P) (params : EnqueueParams P) :
    Except RelayRefusal (Host P × RelayItem P) := do
  admitEnqueue reader host params
  match coalescedHeartbeat host params with
  | some heartbeat => return coalesce reader host params heartbeat
  | none =>
    match repeatedReport host params with
    | some report => commitEnqueue host params report
    | none =>
      if quotaExceeded host.items (reader.byteLength params.payload) then
        match displacedHeartbeat host params with
        | some heartbeat => displace reader host params heartbeat
        | none => .error .noRelayCapacity
      else insertItem reader host params

end Enqueue

section Listing

def relayLimit (limit : ℕ) : ℕ := min (max limit 1) 50

def listFederationRelay (items : List (RelayItem P)) (afterSequence limit : ℕ) :
    List (RelayItem P) :=
  (items.filter fun item => decide (afterSequence < item.sequence)).take (relayLimit limit)

def listPendingFederationRelay (items : List (RelayItem P)) (limit : ℕ) : List (RelayItem P) :=
  (items.filter RelayItem.isPending).take (relayLimit limit)

/-- What of a row crosses the wire. -/
structure RelayWireItem (P : Type) where
  sequence : ℕ
  messageId : MessageId
  kind : RelayKind
  payload : P
  deriving DecidableEq

def federationRelayWireItem (item : RelayItem P) : RelayWireItem P :=
  ⟨item.sequence, item.messageId, item.kind, item.payload⟩

structure PullRequest where
  afterSequence : ℕ
  replayUnacknowledged : Bool
  limit : ℕ
  deriving DecidableEq

structure PulledRelayPage (P : Type) where
  runtimeEpoch : RuntimeEpoch
  items : List (RelayWireItem P)
  deriving DecidableEq

def federationPull (host : Host P) (request : PullRequest) : PulledRelayPage P :=
  { runtimeEpoch := host.runtimeEpoch
    items :=
      (if request.replayUnacknowledged then listPendingFederationRelay host.items request.limit
        else listFederationRelay host.items request.afterSequence request.limit).map
        federationRelayWireItem }

end Listing

/-- How the home settled a report. -/
inductive FederatedLifecycleSettlement
  | completed
  | failed
  | rejected (code : ReportRejectionCode) (reason : String)
  deriving DecidableEq

def FederatedLifecycleSettlement.outcome : FederatedLifecycleSettlement → Option WorkerReportOutcome
  | .completed => some .succeeded
  | .failed => some .failed
  | .rejected _ _ => none

structure SequencedSettlement where
  sequence : ℕ
  lifecycle : FederatedLifecycleSettlement
  deriving DecidableEq

structure AckRequest where
  throughSequence : ℕ
  settlements : List SequencedSettlement
  deriving DecidableEq

section Acknowledge

variable (reader : PayloadReader P)

def getFederationRelayItem (items : List (RelayItem P)) (sequence : ℕ) : Option (RelayItem P) :=
  items.find? fun item => item.sequence = sequence

/-- A settled report is a queued one the acknowledgment covers, with the outcome it states. -/
def settledReportMatches (host : Host P) (throughSequence : ℕ) (report : SequencedSettlement) :
    Bool :=
  match getFederationRelayItem host.items report.sequence with
  | none => false
  | some item =>
    report.sequence ≤ throughSequence && item.kind == .workerDone &&
      (report.lifecycle.outcome.isNone ||
        reader.reportOutcome item.payload == report.lifecycle.outcome)

/-- From the settlement protocol on, every report acknowledged must be settled. -/
def omitsSettlement (host : Host P) (request : AckRequest) : Bool :=
  match host.attachment with
  | none => false
  | some attachment =>
    ORCHESTRATION_FEDERATION_LIFECYCLE_SETTLEMENT_PROTOCOL_VERSION ≤ attachment.protocolVersion &&
      host.items.any fun item =>
        item.kind == .workerDone && item.isPending && item.sequence ≤ request.throughSequence &&
          !(request.settlements.map SequencedSettlement.sequence).contains item.sequence

def settledOutcomes (request : AckRequest) : List WorkerReportOutcome :=
  request.settlements.filterMap fun report => report.lifecycle.outcome

def conflictingOutcomes (request : AckRequest) : Bool :=
  (settledOutcomes request).contains .succeeded && (settledOutcomes request).contains .failed

def acknowledgeItems (items : List (RelayItem P)) (throughSequence : ℕ) : List (RelayItem P) :=
  items.map fun item =>
    if item.sequence ≤ throughSequence then { item with acked := true } else item

def acknowledgeFederationRelay (host : Host P) (request : AckRequest) :
    Except RelayRefusal (Host P) :=
  if !request.settlements.all (settledReportMatches reader host request.throughSequence) then
    .error .reportMismatch
  else if omitsSettlement host request then .error .omittedSettlement
  else if conflictingOutcomes request then .error .conflictingSettlements
  else do
    let attachment ←
      settleRemoteAttachmentInRelayTransaction host.attachment (settledOutcomes request).head?
    return { host with
      attachment
      items := acknowledgeItems host.items request.throughSequence }

def settlementsBySequence : List SequencedSettlement → List SequencedSettlement
  | [] => []
  | report :: rest =>
    report :: (settlementsBySequence rest).filter fun other => other.sequence ≠ report.sequence

def disagreeingSettlements (received : List SequencedSettlement) : Bool :=
  received.any fun report => received.any fun other =>
    report.sequence == other.sequence && report.lifecycle != other.lifecycle

def federationAck (host : Host P) (request : AckRequest) : Except RelayRefusal (Host P × ℕ) :=
  let received := request.settlements.filter fun report =>
    decide (report.sequence ≤ request.throughSequence)
  let settled : AckRequest := ⟨request.throughSequence, settlementsBySequence received⟩
  if disagreeingSettlements received then .error .conflictingSettlements
  else if conflictingOutcomes settled then .error .conflictingSettlements
  else do
    let acknowledged ← acknowledgeFederationRelay reader host settled
    return (acknowledged, request.throughSequence)

end Acknowledge

end Wakii.FederationRelay
