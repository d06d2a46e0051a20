import Wakii.Orchestration.RelayHost

/-!
# The relay at the run home

The home imports pulled items one transaction at a time and keeps two cursors:
how far it imported and how far it knows its imports acknowledged.
-/

namespace Wakii.FederationRelay

open Orchestration

variable {P : Type}

structure HomeMessage where
  id : MessageId
  runId : String
  toHandle : String
  type : MessageType
  deriving DecidableEq

/-- The in-memory note of the last acknowledgment a host answered. -/
structure AckCheckpoint where
  remoteRuntimeEpoch : RuntimeEpoch
  throughSequence : ℕ
  deriving DecidableEq

/-- The row of the federated dispatch, with the run it belongs to, and the mail. -/
structure Home where
  runId : String
  importedSequence : ℕ
  acknowledgedSequence : ℕ
  remoteRuntimeEpoch : Option RuntimeEpoch
  protocolVersion : ℕ
  messages : List HomeMessage
  checkpoint : Option AckCheckpoint
  deriving DecidableEq

/-- What an item of a readable message does to the lifecycle of its dispatch. -/
inductive RelayLifecycle
  | none
  | heartbeat
  | workerReport (outcome : WorkerReportOutcome)
  | rejected (code : ReportRejectionCode) (reason : String)
  deriving DecidableEq

def parseFederatedLifecycle (reader : PayloadReader P) (type : MessageType) (payload : P) :
    RelayLifecycle :=
  if type = .heartbeat then .heartbeat
  else if type ≠ .workerDone then .none
  else
    match reader.workerReport payload with
    | .ok outcome => .workerReport outcome
    | .error (code, reason) => .rejected code reason

structure ImportedItem where
  duplicate : Bool
  lifecycle : Option WorkerReportSettlement
  deriving DecidableEq

def findMessage (home : Home) (id : MessageId) : Option HomeMessage :=
  home.messages.find? fun message => message.id = id

/-- A pulled item goes to the mailbox of its run. -/
def relayedMessage (home : Home) (id : MessageId) (type : MessageType) : HomeMessage :=
  ⟨id, home.runId, "run:" ++ home.runId, type⟩

/-- The stored message of the item, inserted when the home has none under its id. -/
def storeMessage (home : Home) (message : HomeMessage) : Except RelayRefusal Home :=
  match findMessage home message.id with
  | none => .ok { home with messages := home.messages ++ [message] }
  | some stored =>
    if stored.runId ≠ message.runId ∨ stored.toHandle ≠ message.toHandle ∨
        stored.type ≠ message.type then
      .error .conflictingMessage
    else .ok home

/-- `settled` is how the home's own lifecycle settles a report, or that it threw. -/
def importLifecycle (lifecycle : RelayLifecycle) (settled : Option WorkerReportSettlement) :
    Except RelayRefusal (Option WorkerReportSettlement) :=
  match lifecycle with
  | .none | .heartbeat => .ok none
  | .workerReport _ =>
    match settled with
    | none => .error .settlementFailed
    | some settlement => .ok (some settlement)
  | .rejected code reason => .ok (some (.rejected code reason))

def setFederatedHomeImportSequence (home : Home) (sequence : ℕ) : Home :=
  if home.importedSequence < sequence then { home with importedSequence := sequence } else home

def importFederatedRelayItem (home : Home) (item : RelayWireItem P) (type : MessageType)
    (lifecycle : RelayLifecycle) (settled : Option WorkerReportSettlement) :
    Except RelayRefusal (Home × ImportedItem) :=
  let duplicate := decide (item.sequence ≤ home.importedSequence)
  if duplicate && (findMessage home item.messageId).isNone then
    .error (.committedWithoutMessage item.sequence)
  else if !duplicate && item.sequence != home.importedSequence + 1 then
    .error (.notContiguous home.importedSequence)
  else do
    let stored ← storeMessage home (relayedMessage home item.messageId type)
    let settlement ← importLifecycle lifecycle settled
    return (if duplicate then stored else setFederatedHomeImportSequence stored item.sequence,
      ⟨duplicate, settlement⟩)

def recordFederatedHomeAcknowledgment (home : Home) (remoteRuntimeEpoch : RuntimeEpoch)
    (sequence : ℕ) : Except RelayRefusal Home :=
  if home.importedSequence < sequence then .error .acknowledgmentExceedsImport
  else .ok { home with
    remoteRuntimeEpoch := some remoteRuntimeEpoch
    acknowledgedSequence :=
      if home.remoteRuntimeEpoch = some remoteRuntimeEpoch then
        max home.acknowledgedSequence sequence
      else sequence }

def updateFederatedDispatchRuntimeEpoch (home : Home) (remoteRuntimeEpoch : RuntimeEpoch) : Home :=
  { home with remoteRuntimeEpoch := some remoteRuntimeEpoch }

def getFederationAckedThrough (home : Home) (remoteRuntimeEpoch : RuntimeEpoch) : ℕ :=
  match home.checkpoint with
  | none => 0
  | some checkpoint =>
    if checkpoint.remoteRuntimeEpoch = remoteRuntimeEpoch then checkpoint.throughSequence else 0

def recordFederationAckCheckpoint (home : Home) (checkpoint : AckCheckpoint) : Home :=
  match home.checkpoint with
  | none => { home with checkpoint := some checkpoint }
  | some current =>
    if current.remoteRuntimeEpoch = checkpoint.remoteRuntimeEpoch &&
        decide (checkpoint.throughSequence ≤ current.throughSequence) then
      home
    else { home with checkpoint := some checkpoint }

end Wakii.FederationRelay
