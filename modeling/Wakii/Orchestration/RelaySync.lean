import Wakii.Orchestration.RelayHome

/-!
# The two ends of the relay

A sync of the home pulls a page, imports its items one by one and acknowledges
what it imported.  Each of its messages may be late, repeated or lost, syncs may
overlap, and either side may restart between any two steps.
-/

namespace Wakii.FederationRelay

open Orchestration

variable {P : Type}

def FEDERATION_PULL_PAGE_SIZE : ℕ := 50

/-- What the home knows of the host's settlement support. -/
structure PeerCapability where
  supported : Bool
  runtimeEpoch : RuntimeEpoch
  deriving DecidableEq

/-- The row of the federated dispatch a sync starts from. -/
structure SyncBase where
  importedSequence : ℕ
  acknowledgedSequence : ℕ
  remoteRuntimeEpoch : Option RuntimeEpoch
  protocolVersion : ℕ
  capability : Option PeerCapability
  remainingPages : ℕ
  deriving DecidableEq

namespace SyncBase

def hasSettlementProtocol (base : SyncBase) : Bool :=
  ORCHESTRATION_FEDERATION_LIFECYCLE_SETTLEMENT_PROTOCOL_VERSION ≤ base.protocolVersion

def supportsLifecycleSettlement (base : SyncBase) : Bool :=
  base.hasSettlementProtocol && (base.capability.map PeerCapability.supported).getD false

def shouldReplayUnacknowledged (base : SyncBase) : Bool :=
  base.supportsLifecycleSettlement ||
    (base.hasSettlementProtocol && decide (base.acknowledgedSequence < base.importedSequence))

/-- The settlements count only for the run of the host that was asked. -/
def settlesAt (base : SyncBase) (runtimeEpoch : RuntimeEpoch) : Bool :=
  base.supportsLifecycleSettlement &&
    base.capability.map PeerCapability.runtimeEpoch == some runtimeEpoch

def pullRequest (base : SyncBase) : PullRequest :=
  { afterSequence := base.importedSequence
    replayUnacknowledged := base.shouldReplayUnacknowledged
    limit := FEDERATION_PULL_PAGE_SIZE }

def durableAcknowledgedThrough (base : SyncBase) (runtimeEpoch : RuntimeEpoch) : ℕ :=
  if base.remoteRuntimeEpoch = some runtimeEpoch then base.acknowledgedSequence else 0

end SyncBase

structure ImportProgress where
  cursor : ℕ
  settlements : List SequencedSettlement
  barrier : Option ℕ
  deriving DecidableEq

inductive SyncPhase (P : Type)
  | pulling
  | pulled (page : PulledRelayPage P)
  | importing (page : PulledRelayPage P) (rest : List (RelayWireItem P))
      (progress : ImportProgress)
  | acknowledging (page : PulledRelayPage P) (request : AckRequest)
  deriving DecidableEq

structure Sync (P : Type) where
  base : SyncBase
  phase : SyncPhase P
  deriving DecidableEq

/-- Both databases, the syncs under way, the acknowledgments ever requested and
answered, and what the run did so far. -/
structure Relay (P : Type) where
  host : Host P
  home : Home
  syncs : List (Sync P)
  ackRequests : List AckRequest
  answeredAcks : List AckRequest
  /-- The enqueues that returned, with the rows they returned. -/
  enqueued : List (EnqueueParams P × RelayItem P)
  /-- The items imported, duplicates apart. -/
  imports : List (RelayWireItem P)
  /-- How the home refused a pulled item. -/
  refusals : List RelayRefusal

inductive Action (P : Type)
  | enqueue (params : EnqueueParams P)
  | setAttachment (attachment : Option RemoteDispatchAttachment)
  | restartHost (runtimeEpoch : RuntimeEpoch)
  | restartHome
  | startSync (remainingPages : ℕ) (capability : Option PeerCapability)
  | answerPull (index : ℕ)
  | receivePage (index : ℕ)
  | importItem (index : ℕ) (settled : Option WorkerReportSettlement)
  | finishImport (index : ℕ) (isCurrent : Bool)
  | handleAck (request : AckRequest)
  | receiveAck (index : ℕ)
  | dropSync (index : ℕ)
  deriving DecidableEq

section Sync

def startBase (home : Home) (remainingPages : ℕ) (capability : Option PeerCapability) :
    SyncBase :=
  { importedSequence := home.importedSequence
    acknowledgedSequence := home.acknowledgedSequence
    remoteRuntimeEpoch := home.remoteRuntimeEpoch
    protocolVersion := home.protocolVersion
    capability :=
      if home.protocolVersion <
          ORCHESTRATION_FEDERATION_LIFECYCLE_SETTLEMENT_PROTOCOL_VERSION then
        none
      else capability
    remainingPages }

def firstCursor (base : SyncBase) (page : PulledRelayPage P) : ℕ :=
  match page.items with
  | [] => base.importedSequence
  | first :: _ =>
    if base.shouldReplayUnacknowledged then first.sequence - 1 else base.importedSequence

def lifecycleSettlement : WorkerReportSettlement → FederatedLifecycleSettlement
  | .settled .succeeded _ => .completed
  | .settled .failed _ => .failed
  | .rejected code reason => .rejected code reason

/-- The cursor, settlements and barrier after an item of the page is stored. -/
def afterItem (base : SyncBase) (page : PulledRelayPage P) (item : RelayWireItem P)
    (stored : ImportedItem) (progress : ImportProgress) : ImportProgress :=
  { cursor := item.sequence
    settlements :=
      match stored.lifecycle with
      | none => progress.settlements
      | some settlement =>
        if base.settlesAt page.runtimeEpoch then
          progress.settlements ++ [⟨item.sequence, lifecycleSettlement settlement⟩]
        else progress.settlements
    barrier :=
      if progress.barrier.isNone && base.hasSettlementProtocol && item.kind == .workerDone &&
          !base.settlesAt page.runtimeEpoch then
        some item.sequence
      else progress.barrier }

def importPulledItem (reader : PayloadReader P) (home : Home) (base : SyncBase)
    (page : PulledRelayPage P) (progress : ImportProgress) (item : RelayWireItem P)
    (settled : Option WorkerReportSettlement) :
    Except RelayRefusal (Home × ImportedItem × ImportProgress) :=
  if item.sequence ≠ progress.cursor + 1 then .error (.notContiguous progress.cursor)
  else
    match reader.messageType item.payload with
    | none => .error .unreadableMessage
    | some type => do
      let (next, stored) ← importFederatedRelayItem home item type
        (parseFederatedLifecycle reader type item.payload) settled
      return (next, stored, afterItem base page item stored progress)

/-- A first sequence of zero would not hold anything back. -/
def acknowledgmentCursor (progress : ImportProgress) : ℕ :=
  match progress.barrier with
  | none | some 0 => progress.cursor
  | some barrier => barrier - 1

def ackDue (home : Home) (base : SyncBase) (page : PulledRelayPage P)
    (progress : ImportProgress) : Bool :=
  max (getFederationAckedThrough home page.runtimeEpoch)
      (base.durableAcknowledgedThrough page.runtimeEpoch) <
    acknowledgmentCursor progress

/-- A full last page stays one short, so that the relay is looked at again. -/
def locallyAcknowledgedThrough (base : SyncBase) (page : PulledRelayPage P)
    (acknowledgedThrough : ℕ) : ℕ :=
  if page.items.length = FEDERATION_PULL_PAGE_SIZE && base.remainingPages == 1 then
    acknowledgedThrough - 1
  else acknowledgedThrough

/-- Records an answered acknowledgment durably, then in memory. -/
def recordAck (home : Home) (base : SyncBase) (page : PulledRelayPage P)
    (acknowledgedThrough : ℕ) : Except RelayRefusal Home := do
  let sequence := locallyAcknowledgedThrough base page acknowledgedThrough
  let recorded ← recordFederatedHomeAcknowledgment home page.runtimeEpoch sequence
  return updateFederatedDispatchRuntimeEpoch
    (recordFederationAckCheckpoint recorded ⟨page.runtimeEpoch, sequence⟩) page.runtimeEpoch

end Sync

namespace Relay

variable (relay : Relay P)

def setPhase (index : ℕ) (sync : Sync P) (phase : SyncPhase P) : Relay P :=
  { relay with syncs := relay.syncs.set index { sync with phase } }

def endSync (index : ℕ) : Relay P :=
  { relay with syncs := relay.syncs.eraseIdx index }

def setHome (home : Home) : Relay P := { relay with home }

def setHost (host : Host P) : Relay P := { relay with host }

def refuse (refusal : RelayRefusal) : Relay P :=
  { relay with refusals := relay.refusals ++ [refusal] }

def recordEnqueue (params : EnqueueParams P) (row : RelayItem P) : Relay P :=
  { relay with enqueued := relay.enqueued ++ [(params, row)] }

def recordImport (item : RelayWireItem P) (stored : ImportedItem) : Relay P :=
  { relay with
    imports := if stored.duplicate then relay.imports else relay.imports ++ [item] }

def requestAck (request : AckRequest) : Relay P :=
  { relay with ackRequests := relay.ackRequests ++ [request] }

def answerAck (request : AckRequest) : Relay P :=
  { relay with answeredAcks := relay.answeredAcks ++ [request] }

variable (reader : PayloadReader P)

def importStep (index : ℕ) (sync : Sync P) (page : PulledRelayPage P)
    (progress : ImportProgress) (item : RelayWireItem P) (rest : List (RelayWireItem P))
    (settled : Option WorkerReportSettlement) : Relay P :=
  match importPulledItem reader relay.home sync.base page progress item settled with
  | .error refusal => (relay.endSync index).refuse refusal
  | .ok (home, stored, next) =>
    ((relay.setHome home).recordImport item stored).setPhase index sync
      (.importing page rest next)

def finishStep (index : ℕ) (sync : Sync P) (page : PulledRelayPage P)
    (progress : ImportProgress) (isCurrent : Bool) : Relay P :=
  let request : AckRequest := ⟨acknowledgmentCursor progress, progress.settlements⟩
  if isCurrent && ackDue relay.home sync.base page progress then
    (relay.requestAck request).setPhase index sync (.acknowledging page request)
  else
    (relay.setHome (updateFederatedDispatchRuntimeEpoch relay.home page.runtimeEpoch)).endSync index

def handleAck (request : AckRequest) : Relay P :=
  match federationAck reader relay.host request with
  | .error _ => relay
  | .ok (host, _) => (relay.setHost host).answerAck request

def receiveAckStep (index : ℕ) (sync : Sync P) (page : PulledRelayPage P)
    (request : AckRequest) : Relay P :=
  match recordAck relay.home sync.base page request.throughSequence with
  | .error _ => relay.endSync index
  | .ok home => (relay.setHome home).endSync index

variable [DecidableEq P]

def enqueue (params : EnqueueParams P) : Relay P :=
  match enqueueFederationRelay reader relay.host params with
  | .error _ => relay
  | .ok (host, row) => (relay.setHost host).recordEnqueue params row

/-- An action that is not possible now changes nothing. -/
def step : Action P → Relay P
  | .enqueue params => relay.enqueue reader params
  | .setAttachment attachment => relay.setHost { relay.host with attachment }
  | .restartHost runtimeEpoch => relay.setHost { relay.host with runtimeEpoch }
  | .restartHome => { relay with syncs := [], home := { relay.home with checkpoint := none } }
  | .startSync remainingPages capability =>
    { relay with
      syncs := relay.syncs ++ [⟨startBase relay.home remainingPages capability, .pulling⟩] }
  | .answerPull index =>
    match relay.syncs[index]? with
    | some ⟨base, .pulling⟩ =>
      relay.setPhase index ⟨base, .pulling⟩
        (.pulled (federationPull relay.host base.pullRequest))
    | _ => relay
  | .receivePage index =>
    match relay.syncs[index]? with
    | some ⟨base, .pulled page⟩ =>
      relay.setPhase index ⟨base, .pulled page⟩
        (.importing page page.items ⟨firstCursor base page, [], none⟩)
    | _ => relay
  | .importItem index settled =>
    match relay.syncs[index]? with
    | some ⟨base, .importing page (item :: rest) progress⟩ =>
      relay.importStep reader index ⟨base, .importing page (item :: rest) progress⟩ page
        progress item rest settled
    | _ => relay
  | .finishImport index isCurrent =>
    match relay.syncs[index]? with
    | some ⟨base, .importing page [] progress⟩ =>
      relay.finishStep index ⟨base, .importing page [] progress⟩ page progress isCurrent
    | _ => relay
  | .handleAck request =>
    if request ∈ relay.ackRequests then relay.handleAck reader request else relay
  | .receiveAck index =>
    match relay.syncs[index]? with
    | some ⟨base, .acknowledging page request⟩ =>
      if request ∈ relay.answeredAcks then
        relay.receiveAckStep index ⟨base, .acknowledging page request⟩ page request
      else relay
    | _ => relay
  | .dropSync index => relay.endSync index

def run (relay : Relay P) (actions : List (Action P)) : Relay P :=
  actions.foldl (fun current action => current.step reader action) relay

end Relay

end Wakii.FederationRelay
