import Mathlib.Data.List.Sort
import Wakii.Journal.JournalRows
import Wakii.Library.OrderedMap

/-!
# The journal reducer

Live appends and replays share one fold.  A row changes the facts first, then
the queue of messages, then the obligations its inputs leave, and last the
index of the inputs.
-/

namespace Wakii.Reducer

open OrderedCollections Wakii.DispatchSettlement Wakii.ItemKey Wakii.JournalRows

variable {P : Type}

/-- What the fold takes from outside the repository: the digest of a message,
the bound on a refusal's prose, and the language's number reader. -/
structure JournalRuntime (P : Type) where
  sendBodyFingerprint : String → AgentJournalItemBody P → String
  boundReason : String → String
  safeOrdinal : String → Option ℕ

structure JournalInputObligations (P : Type) where
  sources : OrderedMap String (JournalSubmissionWrite P)
  rejections : OrderedMap String JournalDispatch
  echoes : OrderedSet String

structure JournalQueueState (P : Type) where
  cards : OrderedMap String (QueuedMessageRow P)
  returnedCommands : OrderedSet String

/-- The inputs the journal knows by the key of their item, in admission order. -/
structure JournalInputOrder where
  inputIds : OrderedMap String String
  ordinals : OrderedMap String ℕ
  nextOrdinal : ℕ

structure HandOffPlace where
  sequence : ℤ
  observedAt : ℤ
  turnScope : AgentJournalTurnScope

structure JournalReducerState (P : Type) where
  sessionId : String
  epoch : String
  contextBoundary : ℤ
  lastSequence : ℤ
  lastActivityAt : ℤ
  highestFence : ℤ
  items : OrderedMap String (AgentJournalRenderItem P)
  itemFences : OrderedMap String ℤ
  itemExecutionOwners : OrderedMap String ℤ
  tombstones : OrderedMap String ℤ
  removedTurnIds : OrderedSet String
  inputs : JournalInputObligations P
  submissions : OrderedMap String (AgentJournalSubmission P)
  receipts : OrderedMap String AgentJournalAcceptanceReceipt
  aliases : OrderedMap String String
  itemEchoes : OrderedMap String P
  appliedSettlementIds : OrderedSet String
  openTurnItemId : Option String
  latestAcceptedTurnSequence : ℤ
  queuedHandOffPlaces : OrderedMap String HandOffPlace
  normalizedHandOffs : OrderedSet String
  queue : JournalQueueState P
  inputOrder : JournalInputOrder

def createJournalReducerState (sessionId epoch : String) : JournalReducerState P where
  sessionId := sessionId
  epoch := epoch
  contextBoundary := 1
  lastSequence := 0
  lastActivityAt := 0
  highestFence := 0
  items := ∅
  itemFences := ∅
  itemExecutionOwners := ∅
  tombstones := ∅
  removedTurnIds := ∅
  inputs := ⟨∅, ∅, ∅⟩
  submissions := ∅
  receipts := ∅
  aliases := ∅
  itemEchoes := ∅
  appliedSettlementIds := ∅
  openTurnItemId := none
  latestAcceptedTurnSequence := 0
  queuedHandOffPlaces := ∅
  normalizedHandOffs := ∅
  queue := ⟨∅, ∅⟩
  inputOrder := ⟨∅, ∅, 0⟩

/-! ## Items -/

def scopeFor (openTurnItemId : Option String) (body : AgentJournalItemBody P) :
    AgentJournalTurnScope :=
  match openTurnItemId with
  | none => .thread
  | some turnItemId =>
    if (readAgentJournalTurn (some body)).isSome then .thread else .turn turnItemId

/-- Only turns of the session's own agent open spans; no `after` is a removal. -/
def observeScope (openTurnItemId : Option String) (itemId : String) (root : Bool)
    (before after : Option (AgentJournalItemBody P)) : Option String :=
  if isAgentSessionContextClear after then none
  else if before.isNone && (readAgentJournalTurn after).isSome && root then some itemId
  else if some itemId = openTurnItemId &&
      (readAgentJournalTurn before).map (·.state) = some .running &&
      (readAgentJournalTurn after).map (·.state) ≠ some .running then none
  else openTurnItemId

def statedOrDerivedTurnScope (state : JournalReducerState P)
    (turnScope : Option AgentJournalTurnScope) (body : AgentJournalItemBody P) :
    AgentJournalTurnScope :=
  turnScope.getD (scopeFor state.openTurnItemId body)

def journalRenderItem (itemId : String) (revision : ℤ) (body : AgentJournalItemBody P)
    (row : JournalRowBase) (turnScope : AgentJournalTurnScope)
    (producer : AgentJournalProducerLinkage) (sequenceIndex : ℕ) :
    AgentJournalRenderItem P where
  itemId := itemId
  revision := revision
  body := body
  sequence := row.seq
  sequenceIndex := if 0 < sequenceIndex then some sequenceIndex else none
  observedAt := row.ts
  recoveredAt := if row.recovered then some row.ts else none
  recovered := row.recovered
  turnScope := some turnScope
  linkage := producer

/-- Prefer the producer a mutation names over the batch's. -/
def journalBatchMutationProducer (row mutation : AgentJournalProducerLinkage) :
    AgentJournalProducerLinkage :=
  if namesAgentJournalProducer mutation then mutation else row

def journalItemRevisionIsStale (state : JournalReducerState P) (itemId : String)
    (revision : ℤ) : Bool :=
  (match state.tombstones.lookup itemId with
    | some tombstoned => revision ≤ tombstoned
    | none => false) ||
  (match state.items.lookup itemId with
    | some existing => revision ≤ existing.revision
    | none => false)

def isSubmittedBubble (runtime : JournalRuntime P) (itemId : String)
    (body : AgentJournalItemBody P) : Bool :=
  isUserMessage body &&
    match parseAgentJournalItemKey runtime.safeOrdinal itemId with
    | some (.orca _) => true
    | _ => false

/-- A revision keeps the place of the item it revises, and its producer unless
it names one; a submitted bubble also keeps its words. -/
def revisedItem (runtime : JournalRuntime P) (itemId : String)
    (existing next : AgentJournalRenderItem P) : AgentJournalRenderItem P :=
  { next with
    linkage := if namesAgentJournalProducer next.linkage then next.linkage else existing.linkage
    body := if isSubmittedBubble runtime itemId existing.body then existing.body else next.body
    sequence := existing.sequence
    sequenceIndex := existing.sequenceIndex
    observedAt := existing.observedAt
    turnScope := existing.turnScope.or next.turnScope }

structure ItemFences where
  fence : ℤ
  ownerFence : Option ℤ
  executionOwner : Option ℤ

def writeItem (runtime : JournalRuntime P) (state : JournalReducerState P) (itemId : String)
    (next : AgentJournalRenderItem P) (fences : ItemFences) : JournalReducerState P :=
  let existing := state.items.lookup itemId
  let state := { state with
    openTurnItemId := observeScope state.openTurnItemId itemId next.linkage.agentId.isNone
      (existing.map AgentJournalRenderItem.body) (some next.body)
    itemExecutionOwners := match fences.executionOwner with
      | some owner => state.itemExecutionOwners.set itemId owner
      | none => state.itemExecutionOwners
    tombstones := state.tombstones.erase itemId }
  match existing with
  | none =>
    { state with
      items := state.items.set itemId next
      itemFences := state.itemFences.set itemId (fences.ownerFence.getD fences.fence) }
  | some existing =>
    { state with items := state.items.set itemId (revisedItem runtime itemId existing next) }

def upsertJournalItem (runtime : JournalRuntime P) (state : JournalReducerState P)
    (itemId : String) (revision : ℤ) (next : AgentJournalRenderItem P) (fences : ItemFences) :
    JournalReducerState P :=
  if journalItemRevisionIsStale state itemId revision then state
  else writeItem runtime state itemId next fences

def forgetItem (state : JournalReducerState P) (itemId : String)
    (existing : AgentJournalRenderItem P) : JournalReducerState P :=
  { state with
    openTurnItemId := observeScope state.openTurnItemId itemId existing.linkage.agentId.isNone
      (some existing.body) none
    removedTurnIds := match readAgentJournalTurn (some existing.body) with
      | some turn => state.removedTurnIds.add turn.turnId
      | none => state.removedTurnIds }

def removeJournalItem (state : JournalReducerState P) (itemId : String) (revision : ℤ) :
    JournalReducerState P :=
  if journalItemRevisionIsStale state itemId revision then state
  else
    let state := match state.items.lookup itemId with
      | some existing => forgetItem state itemId existing
      | none => state
    { state with
      tombstones := state.tombstones.set itemId revision
      items := state.items.erase itemId
      itemFences := state.itemFences.erase itemId
      itemExecutionOwners := state.itemExecutionOwners.erase itemId }

/-! ## Echoes -/

def isProviderUserMessageEcho (runtime : JournalRuntime P) (itemId : String)
    (body : AgentJournalItemBody P) : Bool :=
  isUserMessage body &&
    match parseAgentJournalItemKey runtime.safeOrdinal itemId with
    | none | some (.orca _) => false
    | some _ => true

def latestAgentSessionContextClearSequence (items : List (AgentJournalRenderItem P)) : ℤ :=
  items.foldl (fun sequence item =>
    if sequence < item.sequence ∧ isAgentSessionContextClear (some item.body) then item.sequence
    else sequence) 0

def inputForItem (state : JournalReducerState P) (itemId : String) :
    Option (String × AgentJournalSubmission P) :=
  (state.inputOrder.inputIds.lookup itemId).bind fun id =>
    (state.submissions.lookup id).map fun submission => (id, submission)

/-- No ordinal counts as infinity. -/
def ordinalLe (left right : Option ℕ) : Bool :=
  match left, right with
  | _, none => true
  | none, some _ => false
  | some leftOrdinal, some rightOrdinal => leftOrdinal ≤ rightOrdinal

def eligibleInputs (state : JournalReducerState P) : List (AgentJournalSubmission P) :=
  let visible := (state.items.keys.filterMap (inputForItem state)).map Prod.snd
  let admitted := visible.insertionSort fun left right =>
    ordinalLe (state.inputOrder.ordinals.lookup left.clientMessageId)
      (state.inputOrder.ordinals.lookup right.clientMessageId)
  admitted.insertionSort fun left right => left.submittedAt ≤ right.submittedAt

/-- The key of the oldest sent message an echo's payload matches. -/
def journalEchoClaimant (runtime : JournalRuntime P) (state : JournalReducerState P)
    (itemId : String) (body : AgentJournalItemBody P) : Option String :=
  if itemId ∈ state.itemEchoes || !isProviderUserMessageEcho runtime itemId body then none
  else
    let fingerprint := runtime.sendBodyFingerprint state.sessionId body
    let contextSequence := latestAgentSessionContextClearSequence state.items.values
    let submission := (eligibleInputs state).find? fun candidate =>
      let key := agentJournalSubmissionKey candidate.clientMessageId
      (contextSequence = 0 || contextSequence < candidate.acceptedSequence.getD 0) &&
        candidate.dispatchState ≠ .rejected &&
        !isWriteFailureSubmission candidate.toHandOff &&
        candidate.payloadFingerprint = fingerprint &&
        key ∉ state.inputs.echoes && key ∈ state.items
    submission.map fun found => agentJournalSubmissionKey found.clientMessageId

/-- The item an id stands for, claiming a submission for a new echo. -/
def resolveJournalItemId (runtime : JournalRuntime P) (state : JournalReducerState P)
    (itemId : String) (body : AgentJournalItemBody P) : JournalReducerState P × String :=
  match (state.aliases.lookup itemId).filter (· ≠ "") with
  | some aliased => (state, aliased)
  | none =>
    match journalEchoClaimant runtime state itemId body with
    | none => (state, itemId)
    | some submissionId =>
      ({ state with aliases := state.aliases.set itemId submissionId }, submissionId)

def resolveItemId (state : JournalReducerState P) (itemId : String) : String :=
  (state.aliases.lookup itemId).getD itemId

/-! ## Submissions -/

def noteTurnAccepted (state : JournalReducerState P) (acceptedSequence : Option ℤ) :
    JournalReducerState P :=
  match acceptedSequence with
  | none => state
  | some sequence =>
    { state with
      latestAcceptedTurnSequence := max state.latestAcceptedTurnSequence sequence }

def setSubmission (state : JournalReducerState P) (id : String)
    (submission : AgentJournalSubmission P) : JournalReducerState P :=
  { state with submissions := state.submissions.set id submission }

def newSubmission (row : JournalRowBase)
    (write : JournalSubmissionWrite P) : AgentJournalSubmission P where
  clientMessageId := write.clientMessageId
  fence := row.fence
  payloadFingerprint := write.payloadFingerprint
  dispatchState := .pending
  providerItemId := none
  reason := none
  rejection := none
  submittedAt := row.ts
  resolvedAt := none
  submittedSequence := row.seq
  handoverRecorded := write.handoverRecorded
  acceptedSequence := if write.handoverRecorded then some row.seq else none
  handedOverAt := none
  answeredInTurn := none
  recovered := false
  queuedMessageId := write.queuedMessageId.filter (· ≠ "")
  origin := write.origin.filter fun origin => origin = "client" || origin = "host"
  source := write.source
  keptAsQueuedMessageId := none
  options := write.options

def applyJournalSubmission (runtime : JournalRuntime P) (state : JournalReducerState P)
    (row : JournalRowBase) (write : JournalSubmissionWrite P) : JournalReducerState P :=
  let itemId := agentJournalSubmissionKey write.clientMessageId
  let state := setSubmission state write.clientMessageId (newSubmission row write)
  -- a delayed hand-over belongs to no turn until its dispatch names one
  let turnScope :=
    if write.handoverRecorded then .thread
    else statedOrDerivedTurnScope state row.turnScope (.message write.body)
  upsertJournalItem runtime state itemId 0
    (journalRenderItem itemId 0 (.message write.body) row turnScope
      row.toAgentJournalProducerLinkage 0)
    ⟨row.fence, none, none⟩

def placedItem (item : AgentJournalRenderItem P) (place : HandOffPlace) :
    AgentJournalRenderItem P :=
  { item with
    sequenceIndex := none
    sequence := place.sequence
    observedAt := place.observedAt
    turnScope := some place.turnScope }

def placeItem (state : JournalReducerState P) (itemId : String) (place : HandOffPlace) :
    JournalReducerState P :=
  match state.items.lookup itemId with
  | none => state
  | some item => { state with items := state.items.set itemId (placedItem item place) }

def handOverPlace (state : JournalReducerState P) (row : JournalRowBase)
    (item : AgentJournalRenderItem P) : HandOffPlace :=
  ⟨row.seq, row.ts, row.turnScope.getD (scopeFor state.openTurnItemId item.body)⟩

/-- A queued message remembers where it was handed over. -/
def rememberPlace (state : JournalReducerState P) (submission : AgentJournalSubmission P)
    (place : HandOffPlace) : JournalReducerState P :=
  if submission.queuedMessageId.isSome then
    { state with
      queuedHandOffPlaces := state.queuedHandOffPlaces.set submission.clientMessageId place }
  else state

/-- A message takes its place when it is handed over, after the work between. -/
def placeHandedOverMessage (state : JournalReducerState P)
    (submission : AgentJournalSubmission P) (row : JournalRowBase) : JournalReducerState P :=
  let itemId := agentJournalSubmissionKey submission.clientMessageId
  match state.items.lookup itemId with
  | none => state
  | some item =>
    if submission.handoverRecorded then
      let place := handOverPlace state row item
      rememberPlace (placeItem state itemId place) submission place
    else state

/-- A refused message stands where it was refused, outside every turn. -/
def placeRejectedMessage (state : JournalReducerState P)
    (submission : AgentJournalSubmission P) (row : JournalRowBase) : JournalReducerState P :=
  placeItem state (agentJournalSubmissionKey submission.clientMessageId)
    ⟨row.seq, row.ts, .thread⟩

def dispatchDoubtProviderEndedUnanswered : String := "provider_ended_before_acknowledgement"

/-- A refused hand-off that may have run reads as sent. -/
def foldQueuedHandOffInDoubt (submission : AgentJournalSubmission P) : AgentJournalSubmission P :=
  if withdrawnUnanswered submission.toHandOff then submission
  else { submission with
    dispatchState := .unknown
    reason := some dispatchDoubtProviderEndedUnanswered
    recovered := true
    rejection := none }

def restorePlace (state : JournalReducerState P) (clientMessageId : String) :
    JournalReducerState P :=
  match state.queuedHandOffPlaces.lookup clientMessageId with
  | some place => placeItem state (agentJournalSubmissionKey clientMessageId) place
  | none => state

def normalizeHandOff (state : JournalReducerState P) (clientMessageId : String) :
    JournalReducerState P :=
  { state with normalizedHandOffs := state.normalizedHandOffs.add clientMessageId }

def placeQueuedHandOffInDoubt (state : JournalReducerState P) (id : String)
    (submission : AgentJournalSubmission P) : JournalReducerState P :=
  let placed := restorePlace (normalizeHandOff state submission.clientMessageId)
    submission.clientMessageId
  if withdrawnUnanswered submission.toHandOff then
    setSubmission placed id { submission with queuedMessageId := none }
  else placed

/-- A submission its provider's own item proves accepted. -/
def acceptedSubmission (row : JournalRowBase) (providerItemId : String)
    (submission : AgentJournalSubmission P) : AgentJournalSubmission P :=
  { submission with
    fence := row.fence
    dispatchState := .accepted
    providerItemId := some providerItemId
    reason := none
    resolvedAt := some row.ts
    recovered := false }

def recordReceipt (state : JournalReducerState P) (row : JournalRowBase)
    (clientMessageId providerItemId : String) : JournalReducerState P :=
  { state with
    receipts := state.receipts.set clientMessageId
      ⟨clientMessageId, providerItemId, ⟨row.epoch, row.seq⟩, row.ts⟩ }

def recordEcho (state : JournalReducerState P) (resolvedItemId : String) : JournalReducerState P :=
  { state with inputs := { state.inputs with echoes := state.inputs.echoes.add resolvedItemId } }

def acceptSubmissionFromProviderItem (state : JournalReducerState P)
    (providerItemId resolvedItemId : String) (row : JournalRowBase) :
    JournalReducerState P :=
  if providerItemId = resolvedItemId then state
  else
    let echoed := recordEcho state resolvedItemId
    match inputForItem echoed resolvedItemId with
    | none => echoed
    | some (id, submission) =>
      if journalDispatchRowApplies (some submission.dispatchState) then
        recordReceipt
          (setSubmission (noteTurnAccepted echoed submission.acceptedSequence) id
            (acceptedSubmission row providerItemId submission))
          row submission.clientMessageId providerItemId
      else echoed

/-! ## Dispatch rows -/

def settleDispatch (runtime : JournalRuntime P) (row : JournalRowBase)
    (dispatch : JournalDispatch) (submission : AgentJournalSubmission P) :
    AgentJournalSubmission P :=
  { submission with
    fence := row.fence
    dispatchState := dispatch.state
    providerItemId := dispatch.providerItemId
    reason := dispatch.reason.map runtime.boundReason
    rejection :=
      if dispatch.state = .rejected then readStoredRejectionFact dispatch.rejection else none
    keptAsQueuedMessageId :=
      if dispatch.state = .rejected then
        (dispatch.keptAsQueuedMessageId.filter (· ≠ "")).or submission.keptAsQueuedMessageId
      else submission.keptAsQueuedMessageId
    answeredInTurn :=
      if dispatch.state = .rejected then dispatch.answeredInTurn.map readAnsweredTurn else none
    resolvedAt := if dispatch.state = .pending then none else some row.ts
    handedOverAt := if dispatch.state = .pending then some row.ts else submission.handedOverAt
    recovered := row.recovered }

/-- The provider's id of an accepted message stands for its bubble. -/
def recordAcceptance (state : JournalReducerState P) (row : JournalRowBase)
    (dispatch : JournalDispatch) : JournalReducerState P :=
  match dispatch.providerItemId.filter (· ≠ "") with
  | none => state
  | some providerItemId =>
    recordReceipt
      { state with
        aliases := state.aliases.set providerItemId
            (agentJournalSubmissionKey dispatch.clientMessageId) }
      row dispatch.clientMessageId providerItemId

/-- Where the settled message stands, and what its acceptance records. -/
def placeDispatch (state : JournalReducerState P) (row : JournalRowBase)
    (dispatch : JournalDispatch) (settled : AgentJournalSubmission P) :
    JournalReducerState P :=
  match dispatch.state with
  | .pending => placeHandedOverMessage state settled row
  | .rejected => placeRejectedMessage state settled row
  | .accepted =>
    recordAcceptance (noteTurnAccepted state settled.acceptedSequence) row dispatch
  | _ => state

def applyJournalDispatchRow (runtime : JournalRuntime P) (state : JournalReducerState P)
    (row : JournalRowBase) (dispatch : JournalDispatch) : JournalReducerState P :=
  match state.submissions.lookup dispatch.clientMessageId with
  | none => state
  | some submission =>
    if journalDispatchRowApplies (some submission.dispatchState) then
      let settled := settleDispatch runtime row dispatch submission
      placeDispatch (setSubmission state dispatch.clientMessageId settled) row dispatch settled
    else
      -- ignored dispatch rows must not change queue cards either
      state

/-! ## The facts of a row -/

/-- The first declared echo contract of an item is kept. -/
def declareEcho (state : JournalReducerState P) (write : JournalItemWrite P) :
    JournalReducerState P :=
  match write.echoOf with
  | none => state
  | some echo =>
    if write.itemId ∈ state.itemEchoes then state
    else { state with itemEchoes := state.itemEchoes.set write.itemId echo }

/-- An item without a contract may be a provider's echo of a sent message. -/
def acceptUndeclaredEcho (state : JournalReducerState P) (write : JournalItemWrite P)
    (resolvedItemId : String) (row : JournalRowBase) : JournalReducerState P :=
  if write.itemId ∈ state.itemEchoes then state
  else acceptSubmissionFromProviderItem state write.itemId resolvedItemId row

def applyItemWrite (runtime : JournalRuntime P) (state : JournalReducerState P)
    (row : JournalRowBase) (write : JournalItemWrite P) (executionOwner : Option ℤ)
    (producer : AgentJournalProducerLinkage) (turnScope : Option AgentJournalTurnScope)
    (sequenceIndex : ℕ) (observedAt : ℤ) : JournalReducerState P :=
  if journalItemRevisionIsStale state write.itemId write.revision then state
  else
    let resolved := resolveJournalItemId runtime (declareEcho state write) write.itemId write.body
    let accepted := acceptUndeclaredEcho resolved.1 write resolved.2 row
    let scope := statedOrDerivedTurnScope accepted turnScope write.body
    let item :=
      journalRenderItem resolved.2 write.revision write.body row scope producer sequenceIndex
    upsertJournalItem runtime accepted resolved.2 write.revision
      { item with observedAt := observedAt } ⟨row.fence, write.ownerFence, executionOwner⟩

def applyItemRow (runtime : JournalRuntime P) (state : JournalReducerState P)
    (row : JournalRowBase) (write : JournalItemWrite P) : JournalReducerState P :=
  applyItemWrite runtime state row write write.executionOwner
    row.toAgentJournalProducerLinkage row.turnScope 0 row.ts

def retireRewoundJournalSubmission (runtime : JournalRuntime P)
    (state : JournalReducerState P) (itemId : String) : JournalReducerState P :=
  match parseAgentJournalItemKey runtime.safeOrdinal itemId with
  | some (.orca _) =>
    { state with
      aliases := state.aliases.eraseAll
        (state.aliases.keys.filter fun id => state.aliases.lookup id = some itemId) }
  | _ => state

def applyTombstoneRow (runtime : JournalRuntime P) (state : JournalReducerState P)
    (tombstone : JournalTombstone) : JournalReducerState P :=
  if tombstone.stopOrResume then state
  else
    let state := removeJournalItem state (resolveItemId state tombstone.itemId)
      tombstone.revision
    if tombstone.retireSubmission then
      retireRewoundJournalSubmission runtime state tombstone.itemId
    else state

def applyLifecycleMutation (runtime : JournalRuntime P) (row : JournalRowBase)
    (state : JournalReducerState P) (indexed : JournalLifecycleMutation P × ℕ) :
    JournalReducerState P :=
  match indexed with
  | (.item write linkage turnScope observedAt, sequenceIndex) =>
    -- a batch passes its owner fence on, never an execution owner
    applyItemWrite runtime state row write none
      (journalBatchMutationProducer row.toAgentJournalProducerLinkage linkage) turnScope
      sequenceIndex (observedAt.getD row.ts)
  | (.tombstone itemId revision, _) =>
    removeJournalItem state (resolveItemId state itemId) revision

def maxJournalAppliedSettlementIds : ℕ := 4096

/-- The loop that drops the oldest ids over the limit; each round drops one. -/
def dropOldest : ℕ → OrderedSet String → OrderedSet String
  | 0, ids => ids
  | rounds + 1, ids =>
    if maxJournalAppliedSettlementIds < ids.elems.length then
      match ids.elems.head? with
      | none => ids
      | some oldest => dropOldest rounds (ids.erase oldest)
    else ids

def rememberAppliedSettlementId (state : JournalReducerState P) (settlementId : String) :
    JournalReducerState P :=
  let ids := state.appliedSettlementIds.add settlementId
  { state with appliedSettlementIds := dropOldest ids.elems.length ids }

def applyLifecycleBatch (runtime : JournalRuntime P) (state : JournalReducerState P)
    (row : JournalRowBase) (settlementId : String)
    (mutations : List (JournalLifecycleMutation P)) : JournalReducerState P :=
  if settlementId ∈ state.appliedSettlementIds then state
  else
    rememberAppliedSettlementId
      (mutations.zipIdx.foldl (applyLifecycleMutation runtime row) state) settlementId

def observeRow (state : JournalReducerState P) (row : JournalRowBase) : JournalReducerState P :=
  { state with
    lastSequence := max state.lastSequence row.seq
    highestFence := max state.highestFence row.fence }

/-- Queued cards cannot extend working status or postpone idle sweeps. -/
def observeActivity (state : JournalReducerState P) (row : JournalRowBase) :
    JournalReducerState P :=
  { observeRow state row with lastActivityAt := max state.lastActivityAt row.ts }

def applyJournalRowFacts (runtime : JournalRuntime P) (state : JournalReducerState P)
    (row : JournalRow P) : JournalReducerState P :=
  match row.content with
  | .epoch =>
    { observeRow state row.base with
      contextBoundary := row.base.seq
      openTurnItemId := none }
  | .queue _ _ => observeRow state row.base
  | .item write => applyItemRow runtime (observeActivity state row.base) row.base write
  | .tombstone tombstone =>
    applyTombstoneRow runtime (observeActivity state row.base) tombstone
  | .lifecycleBatch settlementId mutations =>
    applyLifecycleBatch runtime (observeActivity state row.base) row.base settlementId
      mutations
  | .submission write =>
    applyJournalSubmission runtime (observeActivity state row.base) row.base write
  | .dispatch dispatch =>
    applyJournalDispatchRow runtime (observeActivity state row.base) row.base dispatch

/-! ## The queue -/

def commandTurnReported (state : JournalReducerState P) (clientMessageId : String) : Bool :=
  agentJournalItemKey (structuredAgentSessionCommandTurnIdentity clientMessageId) ∈ state.items

/-- Proven non-delivery waits again, uncertainty stays spent, and a reported
command refusal needs no returned card. -/
def rejectedCardTransition (card : QueuedMessageRow P) (rejected : AgentJournalSubmission P)
    (reported : Bool) : QueuedMessageRow P :=
  match queuedHandOffOutcome rejected.toHandOff with
  | .waiting => { card with state := .waiting, holdReason := none, consumedAs := none }
  | .inDoubt => card
  | .returned =>
    if card.body.command.isSome && reported then { card with state := .withdrawn }
    else { card with
      state := .returned
      returnedReason := rejected.reason
      returnedRejection := rejected.rejection }

def settledHandOff (state : JournalReducerState P) (card : QueuedMessageRow P)
    (submission : AgentJournalSubmission P) : QueuedMessageRow P :=
  if submission.dispatchState ≠ .rejected then card
  else rejectedCardTransition card submission
    (commandTurnReported state submission.clientMessageId)

def isReturnedCommand (card : QueuedMessageRow P) : Bool :=
  card.state = .returned && card.body.command.isSome && card.consumedAs.isSome

def setCard (state : JournalReducerState P) (card : QueuedMessageRow P) : JournalReducerState P :=
  { state with queue := {
      cards := state.queue.cards.set card.messageId card
      returnedCommands :=
        if isReturnedCommand card then state.queue.returnedCommands.add card.messageId
        else state.queue.returnedCommands.erase card.messageId } }

/-- Late answers from earlier attempts must not move a card handed off again. -/
def cardHandedOffAs (state : JournalReducerState P) (submission : AgentJournalSubmission P) :
    Option (QueuedMessageRow P) :=
  (submission.queuedMessageId.bind fun messageId => state.queue.cards.lookup messageId).filter
    fun card => card.state = .dispatched && card.consumedAs = some submission.clientMessageId

/-- A card's own hand-off, refused while it may have reached the agent. -/
def settleHandOffInDoubt (state : JournalReducerState P) (clientMessageId : String) :
    JournalReducerState P :=
  match state.submissions.lookup clientMessageId with
  | none => state
  | some submission =>
    if queuedHandOffInDoubt submission.toHandOff then
      placeQueuedHandOffInDoubt state clientMessageId submission
    else state

def queuedMessageHeldDeliveryUnconfirmed : String := "delivery_unconfirmed"

/-- A stored refusal whose rows are gone. -/
def returnedCard (card : QueuedMessageRow P) (attempt : Option String)
    (returned : ReturnedRefusal) : QueuedMessageRow P :=
  let rejection := readStoredRejectionFact returned.rejection
  -- a saved independent copy needs its own Send
  let independent := (card.recovers.filter (· ≠ "")).isSome && attempt.isNone &&
    (readKept rejection).map (·.kind) = some .unconfirmed
  { card with
    state := if independent then .waiting else .returned
    holdReason := if independent then some queuedMessageHeldDeliveryUnconfirmed else none
    consumedAs := attempt
    returnedReason := returned.reason
    returnedRejection := rejection }

/-- A missing hand-off never authorizes resending. -/
def queuedCardFromChange (runtime : JournalRuntime P) (state : JournalReducerState P)
    (messageId : String) (change : JournalQueuedChange P) : QueuedMessageRow P :=
  let card : QueuedMessageRow P := {
    messageId := messageId
    position := change.position
    body := change.body
    fingerprint := runtime.sendBodyFingerprint state.sessionId (.message change.body)
    state := .waiting
    holdReason := change.holdReason
    returnedReason := none
    returnedRejection := none
    consumedAs := none
    recovers := change.recovers
    queuedAt := change.queuedAt
    options := change.options }
  let attempt := change.attempt.filter (· ≠ "")
  let handedOff := { card with state := .dispatched, holdReason := none, consumedAs := attempt }
  match attempt.bind fun id => state.submissions.lookup id with
  | some submission => settledHandOff state handedOff submission
  | none =>
    match change.returned with
    | some returned => returnedCard card attempt returned
    | none => if attempt.isSome then handedOff else card

/-- The doubtful submission a card recovers, where it handed off that card. -/
def settleRecovered (state : JournalReducerState P) (messageId : String)
    (recovers : Option String) : JournalReducerState P :=
  match recovers.filter (· ≠ "") with
  | none => state
  | some recovered =>
    if (state.submissions.lookup recovered).bind (·.queuedMessageId) = some messageId then
      settleHandOffInDoubt state recovered
    else state

def settleAttempt (state : JournalReducerState P) (attempt : Option String) :
    JournalReducerState P :=
  match attempt with
  | none => state
  | some id => settleHandOffInDoubt state id

/-- A card queued by a row, and the doubt its attempts leave. -/
def applyQueuedChange (runtime : JournalRuntime P) (state : JournalReducerState P)
    (messageId : String) (change : JournalQueuedChange P) : JournalReducerState P :=
  let card := queuedCardFromChange runtime state messageId change
  settleAttempt (settleRecovered (setCard state card) messageId change.recovers) card.consumedAs

def applyQueueRow (runtime : JournalRuntime P) (state : JournalReducerState P)
    (messageId : String) (change : JournalQueueChange P) : JournalReducerState P :=
  match change, state.queue.cards.lookup messageId with
  | .queued change, _ => applyQueuedChange runtime state messageId change
  | _, none => state
  | .edited body, some card =>
    setCard state { card with
      body := body
      fingerprint := runtime.sendBodyFingerprint state.sessionId (.message body) }
  | .moved position, some card => setCard state { card with position := position }
  | .held holdReason, some card =>
    setCard state
      (if card.state = .waiting then { card with holdReason := some holdReason } else card)
  | .withdrawn, some card => setCard state { card with state := .withdrawn, holdReason := none }

/-- A command turn already shows its refusal; the card would block what follows. -/
def spendReportedCard (state : JournalReducerState P) (messageId : String) :
    JournalReducerState P :=
  match state.queue.cards.lookup messageId with
  | none => state
  | some card =>
    if isReturnedCommand card &&
        (card.consumedAs.map (commandTurnReported state)).getD false then
      setCard state { card with state := .withdrawn }
    else state

def spendReportedCommandCards (state : JournalReducerState P) : JournalReducerState P :=
  state.queue.returnedCommands.elems.foldl spendReportedCard state

def handedOffCard (card : QueuedMessageRow P) (clientMessageId : String) : QueuedMessageRow P :=
  { card with
    state := .dispatched
    holdReason := none
    consumedAs := some clientMessageId
    returnedReason := none
    returnedRejection := none }

def handOffCard (state : JournalReducerState P) (clientMessageId : String)
    (queuedMessageId : Option String) : JournalReducerState P :=
  match queuedMessageId.bind fun messageId => state.queue.cards.lookup messageId with
  | none => state
  | some card => setCard state (handedOffCard card clientMessageId)

def settleCard (state : JournalReducerState P) (clientMessageId : String) : JournalReducerState P :=
  match state.submissions.lookup clientMessageId with
  | none => state
  | some submission =>
    match cardHandedOffAs state submission with
    | none => state
    | some card =>
      settleHandOffInDoubt (setCard state (settledHandOff state card submission))
        clientMessageId

def foldJournalQueueRow (runtime : JournalRuntime P) (state : JournalReducerState P)
    (row : JournalRow P) : JournalReducerState P :=
  match row.content with
  | .queue messageId change => applyQueueRow runtime state messageId change
  | .submission write => handOffCard state write.clientMessageId write.queuedMessageId
  | .dispatch dispatch => settleCard state dispatch.clientMessageId
  | .item _ | .lifecycleBatch _ _ => spendReportedCommandCards state
  | .epoch | .tombstone _ => state

/-! ## Obligations and the index of inputs -/

def journalInputSourceFamily (source : Option (JournalSubmissionWrite P)) : Option String :=
  (source.bind (·.queuedMessageId)).filter (· ≠ "")

def refusedInDoubt (state : JournalReducerState P) (dispatch : JournalDispatch)
    (send : AgentJournalSubmission P) : Bool :=
  dispatch.state = .rejected &&
    (journalInputSourceFamily (state.inputs.sources.lookup dispatch.clientMessageId)).isSome &&
    queuedHandOffOutcome send.toHandOff = .inDoubt

def recordRefusal (state : JournalReducerState P) (dispatch : JournalDispatch) :
    JournalReducerState P :=
  { state with inputs := { state.inputs with
      rejections := state.inputs.rejections.set dispatch.clientMessageId dispatch } }

def foldRefusalInDoubt (state : JournalReducerState P) (dispatch : JournalDispatch) :
    JournalReducerState P :=
  match state.submissions.lookup dispatch.clientMessageId with
  | none => state
  | some send =>
    if refusedInDoubt state dispatch send then
      setSubmission
        (recordRefusal (normalizeHandOff state dispatch.clientMessageId) dispatch)
        dispatch.clientMessageId (foldQueuedHandOffInDoubt send)
    else state

def recordSource (state : JournalReducerState P) (write : JournalSubmissionWrite P) :
    JournalReducerState P :=
  { state with inputs := { state.inputs with
      sources := state.inputs.sources.set write.clientMessageId write } }

def foldJournalInputObligations (state : JournalReducerState P) (row : JournalRow P)
    (dispatchApplies : Bool) : JournalReducerState P :=
  match row.content with
  | .submission write => recordSource state write
  | .dispatch dispatch =>
    if dispatchApplies then foldRefusalInDoubt state dispatch else state
  | _ => state

def refresh (submissions : OrderedMap String (AgentJournalSubmission P))
    (order : JournalInputOrder) (id : String) : JournalInputOrder :=
  if id ∈ submissions then
    { inputIds := order.inputIds.set (agentJournalSubmissionKey id) id
      ordinals :=
        if id ∈ order.ordinals then order.ordinals else order.ordinals.set id order.nextOrdinal
      nextOrdinal := if id ∈ order.ordinals then order.nextOrdinal else order.nextOrdinal + 1 }
  else
    { inputIds := order.inputIds.erase (agentJournalSubmissionKey id)
      ordinals := order.ordinals.erase id
      nextOrdinal := order.nextOrdinal }

def refreshItem (submissions : OrderedMap String (AgentJournalSubmission P))
    (order : JournalInputOrder) (itemId : String) : JournalInputOrder :=
  match order.inputIds.lookup itemId with
  | none => order
  | some id => refresh submissions order id

def mutationItemId : JournalLifecycleMutation P → String
  | .item write _ _ _ => write.itemId
  | .tombstone itemId _ => itemId

def afterRow (state : JournalReducerState P) (row : JournalRow P) : JournalReducerState P :=
  let order := state.inputOrder
  { state with inputOrder :=
      match row.content with
      | .submission write => refresh state.submissions order write.clientMessageId
      | .dispatch dispatch => refresh state.submissions order dispatch.clientMessageId
      | .tombstone tombstone =>
        if tombstone.retireSubmission then
          refreshItem state.submissions order tombstone.itemId
        else order
      | .item write => refreshItem state.submissions order (resolveItemId state write.itemId)
      | .lifecycleBatch _ mutations =>
        mutations.foldl (fun order mutation =>
          refreshItem state.submissions order
            (resolveItemId state (mutationItemId mutation))) order
      | .queue messageId _ =>
        match ((state.queue.cards.lookup messageId).bind (·.consumedAs)).filter (· ≠ "") with
        | some id => refresh state.submissions order id
        | none => order
      | .epoch => order }

def dispatchApplies (state : JournalReducerState P) (row : JournalRow P) : Bool :=
  match row.content with
  | .dispatch dispatch =>
    journalDispatchRowApplies
      ((state.submissions.lookup dispatch.clientMessageId).map (·.dispatchState))
  | _ => true

def applyJournalRow (runtime : JournalRuntime P) (state : JournalReducerState P)
    (row : JournalRow P) : JournalReducerState P :=
  let applies := dispatchApplies state row
  let facts := applyJournalRowFacts runtime state row
  let queued := foldJournalQueueRow runtime facts row
  afterRow (foldJournalInputObligations queued row applies) row

def replay (runtime : JournalRuntime P) (sessionId epoch : String)
    (rows : List (JournalRow P)) : JournalReducerState P :=
  rows.foldl (applyJournalRow runtime) (createJournalReducerState sessionId epoch)

end Wakii.Reducer
