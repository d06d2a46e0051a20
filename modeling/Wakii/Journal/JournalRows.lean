import Wakii.Journal.DispatchSettlement
import Wakii.Journal.ItemKey

/-!
# Journal rows

The rows a chat journal stores and the values folded from them.  `P` stands for
the parts of a body that only its fingerprint and the timeline read.
-/

namespace Wakii.JournalRows

open Wakii.DispatchSettlement

inductive NativeChatRole where
  | user | assistant | tool | reasoning | system
deriving DecidableEq

structure AgentJournalCursor where
  epoch : String
  sequence : ℤ
deriving DecidableEq

inductive AgentJournalTurnScope where
  | turn (turnItemId : String)
  | thread
  | unknown
deriving DecidableEq

/-- Who produced a row; all fields absent means the session's own agent. -/
structure AgentJournalProducerLinkage where
  agentId : Option String := none
  parentAgentId : Option String := none
  providerParentRef : Option String := none
  producerKind : Option String := none
  attempt : Option ℤ := none
deriving DecidableEq

def namesAgentJournalProducer (linkage : AgentJournalProducerLinkage) : Bool :=
  linkage.agentId.isSome || linkage.parentAgentId.isSome || linkage.providerParentRef.isSome ||
    linkage.producerKind.isSome || linkage.attempt.isSome

inductive AgentJournalTurnLifecycleState where
  | running | completed | interrupted | unverifiable
  | newer (tag : String)
deriving DecidableEq

structure AgentJournalTurnLifecycle (P : Type) where
  turnId : String
  state : AgentJournalTurnLifecycleState
  userItemId : Option String
  rest : P
deriving DecidableEq

structure AgentJournalMessageItem (P : Type) where
  role : NativeChatRole
  command : Option String
  rest : P
deriving DecidableEq

structure AgentJournalStatusItem (P : Type) where
  contextClear : Bool
  turnLifecycle : Option (AgentJournalTurnLifecycle P)
  rest : P
deriving DecidableEq

inductive AgentJournalItemBody (P : Type) where
  | message (item : AgentJournalMessageItem P)
  | status (item : AgentJournalStatusItem P)
  | turn (item : AgentJournalTurnLifecycle P)
  | other (kind : String) (rest : P)
deriving DecidableEq

variable {P : Type}

/-- Turn items, and the status rows older hosts wrote for them. -/
def readAgentJournalTurn : Option (AgentJournalItemBody P) → Option (AgentJournalTurnLifecycle P)
  | some (.turn turn) => some turn
  | some (.status item) => item.turnLifecycle
  | _ => none

def isAgentSessionContextClear : Option (AgentJournalItemBody P) → Bool
  | some (.status item) => item.contextClear
  | _ => false

def isUserMessage : AgentJournalItemBody P → Bool
  | .message item => item.role = .user
  | _ => false

structure AgentJournalRenderItem (P : Type) where
  itemId : String
  revision : ℤ
  body : AgentJournalItemBody P
  sequence : ℤ
  sequenceIndex : Option ℕ
  observedAt : ℤ
  recoveredAt : Option ℤ
  recovered : Bool
  turnScope : Option AgentJournalTurnScope
  linkage : AgentJournalProducerLinkage
deriving DecidableEq

structure AgentJournalSubmission (P : Type) extends HandOff where
  clientMessageId : String
  fence : ℤ
  payloadFingerprint : String
  providerItemId : Option String
  submittedAt : ℤ
  resolvedAt : Option ℤ
  submittedSequence : ℤ
  recovered : Bool
  acceptedSequence : Option ℤ
  queuedMessageId : Option String
  origin : Option String
  source : Option String
  keptAsQueuedMessageId : Option String
  options : Option P
deriving DecidableEq

structure AgentJournalAcceptanceReceipt where
  clientMessageId : String
  providerItemId : String
  cursor : AgentJournalCursor
  acceptedAt : ℤ
deriving DecidableEq

inductive QueuedMessageState where
  | waiting | dispatched | returned | withdrawn
deriving DecidableEq

structure QueuedMessageRow (P : Type) where
  messageId : String
  position : ℤ
  body : AgentJournalMessageItem P
  fingerprint : String
  state : QueuedMessageState
  holdReason : Option String
  returnedReason : Option String
  returnedRejection : Option UnreadAgentSessionFailureFact
  consumedAs : Option String
  recovers : Option String
  queuedAt : Option AgentJournalCursor
  options : Option P
deriving DecidableEq

structure JournalRowBase extends AgentJournalProducerLinkage where
  epoch : String
  seq : ℤ
  fence : ℤ
  ts : ℤ
  recovered : Bool
  turnScope : Option AgentJournalTurnScope
deriving DecidableEq

/-- A write of one item.  `echoOf` is `none` where the row does not declare it. -/
structure JournalItemWrite (P : Type) where
  itemId : String
  revision : ℤ
  body : AgentJournalItemBody P
  ownerFence : Option ℤ
  executionOwner : Option ℤ
  echoOf : Option P
deriving DecidableEq

inductive JournalLifecycleMutation (P : Type) where
  | item (write : JournalItemWrite P) (linkage : AgentJournalProducerLinkage)
      (turnScope : Option AgentJournalTurnScope) (observedAt : Option ℤ)
  | tombstone (itemId : String) (revision : ℤ)
deriving DecidableEq

structure JournalTombstone where
  itemId : String
  revision : ℤ
  stopOrResume : Bool
  retireSubmission : Bool
deriving DecidableEq

structure JournalSubmissionWrite (P : Type) where
  clientMessageId : String
  payloadFingerprint : String
  body : AgentJournalMessageItem P
  handoverRecorded : Bool
  queuedMessageId : Option String
  origin : Option String
  source : Option String
  options : Option P
deriving DecidableEq

/-- An answered turn as a row stores it; a newer host may name another way. -/
structure StoredAnsweredTurn where
  turnItemId : String
  via : String
deriving DecidableEq

/-- Malformed and unknown joins mean no answered turn. -/
def readAnsweredTurn (value : Option StoredAnsweredTurn) : Option AgentJournalAnsweredTurn :=
  match value with
  | none => none
  | some ⟨turnItemId, via⟩ =>
    if turnItemId = "" then none
    else if via = "start" then some ⟨turnItemId, .start⟩
    else if via = "steer" then some ⟨turnItemId, .steer⟩
    else none

structure JournalDispatch where
  clientMessageId : String
  state : AgentJournalDispatchState
  providerItemId : Option String
  reason : Option String
  rejection : Option StoredFact
  keptAsQueuedMessageId : Option String
  answeredInTurn : Option (Option StoredAnsweredTurn)
deriving DecidableEq

/-- A refusal restated with a card whose own rows are gone. -/
structure ReturnedRefusal where
  reason : Option String
  rejection : Option StoredFact
deriving DecidableEq

structure JournalQueuedChange (P : Type) where
  body : AgentJournalMessageItem P
  position : ℤ
  queuedAt : Option AgentJournalCursor
  holdReason : Option String
  options : Option P
  attempt : Option String
  recovers : Option String
  returned : Option ReturnedRefusal
deriving DecidableEq

inductive JournalQueueChange (P : Type) where
  | queued (change : JournalQueuedChange P)
  | edited (body : AgentJournalMessageItem P)
  | moved (position : ℤ)
  | held (holdReason : String)
  | withdrawn
deriving DecidableEq

inductive JournalRowContent (P : Type) where
  | epoch
  | item (write : JournalItemWrite P)
  | tombstone (tombstone : JournalTombstone)
  | submission (write : JournalSubmissionWrite P)
  | dispatch (dispatch : JournalDispatch)
  | lifecycleBatch (settlementId : String) (mutations : List (JournalLifecycleMutation P))
  | queue (messageId : String) (change : JournalQueueChange P)
deriving DecidableEq

structure JournalRow (P : Type) where
  base : JournalRowBase
  content : JournalRowContent P
deriving DecidableEq

end Wakii.JournalRows
