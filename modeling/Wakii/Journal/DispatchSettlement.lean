import Mathlib.Data.String.Basic

/-!
# What a rejection proves

A refused send carries a typed failure fact, or only the sentence an older host
wrote.  The classification decides whether the person was failed; together with
the hand-over record it decides whether the message may be sent again.
-/

namespace Wakii.DispatchSettlement

inductive AgentSessionFailureKind where
  | providerStartFailed | savedConversationMissing | startFailed | notSignedIn | cliMissing
  | historyTooLarge | managedAccountEnvOverride | accountSwitchInProgress
  | managedAccountUnsupported | launchFolderMissing | historyInOtherAccount
  | claudeAccountFolderMissing | claudeAccountSetupFailed | agentCommandNotRunnable
  | runtimeNotInstalled | fullAccessAsRoot | launchPreparationFailed
  | conversationOpenInTerminal | conversationOpenElsewhere | providerExited | restartFailed
  | providerRejected | modelUnavailable | claudeEffortInvalid | attachmentInvalid
  | attachmentUnreadable | emptyMessage | commandUnavailable | queueFull | writeFailed
  | cancelled | chatClosed | hostRestarted | notDelivered | unconfirmed | commandRefused
  | compactionFailed | compactionUnconfirmed | cancelUnconfirmed | stopRefused | stopFailed
  | backgroundTaskNotStopped | answerUnconfirmed | hostFault | hostStopped | providerRetrying
  | usageLimitReached | previousExitUnverifiable | sessionNotRestored
deriving DecidableEq

/-- The kind a stored fact names: one of ours, or a tag of a newer build. -/
inductive StoredKind where
  | known (kind : AgentSessionFailureKind)
  | newer (tag : String)
deriving DecidableEq

/-- A `rejection` annotation as a row stores it, when it is an object.  The tag
is absent where `kind` is not a string. -/
structure StoredFact where
  kind : Option StoredKind
  neverReachedAgent : Bool
deriving DecidableEq

structure AgentSessionFailureFact where
  kind : AgentSessionFailureKind
  neverReachedAgent : Bool
deriving DecidableEq

/-- What a submission or a card keeps of a rejection. -/
inductive UnreadAgentSessionFailureFact where
  | read (fact : AgentSessionFailureFact)
  | unread (tag : String)
deriving DecidableEq

def readAgentSessionFailureFact (value : Option StoredFact) : Option AgentSessionFailureFact :=
  match value with
  | some ⟨some (.known kind), neverReachedAgent⟩ => some ⟨kind, neverReachedAgent⟩
  | _ => none

/-- An unknown fact is kept by its tag alone. -/
def unreadFailureFact (value : Option StoredFact) : Option UnreadAgentSessionFailureFact :=
  match value with
  | some ⟨some (.newer tag), _⟩ => if tag = "" then none else some (.unread tag)
  | _ => none

def readStoredRejectionFact (value : Option StoredFact) : Option UnreadAgentSessionFailureFact :=
  ((readAgentSessionFailureFact value).map .read).or (unreadFailureFact value)

/-- `readAgentSessionFailureFact` of a fact that was kept. -/
def readKept (rejection : Option UnreadAgentSessionFailureFact) : Option AgentSessionFailureFact :=
  match rejection with
  | some (.read fact) => some fact
  | _ => none

/-- Kinds only a status row reports: none is ever why a message was not sent. -/
def statusRowOnlyFailureKinds : List AgentSessionFailureKind :=
  [.compactionFailed, .compactionUnconfirmed, .cancelUnconfirmed, .stopRefused, .stopFailed,
    .backgroundTaskNotStopped, .answerUnconfirmed, .providerRetrying, .usageLimitReached,
    .previousExitUnverifiable, .sessionNotRestored]

def isSubmissionRejectionKind (kind : AgentSessionFailureKind) : Bool :=
  !statusRowOnlyFailureKinds.contains kind

inductive DispatchRejectionCategory where
  | withdrawn | undelivered | startFailed | content | transport
deriving DecidableEq

structure DispatchRejectionClassification where
  category : DispatchRejectionCategory
  failure : Bool
deriving DecidableEq

/-- The kinds placed outside `startFailed`, the category of every other kind. -/
def kindCategory : AgentSessionFailureKind → DispatchRejectionCategory
  | .cancelled => .withdrawn
  | .hostRestarted | .chatClosed | .notDelivered | .unconfirmed | .providerExited
  | .hostStopped => .undelivered
  | .providerRejected | .modelUnavailable | .claudeEffortInvalid | .attachmentInvalid
  | .attachmentUnreadable | .emptyMessage | .commandUnavailable | .commandRefused => .content
  | .queueFull | .writeFailed | .hostFault => .transport
  | _ => .startFailed

/-- Only withdrawals and lifecycle ends carry no failure verdict. -/
def kindVerdict : AgentSessionFailureKind → Bool
  | .cancelled | .hostRestarted | .chatClosed | .notDelivered | .unconfirmed => false
  | _ => true

def dispatchRejectedWriteFailed : String := "provider_write_failed"

def dispatchRejectionWasTransportWriteFailure (reason : Option String) : Bool :=
  match reason with
  | none => false
  | some text =>
    text = dispatchRejectedWriteFailed ||
      (dispatchRejectedWriteFailed ++ ": ").toList.isPrefixOf text.toList

def legacyMarkerKinds : List (String × AgentSessionFailureKind) :=
  [("provider_cancelled_before_start", .cancelled),
    ("host_restarted_before_delivery", .hostRestarted),
    ("provider_closed_before_delivery", .chatClosed),
    ("claude structured dispatch queue is full", .queueFull),
    ("codex structured dispatch queue is full", .queueFull),
    ("not_delivered", .notDelivered)]

def legacyMarkerKind (reason : Option String) : Option AgentSessionFailureKind :=
  if dispatchRejectionWasTransportWriteFailure reason then some .writeFailed
  else reason.bind fun text => legacyMarkerKinds.lookup text

/-- Typed facts outrank prose.  A fact this build cannot place proves
non-delivery without a verdict; prose without a marker is a content failure. -/
def classifyDispatchRejection (reason : Option String)
    (rejection : Option UnreadAgentSessionFailureFact) : DispatchRejectionClassification :=
  match rejection with
  | some (.unread _) => ⟨.undelivered, false⟩
  | some (.read fact) =>
    if isSubmissionRejectionKind fact.kind then
      ⟨kindCategory fact.kind, kindVerdict fact.kind⟩
    else ⟨.undelivered, false⟩
  | none =>
    match legacyMarkerKind reason with
    | none => ⟨.content, true⟩
    | some kind => ⟨kindCategory kind, kindVerdict kind⟩

/-- The turn a send was answered into. -/
inductive TurnJoin where
  | start | steer
deriving DecidableEq

structure AgentJournalAnsweredTurn where
  turnItemId : String
  via : TurnJoin
deriving DecidableEq

/-- A dispatch state is open: a newer build may store another word. -/
inductive AgentJournalDispatchState where
  | pending | accepted | rejected | unknown
  | newer (tag : String)
deriving DecidableEq

/-- The fields of a submission that settlement reads.  An absent
`answeredInTurn` (an older row) is `none`; a recorded "no turn" is `some none`. -/
structure HandOff where
  dispatchState : AgentJournalDispatchState
  reason : Option String
  rejection : Option UnreadAgentSessionFailureFact
  handoverRecorded : Bool
  handedOverAt : Option ℤ
  answeredInTurn : Option (Option AgentJournalAnsweredTurn)
deriving DecidableEq

/-- The turn, where the send is recorded as answered into one. -/
def HandOff.answered (handOff : HandOff) : Bool :=
  handOff.answeredInTurn.join.isSome

/-- No delivery is proved by a send the host still held, or by a typed fact
that the agent never got it while no turn answered. -/
def agentJournalSubmissionProvenUnwritten (handOff : HandOff) : Bool :=
  (handOff.handoverRecorded && handOff.handedOverAt.isNone) ||
    (((readKept handOff.rejection).map (·.neverReachedAgent)).getD false && !handOff.answered)

/-- Accepted and rejected are terminal; late rows must never reopen them. -/
def journalDispatchRowApplies (dispatchState : Option AgentJournalDispatchState) : Bool :=
  match dispatchState with
  | none | some .rejected | some .accepted => false
  | some _ => true

inductive QueuedHandOffOutcome where
  | returned | waiting | inDoubt
deriving DecidableEq

/-- Only a send proven undelivered may be queued again. -/
def queuedHandOffOutcome (rejected : HandOff) : QueuedHandOffOutcome :=
  if (classifyDispatchRejection rejected.reason rejected.rejection).failure then .returned
  else if agentJournalSubmissionProvenUnwritten rejected then .waiting
  else .inDoubt

def queuedHandOffInDoubt (submission : HandOff) : Bool :=
  if submission.dispatchState = .rejected then queuedHandOffOutcome submission = .inDoubt
  else
    journalDispatchRowApplies (some submission.dispatchState) &&
      !agentJournalSubmissionProvenUnwritten submission

def dispatchWasWithdrawn (submission : HandOff) : Bool :=
  submission.dispatchState = .rejected &&
    (classifyDispatchRejection submission.reason submission.rejection).category = .withdrawn

def isWriteFailureSubmission (submission : HandOff) : Bool :=
  (readKept submission.rejection).map (·.kind) = some .writeFailed ||
    dispatchRejectionWasTransportWriteFailure submission.reason

def withdrawnUnanswered (submission : HandOff) : Bool :=
  dispatchWasWithdrawn submission && !submission.answered

theorem provenUnwritten_of_waiting {rejected : HandOff}
    (hwaiting : queuedHandOffOutcome rejected = .waiting) :
    agentJournalSubmissionProvenUnwritten rejected = true := by
  by_contra hproof
  by_cases hfailure : (classifyDispatchRejection rejected.reason rejected.rejection).failure
  · simp [queuedHandOffOutcome, hfailure] at hwaiting
  · simp [queuedHandOffOutcome, hfailure, hproof] at hwaiting

end Wakii.DispatchSettlement
