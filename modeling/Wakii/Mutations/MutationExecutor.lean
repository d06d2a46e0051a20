import Wakii.Mutations.MutationReceipt

/-!
# The executor of durable orchestration requests

A request runs its body once; a request that repeats it joins the run under way
or is answered from the receipt row.  A restart loses the runs under way and
keeps the rows.  What belongs to one caller and request id is kept in one slot.
-/

namespace Wakii.Mutations

variable {N : Type}

/-- A caller fingerprint, which is hexadecimal, and a request id. -/
abbrev Key := Text × Text

inductive ReceiptState
  | pending
  | completed
  deriving DecidableEq

structure MutationReceiptRow where
  method : String
  payloadHash : Text
  state : ReceiptState
  receipt : Option Text

inductive ErrorCode
  | requestMismatch
  | operationUnknown
  | other
  deriving DecidableEq

/-- A value of JavaScript, whose objects name no property twice. -/
structure Value (N : Type) where
  json : Json N
  proper : Json.isProper json = true

inductive Outcome (N : Type)
  | returned (result : Value N)
  | threw (code : ErrorCode)

/-- What became of a run of a body. -/
inductive Fate
  | open
  | completed
  /-- The run failed and its row was deleted, where it was pending. -/
  | discarded
  | kept
  | lost
  deriving DecidableEq

structure Launch (N : Type) where
  method : String
  params : Json N
  payloadHash : Text
  replayedReceipt : Option (Json N)
  foundPending : Option MutationReceiptRow

structure Invocation (N : Type) extends Launch N where
  effectPossible : Bool
  outcome : Option (Outcome N)
  fate : Fate
  accepted : Bool
  /-- What it recorded, and what it returned to the call it ran for. -/
  results : List (Value N)

namespace Invocation

variable (invocation : Invocation N)

def isObservation : Bool := invocation.replayedReceipt.isSome

def isAtomic : Bool := isAtomicWorkerAcceptance invocation.method

def isPrompt : Bool := isTerminalPromptMutation invocation.method invocation.params

def isResumed : Bool := invocation.foundPending.isSome

def isReplay : Bool := invocation.isObservation || invocation.isResumed

def isRunning : Bool := invocation.fate = .open && invocation.outcome.isNone

end Invocation

structure Reply (N : Type) where
  value : Json N
  /-- The run that the answered call made itself. -/
  leader : Option ℕ

/-- What the receipt store and the executor hold for one caller and request id. -/
structure Slot (N : Type) where
  row : Option MutationReceiptRow
  inFlight : Option ℕ
  invocations : List (Invocation N)
  joins : List ℕ
  replies : List (Reply N)

def emptySlot (N : Type) : Slot N := ⟨none, none, [], [], []⟩

structure Request (N : Type) where
  callerFingerprint : Text
  requestId : Option Text
  method : String
  params : Json N
  callerOrcaSessionId : Option Text
  /-- What the runtime says while the request is read; a terminal that is gone has no binding. -/
  paneKeyOf : Text → Option Text
  promptBinding : Text → Option (Json N)

/-- What a request comes to before it first waits. -/
inductive Decision (N : Type)
  | refuse (code : ErrorCode)
  | join (invocation : ℕ)
  | answer (value : Json N)
  | observe (payloadHash : Text) (receipt : Json N)
  /-- The body runs for a pending row that is there. -/
  | resume (row : MutationReceiptRow)
  /-- The body runs; but for a worker start, its row comes first. -/
  | start (payloadHash : Text)

def MutationReceiptRow.isOf (row : MutationReceiptRow) (invocation : Invocation N) : Bool :=
  row.method = invocation.method && row.payloadHash = invocation.payloadHash

section Reading

variable (environment : Environment N) (request : Request N)

def terminalHandle (params : Json N) : Text := (text? (property? "terminal" params)).getD []

def payloadHash (existing : Option MutationReceiptRow) : Option (Text × Bool) :=
  let stable := replayStableCallerParams request.paneKeyOf request.params
    request.callerOrcaSessionId request.method
  let basePayloadHash := environment.hashCanonical (.object
    [(Text.ofString "method", .string (Text.ofString request.method)),
      (Text.ofString "params", stable)])
  let binding := (request.promptBinding (terminalHandle request.params)).map
    environment.hashCanonical
  match existing with
  | some row =>
    let recorded := readPromptBindingPayloadHash row.payloadHash
    if row.method ≠ request.method ∨
        readPromptBasePayloadHash row.payloadHash ≠ basePayloadHash then none
    else some (row.payloadHash, recorded.isSome && recorded ≠ binding)
  | none =>
    if isTerminalPromptMutation request.method request.params then
      binding.map fun binding => (basePayloadHash ++ Json.colon :: binding, false)
    else some (basePayloadHash, false)

def parseReceipt (row : MutationReceiptRow) : Json N :=
  (row.receipt.bind (Json.parse environment.format)).getD .null

end Reading

namespace Slot

variable (slot : Slot N) (environment : Environment N) (request : Request N) (requestId : Text)

def decideRow (row : MutationReceiptRow) (payloadHash : Text) (promptBindingChanged : Bool) :
    Decision N :=
  match row.state, slot.inFlight with
  | _, some active => .join active
  | .completed, none =>
    let receipt := parseReceipt environment row
    if promptBindingChanged then
      .answer (attachMutationReceipt (markReplayedPromptIncarnationReplaced receipt) requestId true)
    else if !environment.shouldObserveCompletedMutation request.method request.params receipt then
      .answer (attachMutationReceipt receipt requestId true)
    else .observe payloadHash receipt
  | .pending, none =>
    if isTerminalPromptMutation request.method request.params then .refuse .operationUnknown
    else if request.method = "orchestration.workerRelease" ∨
        environment.isResumablePendingWorkerDone request.method request.params row.receipt then
      .resume row
    else .refuse .operationUnknown

def decide : Decision N :=
  let existingPromptReceipt :=
    if isTerminalPromptMutation request.method request.params then slot.row else none
  match payloadHash environment request existingPromptReceipt with
  | none => .refuse (if existingPromptReceipt.isSome then .requestMismatch else .other)
  | some (payloadHash, promptBindingChanged) =>
    match if isAtomicWorkerAcceptance request.method then slot.inFlight else none with
    -- Two worker starts meet here, since the first has no row before it accepts.
    | some active =>
      if (slot.invocations[active]?).any fun invocation =>
          invocation.method = request.method ∧ invocation.payloadHash = payloadHash then
        .join active
      else .refuse .requestMismatch
    | none =>
      match slot.row with
      | none => .start payloadHash
      | some row =>
        if row.method ≠ request.method ∨ row.payloadHash ≠ payloadHash then
          .refuse .requestMismatch
        else slot.decideRow environment request requestId row payloadHash promptBindingChanged

def launch (launch : Launch N) : Slot N :=
  { slot with
    inFlight := some slot.invocations.length
    invocations := slot.invocations ++ [{ launch with
          effectPossible := false, outcome := none, fate := .open, accepted := false
          results := [] }] }

def reply (value : Json N) (leader : Option ℕ) : Slot N :=
  { slot with replies := slot.replies ++ [⟨value, leader⟩] }

def run : Slot N :=
  match slot.decide environment request requestId with
  | .refuse _ => slot
  | .join active => { slot with joins := slot.joins ++ [active] }
  | .answer value => slot.reply value none
  | .observe payloadHash receipt =>
    slot.launch ⟨request.method, request.params, payloadHash, some receipt, none⟩
  | .resume row =>
    slot.launch ⟨request.method, request.params, row.payloadHash, none, some row⟩
  | .start payloadHash =>
    (if isAtomicWorkerAcceptance request.method then slot
      else { slot with row := some ⟨request.method, payloadHash, .pending, none⟩ }).launch
        ⟨request.method, request.params, payloadHash, none, none⟩

def change (id : ℕ) (f : Invocation N → Invocation N) : Slot N :=
  { slot with invocations := slot.invocations.modify id f }

/-- `completeMutationReceipt`: the row, or none where it is not the one of the run. -/
def completedRow (invocation : Invocation N) (receipt : Json N) : Option MutationReceiptRow :=
  (slot.row.filter (·.isOf invocation)).map fun row =>
    { row with state := .completed, receipt := some (Json.stringify environment.format receipt) }

def noteReceipt (allowed : MutationReceiptRow → Bool) (receipt : Text) : Slot N :=
  { slot with
    row := slot.row.map fun row =>
      if row.state = .pending ∧ allowed row then { row with receipt := some receipt } else row }

def recordReceipt (id : ℕ) (invocation : Invocation N) (result : Value N) : Slot N :=
  match slot.completedRow environment invocation
      (attachMutationReceipt result.json requestId invocation.isReplay) with
  | some row =>
    { slot with row := some row }.change id fun invocation =>
      { invocation with
        results := invocation.results ++ [result]
        effectPossible := invocation.effectPossible || !invocation.isObservation }
  | none => slot

/-- The body of a worker start writes its row; a row that is there makes it fail. -/
def acceptWorker (id : ℕ) (invocation : Invocation N) (receipt : Value N) : Slot N :=
  if invocation.isAtomic ∧ ¬ invocation.isObservation ∧ slot.row.isNone then
    { slot with
      row := some ⟨invocation.method, invocation.payloadHash, .pending,
        some (Json.stringify environment.format receipt.json)⟩ }.change id fun invocation =>
          { invocation with accepted := true }
  else slot

def leave (id : ℕ) (fate : Fate) : Slot N :=
  { slot.change id fun invocation => { invocation with fate } with inFlight := none }

/-- The run failed: its pending row goes, unless its effect may have come about. -/
def fail (id : ℕ) (invocation : Invocation N) (code : ErrorCode) : Slot N :=
  if (¬ invocation.isPrompt ∨ ¬ invocation.effectPossible) ∧ code ≠ .operationUnknown then
    if slot.row.any (·.state = .completed) then slot.leave id .completed
    else { slot with row := none }.leave id .discarded
  else slot.leave id .kept

def conclude (id : ℕ) (invocation : Invocation N) (outcome : Outcome N) : Slot N :=
  -- A failed observation answers with the receipt it was to replay.
  let giveUp (code : ErrorCode) : Slot N :=
    match invocation.replayedReceipt with
    | some receipt =>
      (slot.leave id .completed).reply (attachMutationReceipt receipt requestId true) (some id)
    | none => slot.fail id invocation code
  match outcome with
  | .threw code => giveUp code
  | .returned result =>
    let receipted := attachMutationReceipt result.json requestId invocation.isReplay
    match slot.completedRow environment invocation receipted with
    | some row =>
      (({ slot with row := some row }.change id fun invocation =>
        { invocation with results := invocation.results ++ [result] }).leave id
          .completed).reply receipted (some id)
    | none => giveUp .requestMismatch

/-- A worker start returns only after it wrote its row. -/
def maySettle (invocation : Invocation N) : Outcome N → Bool
  | .returned _ => invocation.isObservation || !invocation.isAtomic || invocation.accepted
  | .threw _ => true

end Slot

inductive Action (N : Type)
  | acceptWorker (id : ℕ) (receipt : Value N)
  /-- A worker start made for this run notes in the row what it accepted. -/
  | noteAccepted (id : ℕ) (receipt : Value N)
  | markWorkerDoneEffectFree (id : ℕ)
  | markEffectPossible (id : ℕ)
  | recordReceipt (id : ℕ) (result : Value N)
  | settle (id : ℕ) (outcome : Outcome N)
  | conclude (id : ℕ)
  | answerJoin (index : ℕ)

namespace Slot

variable (slot : Slot N) (environment : Environment N) (requestId : Text)

def whileRunning (id : ℕ) (act : Invocation N → Slot N) : Slot N :=
  match slot.invocations[id]? with
  | some invocation => if invocation.isRunning then act invocation else slot
  | none => slot

def act : Action N → Slot N
  | .acceptWorker id receipt =>
    slot.whileRunning id fun invocation => slot.acceptWorker environment id invocation receipt
  | .noteAccepted id receipt =>
    slot.whileRunning id fun _ =>
      slot.noteReceipt (fun _ => true) (Json.stringify environment.format receipt.json)
  | .markWorkerDoneEffectFree id =>
    slot.whileRunning id fun invocation =>
      if invocation.isObservation then slot
      else slot.noteReceipt (·.isOf invocation) environment.EFFECT_FREE_WORKER_DONE_CHECKPOINT
  | .markEffectPossible id =>
    slot.whileRunning id fun invocation =>
      if invocation.isObservation then slot
      else slot.change id fun invocation => { invocation with effectPossible := true }
  | .recordReceipt id result =>
    slot.whileRunning id fun invocation =>
      slot.recordReceipt environment requestId id invocation result
  | .settle id outcome =>
    slot.whileRunning id fun invocation =>
      if maySettle invocation outcome then
        slot.change id fun invocation => { invocation with outcome := some outcome }
      else slot
  | .conclude id =>
    match slot.invocations[id]? with
    | some invocation =>
      match invocation.fate, invocation.outcome with
      | .open, some outcome => slot.conclude environment requestId id invocation outcome
      | _, _ => slot
    | none => slot
  -- A call that joined was later to wait, so the call that made the run goes first.
  | .answerJoin index =>
    match (slot.joins[index]?).bind fun id => slot.invocations[id]? with
    | some invocation =>
      match invocation.fate, invocation.outcome with
      | .open, _ => slot
      | _, some (.returned result) =>
        slot.reply (attachMutationReceipt result.json requestId true) none
      | _, _ => slot
    | none => slot

def restart : Slot N :=
  { slot with
    inFlight := none
    joins := []
    invocations := slot.invocations.map fun invocation =>
      if invocation.fate = .open then { invocation with fate := .lost } else invocation }

end Slot

abbrev Executor (N : Type) := Key → Slot N

def newExecutor (N : Type) : Executor N := fun _ => emptySlot N

inductive Event (N : Type)
  | run (request : Request N)
  | act (key : Key) (action : Action N)
  | restart

/-- The slot of a request; one without an id, or that changes nothing, runs its body as it is. -/
def Request.key? (request : Request N) : Option Key :=
  match request.requestId with
  | none | some [] => none
  | some requestId =>
    if isDurableMutation request.method request.params then
      some (request.callerFingerprint, requestId)
    else none

namespace Executor

variable (environment : Environment N)

def step (executor : Executor N) : Event N → Executor N
  | .run request =>
    match request.key? with
    | none => executor
    | some key => Function.update executor key ((executor key).run environment request key.2)
  | .act key action =>
    Function.update executor key ((executor key).act environment key.2 action)
  | .restart => fun key => (executor key).restart

def runEvents (executor : Executor N) (events : List (Event N)) : Executor N :=
  events.foldl (step environment) executor

end Executor

end Wakii.Mutations
