import Wakii.Library.JsonRoundTrip

/-!
# Receipts of durable orchestration requests

A durable request is known by its caller, its request id and a hash of its input.
What is replayed to a second request carries the receipt of the first.
-/

namespace Wakii.Mutations

open Json (NumberFormat field? setField isProper setField_setField isProper_setField
  field?_setField)

variable {N : Type}

/-- What the executor uses of the world outside: numbers and their texts, and the digest. -/
structure Environment (N : Type) where
  format : NumberFormat N
  isPositive : N → Bool
  sha256 : Text → Text

def property? (name : String) : Json N → Option (Json N)
  | .object fields => field? (Text.ofString name) fields
  | _ => none

def isTrue : Option (Json N) → Bool
  | some (.bool true) => true
  | _ => false

def isFalse : Option (Json N) → Bool
  | some (.bool false) => true
  | _ => false

def text? : Option (Json N) → Option Text
  | some (.string value) => some value
  | _ => none

section Methods

def ORCHESTRATION_MUTATION_METHODS : List String :=
  ["orchestration.runCreate", "orchestration.runUse", "orchestration.send", "orchestration.reply",
    "orchestration.taskCreate", "orchestration.taskUpdate", "orchestration.dispatch",
    "orchestration.workerStart", "orchestration.workerStop", "orchestration.workerAbandon",
    "orchestration.workerRelease", "orchestration.workerRetain", "orchestration.ask",
    "orchestration.gateCreate", "orchestration.gateResolve", "orchestration.reset",
    "orchestration.federationAttachStart", "orchestration.federationAck",
    "orchestration.federationImport", "orchestration.federationStop",
    "orchestration.federationRelease", "orchestration.federationRetain"]

def RETIRED_ORCHESTRATION_METHODS : List String := ["orchestration.run", "orchestration.runStop"]

def isExplicitReadOnlyCheck (params : Json N) : Bool :=
  isTrue (property? "peek" params) || isTrue (property? "all" params) ||
    isFalse (property? "unread" params)

def isOrchestrationMutation (method : String) (params : Json N) : Bool :=
  if method ∈ RETIRED_ORCHESTRATION_METHODS then true
  else if method = "orchestration.check" then
    if (text? (property? "ack" params)).isSome then true else !isExplicitReadOnlyCheck params
  else if method = "orchestration.dispatch" then !isTrue (property? "dryRun" params)
  else method ∈ ORCHESTRATION_MUTATION_METHODS

def isTerminalPromptMutation (method : String) (params : Json N) : Bool :=
  method = "terminal.send" && isTrue (property? "agentPrompt" params) &&
    (text? (property? "text" params)).any (· ≠ []) && isTrue (property? "enter" params) &&
    !isTrue (property? "interrupt" params) &&
    text? ((property? "client" params).bind (property? "type")) = some (Text.ofString "desktop")

def isDurableMutation (method : String) (params : Json N) : Bool :=
  isOrchestrationMutation method params || isTerminalPromptMutation method params

def isWorkerDoneSend (method : String) (params : Json N) : Bool :=
  method = "orchestration.send" &&
    text? (property? "type" params) = some (Text.ofString "worker_done")

/-- The methods whose body writes the receipt row itself, when it accepts the worker. -/
def isAtomicWorkerAcceptance (method : String) : Bool :=
  method = "orchestration.workerStart" || method = "orchestration.federationAttachStart"

end Methods

section Hashes

mutual
def canonicalize : Json N → Json N
  | .array items => .array (canonicalizeItems items)
  | .object fields =>
    .object ((canonicalizeFields fields).mergeSort fun first second => first.1 ≤ second.1)
  | value => value

def canonicalizeItems : List (Json N) → List (Json N)
  | [] => []
  | item :: rest => canonicalize item :: canonicalizeItems rest

def canonicalizeFields : List (Text × Json N) → List (Text × Json N)
  | [] => []
  | (key, value) :: rest => (key, canonicalize value) :: canonicalizeFields rest
end

def Environment.hashCanonical (environment : Environment N) (value : Json N) : Text :=
  environment.sha256 (Json.stringify environment.format (canonicalize value))

def isHexUnit (unit : CodeUnit) : Bool :=
  Json.isDigit unit || (0x61 ≤ unit.val && unit.val ≤ 0x66)

def isUnitOf (units : String) (unit : CodeUnit) : Bool := unit ∈ Text.ofString units

def hyphen : CodeUnit := 0x2D

/-- Eight, four, four, four and twelve hexadecimal digits, with a version and a variant. -/
def isTerminalLeafId (value : Text) : Bool :=
  value.length = 36 && (value.zipIdx.all fun (unit, index) =>
    if index = 8 ∨ index = 13 ∨ index = 18 ∨ index = 23 then unit = hyphen
    else if index = 14 then isUnitOf "12345" unit
    else if index = 19 then isUnitOf "89ab" unit
    else isHexUnit unit)

/-- The leaf a pane key names, when it is a tab id, one colon and a leaf id. -/
def paneLeafId? (paneKey : Text) : Option Text :=
  let tabId := paneKey.takeWhile (· ≠ Json.colon)
  let leafId := (paneKey.dropWhile (· ≠ Json.colon)).tail
  if tabId ≠ [] ∧ Json.colon ∈ paneKey ∧ isTerminalLeafId leafId then some leafId else none

def deleteField (key : Text) (fields : List (Text × Json N)) : List (Text × Json N) :=
  fields.filter (·.1 ≠ key)

def withoutAnswer : Json N → Json N
  | .object fields => .object (deleteField (Text.ofString "answerSenderReport") fields)
  | value => value

def stableHandle (paneKeyOf : Text → Option Text) (source : List (Text × Json N))
    (result : List (Text × Json N)) (name : String) : List (Text × Json N) :=
  match text? (property? name (.object source)) with
  | none => result
  | some handle =>
    let senderPaneKey := text? (property? "senderPaneKey" (.object source))
    let paneKey := if name = "from" ∧ senderPaneKey.isSome then senderPaneKey
      else paneKeyOf handle
    match paneKey with
    | none | some [] => result
    | some paneKey =>
      setField (Text.ofString name)
        (match paneLeafId? paneKey with
          | some leafId => .object [(Text.ofString "paneLeafId", .string leafId)]
          | none => .object [(Text.ofString "paneKey", .string paneKey)])
        result

def replayStableCallerParams (paneKeyOf : Text → Option Text) (params : Json N)
    (callerOrcaSessionId : Option Text) (method : String) : Json N :=
  match params with
  | .object source =>
    let result := match callerOrcaSessionId with
      | some (unit :: rest) =>
        setField (Text.ofString "__orcaCallerOrcaSessionId") (.string (unit :: rest)) source
      | _ => source
    let result := match method, field? (Text.ofString "items") result with
      | "orchestration.federationImport", some (.array items) =>
        setField (Text.ofString "items") (.array (items.map withoutAnswer)) result
      | _, _ => result
    let result := deleteField (Text.ofString "waitSubmitMs") result
    .object (["from", "callerTerminalHandle", "terminal"].foldl (stableHandle paneKeyOf source)
      result)
  | value => value

def readPromptBasePayloadHash (payloadHash : Text) : Text :=
  payloadHash.takeWhile (· ≠ Json.colon)

def readPromptBindingPayloadHash (payloadHash : Text) : Option Text :=
  if Json.colon ∈ payloadHash then some (payloadHash.dropWhile (· ≠ Json.colon)).tail else none

end Hashes

section Receipts

def mutationKey : Text := Text.ofString "mutation"

def attachMutationReceipt (result : Json N) (requestId : Text) (replayed : Bool) : Json N :=
  let mutation : Json N := .object
    [(Text.ofString "requestId", .string requestId), (Text.ofString "replayed", .bool replayed)]
  match result with
  | .object fields => .object (setField mutationKey mutation fields)
  | _ => .object [(Text.ofString "result", result), (mutationKey, mutation)]

/-- The observation of a replayed prompt, when its terminal was replaced. -/
def markReplayedPromptIncarnationReplaced (receipt : Json N) : Json N :=
  match receipt, property? "send" receipt with
  | .object fields, some (.object send) =>
    match field? (Text.ofString "prompt") send with
    | some (.object prompt) =>
      .object (setField (Text.ofString "send") (.object (setField (Text.ofString "prompt")
          (.object (setField (Text.ofString "observation")
            (.string (Text.ofString "incarnation_replaced")) prompt)) send)) fields)
    | _ => receipt
  | _, _ => receipt

def isReplayTarget (target : Json N) : Bool :=
  (text? (property? "to" target)).isSome && (text? (property? "type" target)).isSome

/-- Whether a receipt asks that its messages or its federation be nudged again. -/
def hasMutationReplayNudge (receipt : Json N) : Bool :=
  match property? "__orcaReplayNudge" receipt with
  | some (.object nudge) =>
    if text? (field? (Text.ofString "kind") nudge) = some (Text.ofString "federation") then
      match field? (Text.ofString "runId") nudge with
      | none | some (.string _) => true
      | _ => false
    else if text? (field? (Text.ofString "kind") nudge) = some (Text.ofString "messages") then
      match field? (Text.ofString "targets") nudge with
      | some (.array targets) => targets ≠ [] ∧ targets.all isReplayTarget
      | _ => false
    else false
  | _ => false

def hasWorkerDoneReplayNudge (method : String) (params receipt : Json N) : Bool :=
  let action := text? ((property? "lifecycle" receipt).bind (property? "action"))
  let message := property? "message" receipt
  isWorkerDoneSend method params &&
    action.any (· ∈ ["completed", "failed", "rejected"].map Text.ofString) &&
    (text? (message.bind (property? "to_handle"))).isSome &&
    (text? (message.bind (property? "type"))).isSome

def Environment.isPositiveNumber (environment : Environment N) : Option (Json N) → Bool
  | some (.number value) => environment.isPositive value
  | _ => false

/-- Whether the stages of a prompt are listed without the start of its turn. -/
def awaitsTurn (receipt : Json N) : Bool :=
  match ((property? "send" receipt).bind (property? "prompt")).bind (property? "stages") with
  | some (.array stages) =>
    !stages.any fun stage => text? (some stage) = some (Text.ofString "turn_started")
  | _ => false

def Environment.shouldObserveCompletedMutation (environment : Environment N) (method : String)
    (params receipt : Json N) : Bool :=
  if hasMutationReplayNudge receipt || hasWorkerDoneReplayNudge method params receipt then true
  else if !isTerminalPromptMutation method params then false
  else if !environment.isPositiveNumber (property? "waitSubmitMs" params) then false
  else awaitsTurn receipt

def effectFreeWorkerDone : Json N :=
  .object [(Text.ofString "pending",
    .object [(Text.ofString "effectFree", .string (Text.ofString "worker_done"))])]

def Environment.EFFECT_FREE_WORKER_DONE_CHECKPOINT (environment : Environment N) : Text :=
  Json.stringify environment.format effectFreeWorkerDone

def Environment.isResumablePendingWorkerDone (environment : Environment N) (method : String)
    (params : Json N) (receipt : Option Text) : Bool :=
  isWorkerDoneSend method params && receipt = some environment.EFFECT_FREE_WORKER_DONE_CHECKPOINT

end Receipts

section Attach

theorem attach_attach (result : Json N) (requestId : Text) (first second : Bool) :
    attachMutationReceipt (attachMutationReceipt result requestId first) requestId second =
      attachMutationReceipt result requestId second := by
  have hother : Text.ofString "result" ≠ mutationKey := by decide
  cases result with
  | object fields => simp only [attachMutationReceipt, setField_setField]
  | null | bool | number | string | array =>
    simp only [attachMutationReceipt, setField, if_neg hother, if_pos]

theorem isProper_attach {result : Json N} (hresult : isProper result) (requestId : Text)
    (replayed : Bool) : isProper (attachMutationReceipt result requestId replayed) := by
  have hmutation : isProper (.object [(Text.ofString "requestId", .string requestId),
      (Text.ofString "replayed", .bool replayed)] : Json N) = true := by
    have hkeys : [Text.ofString "requestId", Text.ofString "replayed"].Nodup := by decide
    rw [isProper, Bool.and_eq_true, decide_eq_true_eq]
    exact ⟨hkeys, rfl⟩
  cases result with
  | object fields => exact isProper_setField hmutation hresult
  | null | bool | number | string | array =>
    have hkeys : [Text.ofString "result", mutationKey].Nodup := by decide
    change isProper (.object [(Text.ofString "result", _), (mutationKey, _)]) = true
    rw [isProper, Bool.and_eq_true, decide_eq_true_eq]
    refine ⟨hkeys, ?_⟩
    rw [Json.areFieldsProper, Json.areFieldsProper, hresult, hmutation]
    rfl

def isMarkedReplayed (receipt : Json N) : Bool :=
  isTrue ((property? "mutation" receipt).bind (property? "replayed"))

theorem isMarkedReplayed_attach (result : Json N) (requestId : Text) (replayed : Bool) :
    isMarkedReplayed (attachMutationReceipt result requestId replayed) = replayed := by
  have hmutation : property? "mutation" (attachMutationReceipt result requestId replayed) =
      some (.object [(Text.ofString "requestId", .string requestId),
        (Text.ofString "replayed", .bool replayed)]) := by
    have hother : Text.ofString "result" ≠ mutationKey := by decide
    cases result with
    | object fields => exact field?_setField mutationKey _ fields
    | null | bool | number | string | array =>
      simp only [attachMutationReceipt, property?]
      change field? mutationKey _ = _
      rw [field?, List.find?_cons_of_neg (by simpa using hother)]
      simp
  have hfield : property? "replayed" (.object [(Text.ofString "requestId", .string requestId),
      (Text.ofString "replayed", .bool replayed)] : Json N) = some (.bool replayed) := by
    have hother : Text.ofString "requestId" ≠ Text.ofString "replayed" := by decide
    rw [property?, field?, List.find?_cons_of_neg (by simpa using hother)]
    simp
  rw [isMarkedReplayed, hmutation, Option.bind_some, hfield]
  cases replayed <;> rfl

end Attach

end Wakii.Mutations
