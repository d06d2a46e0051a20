import Wakii.Journal.JournalItemKeys
import Wakii.Library.JsonBytes

/-!
# Batches of lifecycle mutations

A settlement is written as one batch row, or as several that each stay within the
bounds of a row.  A mutation is measured as the row it may be written as: with the
widest revision and owner fence, and with the outcome a Stop may add to its turn.
-/

namespace Wakii.LifecycleBatch

open Json (IntegerFormat field? maxSafeInteger setField)
open JournalItemKeys (ParsedJournalItemIdentity agentJournalItemKey)

def MAX_JOURNAL_LIFECYCLE_BATCH_BYTES : ℕ := 1500000
def MAX_JOURNAL_LIFECYCLE_BATCH_MUTATIONS : ℕ := 200
def AGENT_SESSION_JOURNAL_TURN_ITEM_SCHEMA_VERSION : ℕ := 3
def AGENT_SESSION_JOURNAL_PRE_TURN_SCHEMA_VERSION : ℕ := 2
def inlineHeadBytes : ℕ := 16 * 1024

def kindKey : Text := Text.ofString "kind"
def stateKey : Text := Text.ofString "state"
def outcomeKey : Text := Text.ofString "outcome"
def outputKey : Text := Text.ofString "output"
def truncatedKey : Text := Text.ofString "truncated"
def byteLengthKey : Text := Text.ofString "byteLength"
def headKey : Text := Text.ofString "head"
def itemIdKey : Text := Text.ofString "itemId"
def revisionKey : Text := Text.ofString "revision"
def bodyKey : Text := Text.ofString "body"
def observedAtKey : Text := Text.ofString "observedAt"
def echoOfKey : Text := Text.ofString "echoOf"
def turnScopeKey : Text := Text.ofString "turnScope"
def ownerFenceKey : Text := Text.ofString "ownerFence"
def agentIdKey : Text := Text.ofString "agentId"
def parentAgentIdKey : Text := Text.ofString "parentAgentId"
def providerParentRefKey : Text := Text.ofString "providerParentRef"
def producerKindKey : Text := Text.ofString "producerKind"
def attemptKey : Text := Text.ofString "attempt"
def versionKey : Text := Text.ofString "v"
def epochKey : Text := Text.ofString "epoch"
def seqKey : Text := Text.ofString "seq"
def fenceKey : Text := Text.ofString "fence"
def tsKey : Text := Text.ofString "ts"
def settlementIdKey : Text := Text.ofString "settlementId"
def mutationsKey : Text := Text.ofString "mutations"
def recoveredKey : Text := Text.ofString "recovered"

inductive JournalItemAddress where
  | identity (identity : ParsedJournalItemIdentity)
  | itemId (itemId : Text)

structure AgentJournalProducerLinkage (N : Type) where
  agentId : Option Text
  parentAgentId : Option Text
  providerParentRef : Option Text
  producerKind : Option Text
  attempt : Option N

/-- What a mutation of kind `item` states; the body is the object it is written as. -/
structure ItemMutation (N : Type) where
  echoOf : Option (Json N)
  body : List (Text × Json N)
  observedAt : Option N
  linkage : Option (AgentJournalProducerLinkage N)
  turnScope : Json N

inductive JournalLifecycleMutationInput (N : Type) where
  | item (address : JournalItemAddress) (item : ItemMutation N)
  | tombstone (address : JournalItemAddress)

structure JournalLifecycleMutationChunk (N : Type) where
  settlementId : Text
  mutations : List (JournalLifecycleMutationInput N)

structure JournalLifecycleBatchSizeOptions where
  recovered : Bool
  epoch : Option Text

def journalLifecycleMutationItemId : JournalItemAddress → Text
  | .itemId itemId => itemId
  | .identity identity => (agentJournalItemKey identity).getD []

namespace JournalLifecycleMutationInput

variable {N : Type}

def address : JournalLifecycleMutationInput N → JournalItemAddress
  | item address _ => address
  | tombstone address => address

def body? : JournalLifecycleMutationInput N → Option (List (Text × Json N))
  | item _ stated => some stated.body
  | tombstone _ => none

end JournalLifecycleMutationInput

section Bodies

variable {N : Type}

def reads (key text : Text) (record : List (Text × Json N)) : Bool :=
  match field? key record with
  | some (.string value) => value = text
  | _ => false

def isTurn (body : List (Text × Json N)) : Bool := reads kindKey (Text.ofString "turn") body

def journalRowSchemaVersion (bodies : List (List (Text × Json N))) : ℕ :=
  if bodies.any isTurn then AGENT_SESSION_JOURNAL_TURN_ITEM_SCHEMA_VERSION
  else AGENT_SESSION_JOURNAL_PRE_TURN_SCHEMA_VERSION

/-- An interrupted turn with no outcome, which a Stop may end as a cancellation. -/
def awaitsStop (body : List (Text × Json N)) : Bool :=
  isTurn body && reads stateKey (Text.ofString "interrupted") body &&
    (field? outcomeKey body).isNone

def cancelled (body : List (Text × Json N)) : List (Text × Json N) :=
  setField outcomeKey (.string (Text.ofString "cancellation")) body

def turnEndAfterStop (stopEndsTurn : Bool) (body : List (Text × Json N)) : List (Text × Json N) :=
  if awaitsStop body && stopEndsTurn then cancelled body else body

/-- As many whole code points as the bytes hold. -/
def pointsWithin : List ℕ → ℕ → List ℕ
  | [], _ => []
  | point :: rest, maxBytes =>
    let width := (Text.encodePoint point).length
    if width ≤ maxBytes then point :: pointsWithin rest (maxBytes - width) else []

/-- `buffer.write` and `toString`: a lone surrogate is written as U+FFFD. -/
def utf8Head (text : Text) (maxBytes : ℕ) : Text :=
  Text.decodeUtf8 ((pointsWithin (Text.codePoints text) maxBytes).flatMap Text.encodePoint)

variable [IntCast N] [LE N] [DecidableLE N]

def boundOutput (output : List (Text × Json N)) : List (Text × Json N) :=
  let short := match field? byteLengthKey output with
    | some (.number byteLength) => decide (byteLength ≤ ((inlineHeadBytes : ℤ) : N))
    | _ => false
  let truncated := match field? truncatedKey output with
    | some (.bool truncated) => truncated
    | _ => false
  if truncated || short then output
  else
    let head := match field? headKey output with
      | some (.string head) => setField headKey (.string (utf8Head head inlineHeadBytes)) output
      | _ => output
    setField truncatedKey (.bool true) head

def boundRunningToolOutput (body : List (Text × Json N)) : List (Text × Json N) :=
  if !reads kindKey (Text.ofString "tool-call") body ||
      !reads stateKey (Text.ofString "running") body then body
  else
    match field? outputKey body with
    | some (.object output) => setField outputKey (.object (boundOutput output)) body
    | _ => body

end Bodies

section Rows

variable {N : Type} [IntCast N] [LE N] [DecidableLE N]

def number (natural : ℕ) : Json N := .number ((natural : ℤ) : N)

def optional (key : Text) (value : Option (Json N)) : List (Text × Json N) :=
  (value.map fun value => (key, value)).toList

def agentJournalLinkageFields : Option (AgentJournalProducerLinkage N) → List (Text × Json N)
  | none => []
  | some linkage =>
    optional agentIdKey (linkage.agentId.map .string) ++
    optional parentAgentIdKey (linkage.parentAgentId.map .string) ++
    optional providerParentRefKey (linkage.providerParentRef.map .string) ++
    optional producerKindKey (linkage.producerKind.map .string) ++
    optional attemptKey (linkage.attempt.map .number)

def journalLifecycleMutationRow (mutation : JournalLifecycleMutationInput N) (itemId : Text)
    (revision ownerFence : ℕ) : Json N :=
  match mutation with
  | .item _ item => .object (
      [(kindKey, .string (Text.ofString "item")), (itemIdKey, .string itemId),
        (revisionKey, number revision), (bodyKey, .object (boundRunningToolOutput item.body))] ++
      optional observedAtKey (item.observedAt.map .number) ++
      optional echoOfKey item.echoOf ++
      [(turnScopeKey, item.turnScope), (ownerFenceKey, number ownerFence)] ++
      agentJournalLinkageFields item.linkage)
  | .tombstone _ => .object
      [(kindKey, .string (Text.ofString "tombstone")), (itemIdKey, .string itemId),
        (revisionKey, number revision)]

def journalRowBase (epoch : Text) (seq fence ts version : ℕ) : List (Text × Json N) :=
  [(versionKey, number version), (epochKey, .string epoch), (seqKey, number seq),
    (fenceKey, number fence), (tsKey, number ts)]

def recoveredField (recovered : Bool) : List (Text × Json N) :=
  if recovered then [(recoveredKey, .bool true)] else []

/-- The row `journalLifecycleBatchRowBuilder` makes of the rows of its mutations. -/
def journalLifecycleBatchRow (settlementId : Text) (mutations : List (Json N)) (epoch : Text)
    (seq fence ts version : ℕ) (recovered : Bool) : Json N :=
  .object ( [(kindKey, .string (Text.ofString "lifecycle-batch")),
      (settlementIdKey, .string settlementId), (mutationsKey, .array mutations)] ++
    journalRowBase epoch seq fence ts version ++ recoveredField recovered)

/-- What the builder writes of a mutation, given whether the latest Stop ends its turn. -/
def afterStop (stopEndsTurn : Bool) :
    JournalLifecycleMutationInput N → JournalLifecycleMutationInput N
  | .item address item =>
      .item address { item with body := turnEndAfterStop stopEndsTurn item.body }
  | .tombstone address => .tombstone address

/-- What the builder fixes of a mutation: whether the latest Stop ends its turn, its
revision and the fence of its owner. -/
structure Written where
  stopEndsTurn : Bool
  revision : ℕ
  ownerFence : ℕ

def Written.row (written : Written) (mutation : JournalLifecycleMutationInput N) : Json N :=
  journalLifecycleMutationRow (afterStop written.stopEndsTurn mutation)
    (journalLifecycleMutationItemId mutation.address) written.revision written.ownerFence

def Written.body? (written : Written) (mutation : JournalLifecycleMutationInput N) :
    Option (List (Text × Json N)) :=
  (afterStop written.stopEndsTurn mutation).body?.map boundRunningToolOutput

def batchRow (chunk : JournalLifecycleMutationChunk N) (written : List Written) (epoch : Text)
    (seq fence ts : ℕ) (recovered : Bool) : Json N :=
  journalLifecycleBatchRow chunk.settlementId (written.zipWith Written.row chunk.mutations) epoch
    seq fence ts
    (journalRowSchemaVersion (written.zipWith Written.body? chunk.mutations).reduceOption) recovered

end Rows

section Measuring

variable {N : Type} [IntCast N] [LE N] [DecidableLE N] (format : IntegerFormat N)

def sizedAsStopped (mutation : JournalLifecycleMutationInput N) : JournalLifecycleMutationInput N :=
  match mutation with
  | .item address item =>
    if awaitsStop item.body then .item address { item with body := cancelled item.body }
    else mutation
  | .tombstone _ => mutation

def toLifecycleMutationRow (mutation : JournalLifecycleMutationInput N) : Json N :=
  journalLifecycleMutationRow (sizedAsStopped mutation)
    (journalLifecycleMutationItemId mutation.address) maxSafeInteger maxSafeInteger

def lifecycleMutationBytes (mutation : JournalLifecycleMutationInput N) : ℕ :=
  Json.byteLength format.toNumberFormat (toLifecycleMutationRow mutation)

def mutationSchemaVersion (mutation : JournalLifecycleMutationInput N) : ℕ :=
  journalRowSchemaVersion mutation.body?.toList

def chunkSettlementId (settlementId : Text) (index total : ℕ) : Text :=
  settlementId ++ (0x3A :: (Json.decimalFormat.text (index + 1) ++
    0x2F :: Json.decimalFormat.text total))

def standInEpoch : Text := Text.ofString "00000000-0000-4000-8000-000000000000"

def serializedLifecycleBatchOverhead (settlementId : Text) (version : ℕ)
    (options : JournalLifecycleBatchSizeOptions) : ℕ :=
  let row : Json N := .object (
    [(versionKey, number version), (kindKey, .string (Text.ofString "lifecycle-batch")),
      (epochKey, .string (options.epoch.getD standInEpoch)), (seqKey, number maxSafeInteger),
      (fenceKey, number maxSafeInteger), (tsKey, number maxSafeInteger),
      (settlementIdKey, .string settlementId), (mutationsKey, .array [])] ++
    recoveredField options.recovered)
  Json.byteLength format.toNumberFormat row + 1

structure Pending (N : Type) where
  chunks : List (List (JournalLifecycleMutationInput N))
  pending : List (JournalLifecycleMutationInput N)
  pendingBytes : ℕ
  pendingVersion : ℕ

def Pending.flush (state : Pending N) : Pending N :=
  { chunks := state.chunks ++ [state.pending]
    pending := []
    pendingBytes := 0
    pendingVersion := journalRowSchemaVersion (N := N) [] }

def Pending.add (state : Pending N) (bytes version : ℕ)
    (mutation : JournalLifecycleMutationInput N) : Pending N :=
  { state with
    pendingBytes := state.pendingBytes + (bytes + if state.pending.length > 0 then 1 else 0)
    pendingVersion := max state.pendingVersion version
    pending := state.pending ++ [mutation] }

def addMutation (overhead : ℕ → ℕ) (state : Pending N)
    (mutation : JournalLifecycleMutationInput N) : Pending N :=
  let bytes := lifecycleMutationBytes format mutation
  let version := mutationSchemaVersion mutation
  let candidateVersion := max state.pendingVersion version
  let candidateBytes := state.pendingBytes + bytes + if state.pending.length > 0 then 1 else 0
  let room :=
    if state.pending.length > 0 ∧
        MAX_JOURNAL_LIFECYCLE_BATCH_BYTES < candidateBytes + overhead candidateVersion then
      state.flush
    else state
  let added := room.add bytes version mutation
  if added.pending.length = MAX_JOURNAL_LIFECYCLE_BATCH_MUTATIONS then added.flush else added

def partitionJournalLifecycleMutations (settlementId : Text)
    (mutations : List (JournalLifecycleMutationInput N))
    (options : JournalLifecycleBatchSizeOptions) : List (JournalLifecycleMutationChunk N) :=
  match mutations with
  | [] => []
  | [mutation] => [⟨settlementId, [mutation]⟩]
  | mutations =>
    let probeId := chunkSettlementId settlementId (mutations.length - 1) mutations.length
    let overhead := fun version => serializedLifecycleBatchOverhead format probeId version options
    let last := mutations.foldl (addMutation format overhead)
      ⟨[], [], 0, journalRowSchemaVersion (N := N) []⟩
    let chunks := if last.pending.length > 0 then last.chunks ++ [last.pending] else last.chunks
    chunks.mapIdx fun index chunk =>
      ⟨if chunks.length = 1 then settlementId
        else chunkSettlementId settlementId index chunks.length, chunk⟩

end Measuring

end Wakii.LifecycleBatch
