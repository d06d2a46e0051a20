import Mathlib.Data.List.Basic
import Mathlib.Algebra.Order.Group.Int

/-!
# The ledger of sequenced terminal input

Each client numbers its writes, and may send one again over a new connection.
The ledger chains the writes of a session behind each other and decides on each
one only when its turn comes: a number already settled is answered without a
write, a gap is sent back.
-/

namespace Wakii.TerminalInput

inductive TerminalInputWriteOutcome
  | applied
  | refused
  | deliveryUnknown
  deriving DecidableEq

inductive AdmissionKind
  | applied
  | deliveryUnknown
  | resend
  deriving DecidableEq

structure TerminalInputAdmission where
  kind : AdmissionKind
  appliedSeq : ℤ
  deriving DecidableEq

structure TerminalInputSessionBinding where
  ptyId : String
  processIncarnation : String
  generation : ℕ
  deriving DecidableEq

@[irreducible] def TERMINAL_INPUT_SEQUENCE_LEDGER_MAX_SESSIONS : ℕ := 4096
@[irreducible] def TERMINAL_INPUT_SEQUENCE_LEDGER_MAX_UNKNOWN_SEQS : ℕ := 256
@[irreducible] def TERMINAL_ORDERED_INPUT_MAX_WAITERS : ℕ := 128
@[irreducible] def TERMINAL_ORDERED_INPUT_MAX_BYTES : ℕ := 16 * 1024 * 1024 + 1024 * 1024
@[irreducible] def TERMINAL_ORDERED_INPUT_HOST_MAX_WAITERS : ℕ := 512
@[irreducible] def TERMINAL_ORDERED_INPUT_HOST_MAX_BYTES : ℕ := 64 * 1024 * 1024

inductive Phase
  | waiting
  | writing
  /-- Decided, with the `finally` clause of a strict admission still to run. -/
  | answered (reply : TerminalInputAdmission)
  | settled (reply : TerminalInputAdmission)
  deriving DecidableEq

structure Run where
  seq : ℤ
  /-- The bytes charged to a strict session. -/
  charged : Option ℕ
  phase : Phase
  /-- Whether the write function was called. -/
  ran : Bool
  /-- The outcome the link went on with, once it had one. -/
  outcome : Option TerminalInputWriteOutcome
  deriving DecidableEq

def Run.isStrict (run : Run) : Bool := run.charged.isSome

def Run.reply? (run : Run) : Option TerminalInputAdmission :=
  match run.phase with
  | .answered reply | .settled reply => some reply
  | .waiting | .writing => none

def Run.isSettled (run : Run) : Bool :=
  match run.phase with
  | .settled _ => true
  | _ => false

def Run.answer (run : Run) (reply : TerminalInputAdmission) : Run :=
  { run with phase := if run.isStrict then .answered reply else .settled reply }

structure Strict where
  token : ℕ
  binding : TerminalInputSessionBinding
  blocked : Bool
  pending : ℕ
  bytes : ℕ
  fingerprints : List (ℤ × String)
  deriving DecidableEq

/-- What a session remembers of the writes it settled. -/
structure Progress where
  appliedSeq : ℤ
  unknownSeqs : List ℤ
  unknownForgottenThrough : ℤ
  deriving DecidableEq

structure Session extends Progress where
  strict : Option Strict
  /-- The chain `tail` ends: each link waits for the one before it. -/
  runs : List Run
  deriving DecidableEq

def rememberUnknown (progress : Progress) (seq : ℤ) : Progress :=
  let unknownSeqs := if seq ∈ progress.unknownSeqs then progress.unknownSeqs
    else progress.unknownSeqs ++ [seq]
  if TERMINAL_INPUT_SEQUENCE_LEDGER_MAX_UNKNOWN_SEQS < unknownSeqs.length then
    match unknownSeqs with
    | oldest :: rest => { progress with unknownSeqs := rest, unknownForgottenThrough := oldest }
    | [] => { progress with unknownSeqs }
  else { progress with unknownSeqs }

def Progress.conclude (progress : Progress) (seq : ℤ) :
    TerminalInputWriteOutcome → Progress × TerminalInputAdmission
  | .refused => (progress, ⟨.resend, progress.appliedSeq⟩)
  | .applied => ({ progress with appliedSeq := seq }, ⟨.applied, seq⟩)
  | .deliveryUnknown =>
    (rememberUnknown { progress with appliedSeq := seq } seq, ⟨.deliveryUnknown, seq⟩)

namespace Session

def isBlocked (session : Session) : Bool := session.strict.any (·.blocked)

def block (session : Session) : Session :=
  { session with strict := session.strict.map fun strict => { strict with blocked := true } }

def setRun (session : Session) (index : ℕ) (run : Run) : Session :=
  { session with runs := session.runs.set index run }

def isTurn (session : Session) : ℕ → Bool
  | 0 => true
  | index + 1 => (session.runs[index]?).any (·.isSettled)

def conclude (session : Session) (index : ℕ) (run : Run) (outcome : TerminalInputWriteOutcome) :
    Session :=
  let (progress, reply) := session.toProgress.conclude run.seq outcome
  let concluded := { session with toProgress := progress }.setRun index
    { run.answer reply with outcome := some outcome }
  if run.isStrict ∧ outcome ≠ .applied then concluded.block else concluded

/-- The callback that `admitInput` chains, up to the call of the write function. -/
def startPlain (session : Session) (index : ℕ) (run : Run) : Session :=
  if run.seq ≤ session.appliedSeq then
    let unknown := run.seq ∈ session.unknownSeqs ∨ run.seq ≤ session.unknownForgottenThrough
    session.setRun index
      (run.answer ⟨if unknown then .deliveryUnknown else .applied, run.seq⟩)
  else if session.appliedSeq + 1 < run.seq then
    session.setRun index (run.answer ⟨.resend, session.appliedSeq⟩)
  else session.setRun index { run with phase := .writing, ran := true }

/-- The callback that `admitStrict` chains, up to the call of the write function. -/
def startStrict (session : Session) (index : ℕ) (run : Run)
    (assertBinding : TerminalInputSessionBinding → Bool) : Session :=
  if session.isBlocked then session.setRun index (run.answer ⟨.resend, session.appliedSeq⟩)
  else if run.seq ≤ session.appliedSeq then
    session.setRun index
      (run.answer ⟨if run.seq ∈ session.unknownSeqs then .deliveryUnknown else .applied, run.seq⟩)
  else if run.seq ≠ session.appliedSeq + 1 then
    (session.setRun index (run.answer ⟨.resend, session.appliedSeq⟩)).block
  else if session.strict.all fun strict => assertBinding strict.binding then
    session.setRun index { run with phase := .writing, ran := true }
  -- A binding lost before the write counts as a write of unknown delivery.
  else session.conclude index run .deliveryUnknown

def start (session : Session) (index : ℕ) (assertBinding : TerminalInputSessionBinding → Bool) :
    Session :=
  match session.runs[index]? with
  | some run =>
    if run.phase = .waiting ∧ session.isTurn index then
      if run.isStrict then session.startStrict index run assertBinding
      else session.startPlain index run
    else session
  | none => session

def writeEnds (session : Session) (index : ℕ) (outcome : TerminalInputWriteOutcome) : Session :=
  match session.runs[index]? with
  | some run => if run.phase = .writing then session.conclude index run outcome else session
  | none => session

/-- The `finally` clause of a strict admission, with the bytes it returns to the host. -/
def finish (session : Session) (index : ℕ) : Session × Option ℕ :=
  match session.runs[index]? with
  | some run =>
    match run.phase, run.charged with
    | .answered reply, some bytes =>
      ({ session.setRun index { run with phase := .settled reply } with
          strict := session.strict.map fun strict =>
            { strict with pending := strict.pending - 1, bytes := strict.bytes - bytes } },
        some bytes)
    | _, _ => (session, none)
  | none => (session, none)

def chain (session : Session) (seq : ℤ) (charged : Option ℕ) : Session :=
  { session with runs := session.runs ++ [⟨seq, charged, .waiting, false, none⟩] }

end Session

/-- A new session starts at any number: the client numbers its input per pane. -/
def newPlainSession (seq : ℤ) : Session :=
  { appliedSeq := seq - 1, unknownSeqs := [], unknownForgottenThrough := seq - 1
    strict := none, runs := [] }

def newStrictSession (token : ℕ) (binding : TerminalInputSessionBinding) : Session :=
  { appliedSeq := 0, unknownSeqs := [], unknownForgottenThrough := 0
    strict := some ⟨token, binding, false, 0, 0, []⟩, runs := [] }

def setFingerprint (fingerprints : List (ℤ × String)) (seq : ℤ) (fingerprint : String) :
    List (ℤ × String) :=
  let entries := if fingerprints.any (·.1 = seq) then
      fingerprints.map fun entry => if entry.1 = seq then (seq, fingerprint) else entry
    else fingerprints ++ [(seq, fingerprint)]
  if TERMINAL_INPUT_SEQUENCE_LEDGER_MAX_UNKNOWN_SEQS < entries.length then entries.tail else entries

structure TerminalInputSequenceLedger where
  heap : List Session
  sessions : List (String × ℕ)
  legacyPending : String → ℕ
  strictPending : ℕ
  strictBytes : ℕ

def strictKey (ptyId owner : String) : String := "strict\u0000" ++ ptyId ++ "\u0000" ++ owner
def plainKey (ptyId inputSessionId : String) : String := ptyId ++ "\u0000" ++ inputSessionId

namespace TerminalInputSequenceLedger

variable (ledger : TerminalInputSequenceLedger)

def find (key : String) : Option ℕ := (ledger.sessions.find? (·.1 = key)).map (·.2)

def strictOf (id : ℕ) : Option Strict := (ledger.heap[id]?).bind (·.strict)

def isIdle (id : ℕ) : Bool := (ledger.strictOf id).all (·.pending = 0)

def deleteKey (key : String) : TerminalInputSequenceLedger :=
  { ledger with sessions := ledger.sessions.filter (·.1 ≠ key) }

/-- Deletes the key and sets it again, which makes it the youngest. -/
def refresh (key : String) (id : ℕ) : TerminalInputSequenceLedger :=
  { ledger with sessions := ledger.sessions.filter (·.1 ≠ key) ++ [(key, id)] }

def update (id : ℕ) (change : Session → Session) : TerminalInputSequenceLedger :=
  { ledger with heap := ledger.heap.modify id change }

def trackLegacy (ptyId owner : String) : TerminalInputSequenceLedger :=
  let key := strictKey ptyId owner
  { ledger with
    legacyPending := fun other =>
      if other = key then ledger.legacyPending key + 1 else ledger.legacyPending other }

def legacySettles (ptyId owner : String) : TerminalInputSequenceLedger :=
  let key := strictKey ptyId owner
  { ledger with
    legacyPending := fun other =>
      if other = key then ledger.legacyPending key - 1 else ledger.legacyPending other }

def hasPendingStrict (ptyId owner : String) : Bool :=
  ((ledger.find (strictKey ptyId owner)).bind ledger.strictOf).any (0 < ·.pending)

/-- Sets a key to a new object; a key that is there keeps its place. -/
def setNew (key : String) (session : Session) : TerminalInputSequenceLedger :=
  let id := ledger.heap.length
  { ledger with
    heap := ledger.heap ++ [session]
    sessions := if ledger.sessions.any (·.1 = key) then
        ledger.sessions.map fun entry => if entry.1 = key then (key, id) else entry
      else ledger.sessions ++ [(key, id)] }

def openStrictSession (owner : String) (binding : TerminalInputSessionBinding) :
    TerminalInputSequenceLedger × Option ℕ :=
  let key := strictKey binding.ptyId owner
  let token := ledger.heap.length
  let session := newStrictSession token binding
  if 0 < ledger.legacyPending key ∨ ledger.hasPendingStrict binding.ptyId owner then (ledger, none)
  else if ledger.find key = none ∧
      TERMINAL_INPUT_SEQUENCE_LEDGER_MAX_SESSIONS ≤ ledger.sessions.length then
    match ledger.sessions.find? fun entry => ledger.isIdle entry.2 with
    | none => (ledger, none)
    | some idle => ((ledger.deleteKey idle.1).setNew key session, some token)
  else (ledger.setNew key session, some token)

def isStrictSessionCurrent (ptyId owner : String) (token : ℕ) : Bool :=
  ((ledger.find (strictKey ptyId owner)).bind ledger.strictOf).any fun strict =>
    strict.token = token && !strict.blocked

/-- Chains a strict write, or answers at once. -/
def admitStrict (ptyId owner : String) (token : ℕ) (seq : ℤ) (bytes : ℕ) (fingerprint : String)
    (assertBinding : TerminalInputSessionBinding → Bool) :
    TerminalInputSequenceLedger × Option TerminalInputAdmission :=
  let key := strictKey ptyId owner
  match ledger.find key with
  | none => (ledger, some ⟨.resend, 0⟩)
  | some id =>
    match ledger.heap[id]? with
    | none => (ledger, some ⟨.resend, 0⟩)
    | some session =>
      let refuse : TerminalInputAdmission := ⟨.resend, session.appliedSeq⟩
      match session.strict with
      | none => (ledger, some refuse)
      | some strict =>
        let prior := strict.fingerprints.lookup seq
        if strict.token ≠ token then (ledger, some refuse)
        else if strict.blocked then
          if prior = some fingerprint ∧ seq ∈ session.unknownSeqs then
            (ledger, some ⟨.deliveryUnknown, seq⟩)
          else (ledger, some refuse)
        else if ¬ assertBinding strict.binding then
          (ledger.update id Session.block, some refuse)
        else if 0 < ledger.legacyPending key ∨
            (prior ≠ none ∧ prior ≠ some fingerprint) ∨
            (seq ≤ session.appliedSeq ∧ prior = none) ∨
            TERMINAL_ORDERED_INPUT_MAX_WAITERS ≤ strict.pending ∨
            TERMINAL_ORDERED_INPUT_HOST_MAX_WAITERS ≤ ledger.strictPending ∨
            TERMINAL_ORDERED_INPUT_MAX_BYTES < strict.bytes + bytes ∨
            TERMINAL_ORDERED_INPUT_HOST_MAX_BYTES < ledger.strictBytes + bytes then
          (ledger.update id Session.block, some refuse)
        else
          let charged : Session :=
            { session with
              strict := some
                { strict with
                  fingerprints := setFingerprint strict.fingerprints seq fingerprint
                  pending := strict.pending + 1
                  bytes := strict.bytes + bytes } }
          ({ (ledger.update id fun _ => charged.chain seq (some bytes)).refresh key id with
              strictPending := ledger.strictPending + 1
              strictBytes := ledger.strictBytes + bytes }, none)

/-- Drops the oldest sessions that are not busy, `fuel` of them at most. -/
def evictOverflow : ℕ → TerminalInputSequenceLedger → TerminalInputSequenceLedger
  | 0, ledger => ledger
  | fuel + 1, ledger =>
    if TERMINAL_INPUT_SEQUENCE_LEDGER_MAX_SESSIONS < ledger.sessions.length then
      match ledger.sessions.find? fun entry => ledger.isIdle entry.2 with
      | none => ledger
      | some oldest => evictOverflow fuel (ledger.deleteKey oldest.1)
    else ledger

def admitInput (ptyId inputSessionId : String) (seq : ℤ) : TerminalInputSequenceLedger :=
  let key := plainKey ptyId inputSessionId
  let (found, id) := match ledger.find key with
    | some id => (ledger, id)
    | none =>
      ({ ledger with heap := ledger.heap ++ [newPlainSession seq] }, ledger.heap.length)
  let inserted := found.refresh key id
  (evictOverflow inserted.sessions.length inserted).update id fun session => session.chain seq none

end TerminalInputSequenceLedger

inductive Event
  | trackLegacy (ptyId owner : String)
  | legacySettles (ptyId owner : String)
  | openStrictSession (owner : String) (binding : TerminalInputSessionBinding)
  | admitStrict (ptyId owner : String) (token : ℕ) (seq : ℤ) (bytes : ℕ) (fingerprint : String)
      (assertBinding : TerminalInputSessionBinding → Bool)
  | admitInput (ptyId inputSessionId : String) (seq : ℤ)
  | inputFrame (ptyId : String) (inputSessionId : Option String) (seq : ℕ)
  | start (id index : ℕ) (assertBinding : TerminalInputSessionBinding → Bool)
  | writeEnds (id index : ℕ) (outcome : TerminalInputWriteOutcome)
  | finish (id index : ℕ)

namespace TerminalInputSequenceLedger

/-- A frame is sequenced when it has a number and its stream an input session. -/
def handleMultiplexInputFrame (ledger : TerminalInputSequenceLedger) (ptyId : String)
    (inputSessionId : Option String) (seq : ℕ) : TerminalInputSequenceLedger :=
  match if 0 < seq then inputSessionId else none with
  | none => ledger
  | some inputSessionId => ledger.admitInput ptyId inputSessionId seq

def step (ledger : TerminalInputSequenceLedger) : Event → TerminalInputSequenceLedger
  | .trackLegacy ptyId owner => ledger.trackLegacy ptyId owner
  | .legacySettles ptyId owner => ledger.legacySettles ptyId owner
  | .openStrictSession owner binding => (ledger.openStrictSession owner binding).1
  | .admitStrict ptyId owner token seq bytes fingerprint assertBinding =>
    (ledger.admitStrict ptyId owner token seq bytes fingerprint assertBinding).1
  | .admitInput ptyId inputSessionId seq => ledger.admitInput ptyId inputSessionId seq
  | .inputFrame ptyId inputSessionId seq =>
    ledger.handleMultiplexInputFrame ptyId inputSessionId seq
  | .start id index assertBinding =>
    ledger.update id fun session => session.start index assertBinding
  | .writeEnds id index outcome => ledger.update id fun session => session.writeEnds index outcome
  | .finish id index =>
    let returned := (ledger.heap[id]?).bind fun session => (session.finish index).2
    { ledger.update id fun session => (session.finish index).1 with
      strictPending := ledger.strictPending - if returned.isSome then 1 else 0
      strictBytes := ledger.strictBytes - returned.getD 0 }

def run (ledger : TerminalInputSequenceLedger) (events : List Event) :
    TerminalInputSequenceLedger :=
  events.foldl step ledger

end TerminalInputSequenceLedger

end Wakii.TerminalInput
