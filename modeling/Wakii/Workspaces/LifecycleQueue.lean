import Mathlib.Data.List.Basic

/-!
# The workspace lifecycle queue

Commands of one workspace run one after another, in the order they arrived.  A
delete cancels what has not started; an unconfirmed outcome pauses the queue
until its owner answers.  Each await of the drain loop ends in a step of its
own, so that anything may come in between.

A queue that is idle and forgotten is the same as one never used.
-/

namespace Wakii.WorkspaceLifecycle

inductive CommandKind where
  | sleep
  | wake
  | close
  | delete
deriving DecidableEq

/-- Equal pending deletes join; different options are refused. -/
structure DeleteOptions where
  key : String
  force : Bool
  label : String
deriving DecidableEq

structure LifecycleCommand where
  kind : CommandKind
  observes : Bool
  delete : Option DeleteOptions
deriving DecidableEq

def LifecycleCommand.isDelete (command : LifecycleCommand) : Bool := command.kind = .delete

def LifecycleCommand.isForced (command : LifecycleCommand) : Bool :=
  command.delete.any (·.force)

def LifecycleCommand.deleteKey (command : LifecycleCommand) : Option String :=
  command.delete.map (·.key)

inductive LifecycleOutcome where
  | settled
  | unverifiable
deriving DecidableEq

structure LifecycleAttempt where
  outcome : LifecycleOutcome
  threw : Bool
deriving DecidableEq

structure Entry where
  /-- Arrival order across every workspace. -/
  seq : ℕ
  running : Bool
  /-- None for a create, which runs outside the queue. -/
  command : Option LifecycleCommand
deriving DecidableEq

def Entry.isDelete (entry : Entry) : Bool := entry.command.any (·.isDelete)

structure Pause where
  kind : CommandKind
  observes : Bool
deriving DecidableEq

inductive DrainPhase where
  | idle
  | looping
  | awaitingLookup
  | running (seq : ℕ) (command : LifecycleCommand)
  | observing
  /-- The owner answered; the pause is lifted with the next listing. -/
  | listing
  | retrying
deriving DecidableEq

structure WorkspaceQueue where
  entries : List Entry := []
  paused : Option Pause := none
  /-- Finished deletes whose row is still listed. -/
  settling : ℕ := 0
  phase : DrainPhase := .idle
  /-- Within a wait on the pause, whether a forced delete ended it. -/
  wake : Option Bool := none
deriving DecidableEq

inductive Event where
  | entered (seq : ℕ) (command : LifecycleCommand)
  | bound (seq : ℕ)
  | started (seq : ℕ) (command : LifecycleCommand)
  | ended (seq : ℕ) (command : LifecycleCommand) (attempt : LifecycleAttempt)
  | answered
deriving DecidableEq

inductive Reply where
  | settled (seq : ℕ)
  | shared (seq pending : ℕ)
deriving DecidableEq

structure Change where
  queue : WorkspaceQueue
  events : List Event := []
  replies : List Reply := []

section Queue

def splice (isBehind : Entry → Bool) (entry : Entry) : List Entry → List Entry
  | [] => [entry]
  | first :: rest =>
    if isBehind first then entry :: first :: rest else first :: splice isBehind entry rest

def startDrain (queue : WorkspaceQueue) : WorkspaceQueue :=
  { queue with phase := if queue.phase = .idle then .looping else queue.phase }

def pendingDelete (queue : WorkspaceQueue) : Option Entry := queue.entries.find? (·.isDelete)

/-- Late lookup results retain arrival order among queued entries. -/
def withCommand (seq : ℕ) (command : LifecycleCommand) (entries : List Entry) : List Entry :=
  splice (fun queued => !queued.running && seq < queued.seq)
    { seq, running := false, command := some command } entries

/-- A create already runs outside the queue, ahead of unstarted commands. -/
def withCreate (seq : ℕ) (entries : List Entry) : List Entry :=
  splice (!·.running) { seq, running := true, command := none } entries

def enter (seq : ℕ) (command : LifecycleCommand) (queue : WorkspaceQueue) : WorkspaceQueue :=
  let entries := withCommand seq command queue.entries
  let wake := if command.isForced then queue.wake.map fun _ => true else queue.wake
  startDrain { queue with entries, wake }

def cancelQueued (queue : WorkspaceQueue) : WorkspaceQueue :=
  { queue with entries := queue.entries.filter (·.running) }

def cancelled (queue : WorkspaceQueue) : List Reply :=
  (queue.entries.filter (!·.running)).map fun entry => .settled entry.seq

def accept (seq : ℕ) (command : LifecycleCommand) (queue : WorkspaceQueue) : Change :=
  if command.isDelete then
    { queue := enter seq command (cancelQueued queue)
      events := [.entered seq command]
      replies := cancelled queue }
  else { queue := enter seq command queue, events := [.entered seq command] }

def enqueue (seq : ℕ) (command : LifecycleCommand) (queue : WorkspaceQueue) : Change :=
  match pendingDelete queue with
  | none => accept seq command queue
  | some pending =>
    if !command.isDelete then { queue, replies := [.settled seq] }
    else if pending.command.bind (·.deleteKey) = command.deleteKey then
      { queue, replies := [.shared seq pending.seq] }
    -- a forced delete replaces one still waiting, never a running one
    else if !command.isForced || pending.running then { queue, replies := [.settled seq] }
    else accept seq command queue

/-- A create never waits for a delete of the previous occupant. -/
def bindCreate (seq : ℕ) (queue : WorkspaceQueue) : Option Change :=
  if (pendingDelete queue).isSome then none
  else
    some {
      queue := { queue with entries := withCreate seq queue.entries }
      events := [.bound seq] }

def isCreate (seq : ℕ) (entry : Entry) : Bool := entry.seq = seq && entry.command.isNone

def finishEntry (seq : ℕ) (queue : WorkspaceQueue) : Option Change :=
  if queue.entries.any (isCreate seq) then
    some { queue := startDrain { queue with entries := queue.entries.eraseP (isCreate seq) } }
  else none

/-- One turn of the drain loop, up to its await. -/
def drain (mustWait : ℕ → Bool) (queue : WorkspaceQueue) : Option Change :=
  if queue.phase ≠ .looping then none
  else
    match queue.entries with
    | [] => some { queue := { queue with phase := .idle } }
    | head :: rest =>
      match head.command with
      | none => some { queue := { queue with phase := .idle } }
      | some command =>
        if head.running then some { queue := { queue with phase := .idle } }
        else if mustWait head.seq then
          some { queue := { queue with phase := .awaitingLookup } }
        else
          match queue.paused, command.isForced with
          | some pause, false =>
            if pause.observes then
              some { queue := { queue with phase := .observing, wake := some false } }
            else some { queue := { queue with paused := none } }
          | _, _ =>
            some {
              queue := { queue with
                entries := { head with running := true } :: rest
                phase := .running head.seq command }
              events := [.started head.seq command] }

def isCommand (seq : ℕ) (entry : Entry) : Bool := entry.seq = seq && entry.command.isSome

/-- What a command's end makes of a pause. A definite end leaves it as it is, but
for a delete that worked: then nothing is left to observe. -/
def pauseAfter (command : LifecycleCommand) (attempt : LifecycleAttempt)
    (paused : Option Pause) : Option Pause :=
  if attempt.outcome = .unverifiable then
    some { kind := command.kind, observes := command.observes }
  else if command.isDelete && !attempt.threw then none
  else paused

def runEnded (attempt : LifecycleAttempt) (queue : WorkspaceQueue) : Option Change :=
  match queue.phase with
  | .running seq command =>
    let isGone := attempt.outcome ≠ .unverifiable && command.isDelete && !attempt.threw
    some {
      queue := { queue with
        entries := queue.entries.eraseP (isCommand seq)
        phase := .looping
        paused := pauseAfter command attempt queue.paused
        settling := if isGone then queue.settling + 1 else queue.settling }
      events := [.ended seq command attempt]
      replies := [.settled seq] }
  | _ => none

/-- The next listing shows a deleted workspace gone. -/
def membershipShown (queue : WorkspaceQueue) : Option Change :=
  if queue.settling = 0 then none
  else some { queue := { queue with settling := queue.settling - 1 } }

/-- The race of the observation is decided by the owner. -/
def ownerAnswered (ok : Bool) (queue : WorkspaceQueue) : Option Change :=
  if queue.phase ≠ .observing then none
  else if ok then some { queue := { queue with phase := .listing }, events := [.answered] }
  else some { queue := { queue with phase := .retrying } }

/-- It is decided by a forced delete. -/
def woken (queue : WorkspaceQueue) : Option Change :=
  if (queue.phase = .observing ∨ queue.phase = .retrying) ∧ queue.wake = some true then
    some { queue := { queue with phase := .looping, wake := none } }
  else none

def retried (queue : WorkspaceQueue) : Option Change :=
  if queue.phase = .retrying then
    some { queue := { queue with phase := .looping, wake := none } }
  else none

/-- No command runs meanwhile, so the pause is still the one observed. -/
def listed (queue : WorkspaceQueue) : Option Change :=
  if queue.phase = .listing then
    some { queue := { queue with paused := none, phase := .looping, wake := none } }
  else none

def lookupWaited (queue : WorkspaceQueue) : Option Change :=
  if queue.phase = .awaitingLookup then some { queue := { queue with phase := .looping } }
  else none

end Queue

structure Lookup where
  seq : ℕ
  arrivedAt : ℕ
  command : LifecycleCommand
deriving DecidableEq

/-- What a lookup comes to: it fails, finds no workspace to order, or finds one. -/
inductive LookupResult (K : Type) where
  | failed
  | none
  | key (key : K)

/-- The queues of all workspaces, with what happened so far: what each workspace
saw, what ran with no workspace, and the replies. -/
structure Lifecycle (K : Type) where
  nextSeq : ℕ := 0
  resolving : List Lookup := []
  direct : List ℕ := []
  queues : K → WorkspaceQueue := fun _ => {}
  histories : K → List Event := fun _ => []
  startedDirectly : List ℕ := []
  replies : List Reply := []

inductive Action (K : Type) where
  | submit (key : K) (command : LifecycleCommand)
  | submitResolving (command : LifecycleCommand) (now : ℕ)
  | resolved (seq : ℕ) (result : LookupResult K)
  | directEnded (seq : ℕ)
  | bindCreate (key : K)
  | finishCreate (key : K) (seq : ℕ)
  | drain (key : K) (now : ℕ)
  | lookupWaited (key : K)
  | runEnded (key : K) (attempt : LifecycleAttempt)
  | membershipShown (key : K)
  | ownerAnswered (key : K) (ok : Bool)
  | woken (key : K)
  | retried (key : K)
  | listed (key : K)

section Lifecycle

variable {K : Type} [DecidableEq K]

/-- Long enough for a lookup on a reachable host. -/
def lookupOrderWaitMs : ℕ := 500

/-- An earlier lookup holds a command back, though not for long. -/
def lookupWaits (lookups : List Lookup) (now seq : ℕ) : Bool :=
  lookups.any fun lookup => lookup.seq < seq && now < lookup.arrivedAt + lookupOrderWaitMs

def Lifecycle.put (state : Lifecycle K) (key : K) (change : Change) : Lifecycle K :=
  { state with
    queues := Function.update state.queues key change.queue
    histories := Function.update state.histories key (state.histories key ++ change.events)
    replies := state.replies ++ change.replies }

def Lifecycle.enqueue (state : Lifecycle K) (key : K) (seq : ℕ) (command : LifecycleCommand) :
    Lifecycle K := state.put key (WorkspaceLifecycle.enqueue seq command (state.queues key))

def Lifecycle.resolve (state : Lifecycle K) (lookup : Lookup) : LookupResult K → Lifecycle K
  | .failed => { state with replies := state.replies ++ [.settled lookup.seq] }
  | .none =>
    { state with
      direct := state.direct ++ [lookup.seq]
      startedDirectly := state.startedDirectly ++ [lookup.seq] }
  | .key key => state.enqueue key lookup.seq lookup.command

def queueStep (lookups : List Lookup) : Action K → Option (K × (WorkspaceQueue → Option Change))
  | .drain key now => some (key, drain (lookupWaits lookups now))
  | .finishCreate key seq => some (key, finishEntry seq)
  | .lookupWaited key => some (key, lookupWaited)
  | .runEnded key attempt => some (key, runEnded attempt)
  | .membershipShown key => some (key, membershipShown)
  | .ownerAnswered key ok => some (key, ownerAnswered ok)
  | .woken key => some (key, woken)
  | .retried key => some (key, retried)
  | .listed key => some (key, listed)
  | _ => none

def act (state : Lifecycle K) : Action K → Option (Lifecycle K)
  | .submit key command =>
    some ({ state with nextSeq := state.nextSeq + 1 }.enqueue key state.nextSeq command)
  | .submitResolving command now =>
    some { state with
      nextSeq := state.nextSeq + 1
      resolving := state.resolving ++ [{ seq := state.nextSeq, arrivedAt := now, command }] }
  | .resolved seq result =>
    (state.resolving.find? (·.seq = seq)).map fun lookup =>
      { state with resolving := state.resolving.filter (·.seq ≠ seq) }.resolve lookup result
  | .directEnded seq =>
    if seq ∈ state.direct then
      some { state with
        direct := state.direct.erase seq
        replies := state.replies ++ [.settled seq] }
    else none
  | .bindCreate key =>
    (WorkspaceLifecycle.bindCreate state.nextSeq (state.queues key)).map fun change =>
      { state with nextSeq := state.nextSeq + 1 }.put key change
  | action =>
    (queueStep state.resolving action).bind fun (key, step) =>
      (step (state.queues key)).map (state.put key)

/-- Any interleaving of what may happen; what may not is left out. -/
def run (actions : List (Action K)) (state : Lifecycle K) : Lifecycle K :=
  actions.foldl (fun state action => (act state action).getD state) state

end Lifecycle

end Wakii.WorkspaceLifecycle
