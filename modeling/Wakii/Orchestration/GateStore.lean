import Wakii.Orchestration.WorkerStates

/-!
# Tasks, their decision gates and their dispatches

The part of the orchestration database that decides whether a task may start:
tasks with their dependencies, the gates opened on them, the dispatches made for
them and the workers of these.  A call that throws is rolled back.
-/

namespace Wakii.Orchestration

abbrev RunId := String
abbrev TaskId := String
abbrev GateId := String
abbrev DispatchId := String

inductive TaskStatus
  | pending
  | ready
  | dispatched
  | completed
  | failed
  | blocked
  deriving DecidableEq

inductive GateStatus
  | pending
  | resolved
  | timeout
  deriving DecidableEq

inductive DispatchStatus
  | pending
  | dispatched
  | completed
  | failed
  | circuitBroken
  deriving DecidableEq

structure Task where
  runId : RunId
  parentId : Option TaskId
  deps : List TaskId
  status : TaskStatus
  result : Option String
  /-- The gates that put the task in the blocked state it is in, none where it was blocked
  otherwise. -/
  blockedBy : List GateId
  /-- The status in which the first of these gates found it. -/
  gatedFrom : Option TaskStatus
  deriving DecidableEq

structure Gate where
  runId : RunId
  taskId : TaskId
  question : String
  options : List String
  status : GateStatus
  resolution : Option String
  deriving DecidableEq

structure Dispatch where
  id : DispatchId
  taskId : TaskId
  status : DispatchStatus
  assigneeHandle : Option String
  assigneePaneKey : Option String
  failureCount : ℕ
  lastFailure : Option String
  followUpOf : Option DispatchId
  deriving DecidableEq

/-- The tables; dispatches are listed as they were inserted. -/
structure Database where
  runs : List RunId
  tasks : TaskId → Option Task
  gates : GateId → Option Gate
  dispatches : List Dispatch
  workers : DispatchId → Option WorkerDispatchState

def createDatabase (runs : List RunId) : Database :=
  ⟨runs, fun _ => none, fun _ => none, [], fun _ => none⟩

inductive LifecycleError
  | runNotFound
  | taskNotFound
  | dispatchInactive
  | lifecycleNotFound
  | lifecycleConflict
  | consumerFenced
  | taskNotStartable
  | resolutionNotInOptions
  | followUpClaimed
  | assigneeOccupied
  /-- A check that reads other tables than these. -/
  | refusedElsewhere
  | idTaken
  deriving DecidableEq

def DispatchStatus.isActive (status : DispatchStatus) : Bool :=
  status = .pending || status = .dispatched

def DispatchStatus.settled : DispatchStatus → DispatchStatus
  | .circuitBroken => .failed
  | status => status

def isSettledWorker (state : WorkerDispatchState) : Bool :=
  state ∈ [.failed, .succeeded, .stopped, .abandoned]

/-- A task on its way to a status; every edge between statuses is legal. -/
def Task.moveTo (task : Task) (status : TaskStatus) : Task :=
  { task with
    status
    blockedBy := if task.status = .blocked ∧ status = .blocked then task.blockedBy else []
    gatedFrom := if task.status = .blocked ∧ status = .blocked then task.gatedFrom else none }

/-- A gate puts its task in the blocked state, but where it was blocked by more than gates. -/
def Task.blockFor (task : Task) (id : GateId) : Task :=
  if task.status ≠ .blocked then
    { task.moveTo .blocked with blockedBy := [id], gatedFrom := some task.status }
  else if task.blockedBy ≠ [] then { task with blockedBy := id :: task.blockedBy }
  else task

/-- The task is in the blocked state that the gate put it in, and was not finished before. -/
def Task.isGatedBy (task : Task) (id : GateId) : Bool :=
  task.status = .blocked && id ∈ task.blockedBy &&
    task.gatedFrom ≠ some .completed && task.gatedFrom ≠ some .failed

theorem Task.status_blockFor (task : Task) (id : GateId) :
    (task.blockFor id).status = .blocked := by
  unfold Task.blockFor
  split_ifs with hother hgated
  · rfl
  · exact not_not.mp hother
  · exact not_not.mp hother

namespace Database

variable (db : Database)

def dependencyCompleted (id : TaskId) : Bool :=
  (db.tasks id).any (·.status = .completed)

def updateTask (id : TaskId) (f : Task → Task) : Database :=
  { db with tasks := Function.update db.tasks id ((db.tasks id).map f) }

def updateGate (id : GateId) (f : Gate → Gate) : Database :=
  { db with gates := Function.update db.gates id ((db.gates id).map f) }

@[simp]
theorem updateTask_tasks_self (id : TaskId) (f : Task → Task) :
    (db.updateTask id f).tasks id = (db.tasks id).map f :=
  Function.update_self id _ _

theorem updateTask_tasks_of_ne {id other : TaskId} (hne : other ≠ id) (f : Task → Task) :
    (db.updateTask id f).tasks other = db.tasks other :=
  Function.update_of_ne hne _ _

@[simp]
theorem updateGate_gates_self (id : GateId) (f : Gate → Gate) :
    (db.updateGate id f).gates id = (db.gates id).map f :=
  Function.update_self id _ _

theorem updateGate_gates_of_ne {id other : GateId} (hne : other ≠ id) (f : Gate → Gate) :
    (db.updateGate id f).gates other = db.gates other :=
  Function.update_of_ne hne _ _

@[simp]
theorem updateGate_tasks (id : GateId) (f : Gate → Gate) : (db.updateGate id f).tasks = db.tasks :=
  rfl

def activeDispatch? (taskId : TaskId) : Option Dispatch :=
  (db.dispatches.filter fun row => row.taskId = taskId && row.status.isActive).getLast?

def hasLiveWorker (row : Dispatch) : Bool := (db.workers row.id).any (!isSettledWorker ·)

def activeWorker? (taskId : TaskId) : Option Dispatch :=
  (db.dispatches.filter fun row =>
    row.taskId = taskId && row.status.isActive && db.hasLiveWorker row).getLast?

def getDispatchContextById (id : DispatchId) : Option Dispatch :=
  db.dispatches.find? (·.id = id)

def getDispatchContext (taskId : TaskId) : Option Dispatch :=
  (db.dispatches.filter (·.taskId = taskId)).getLast?

structure NewTask where
  id : TaskId
  runId : RunId
  parentId : Option TaskId
  deps : List TaskId
  deriving DecidableEq

def belongsTo (runId : RunId) (id : TaskId) : Bool := (db.tasks id).any (·.runId = runId)

def initialStatus (deps : List TaskId) : TaskStatus :=
  if deps.all db.dependencyCompleted then .ready else .pending

def createTask (task : NewTask) : Except LifecycleError Database :=
  if task.runId ∉ db.runs then .error .runNotFound
  else if task.parentId.any (!db.belongsTo task.runId ·) then .error .taskNotFound
  else if task.deps.any (!db.belongsTo task.runId ·) then .error .taskNotFound
  else if (db.tasks task.id).isSome then .error .idTaken
  else .ok { db with
    tasks := Function.update db.tasks task.id (some
      { runId := task.runId, parentId := task.parentId, deps := task.deps
        status := db.initialStatus task.deps, result := none, blockedBy := []
        gatedFrom := none }) }

def promoteReadyTasks (completedTaskId : TaskId) : Database :=
  { db with
    tasks := fun id => (db.tasks id).map fun task =>
      if task.status = .pending ∧ completedTaskId ∈ task.deps ∧
          task.deps.all db.dependencyCompleted then task.moveTo .ready
      else task }

def settleWorker (state : WorkerDispatchState) : WorkerDispatchState :=
  if state ∈ [.starting, .ready, .startUnknown, .stopping, .stopUnknown] then .abandoned else state

def settleActiveDispatchesForTask (taskId : TaskId) (status : WorkerReportOutcome)
    (failure : Option String) : Database :=
  let settles (row : Dispatch) : Bool := row.taskId = taskId && row.status.isActive
  { db with
    dispatches := db.dispatches.map fun row =>
      if settles row then
        match status with
        | .succeeded => { row with status := .completed }
        | .failed => { row with
            status := .failed
            lastFailure := some ((failure.or row.lastFailure).getD "Task marked failed") }
      else row
    workers := fun id =>
      if db.dispatches.any fun row => row.id = id && settles row then
        (db.workers id).map settleWorker
      else db.workers id }

def updateTaskStatus (id : TaskId) (status : TaskStatus) (result : Option String) :
    Except LifecycleError Database :=
  match db.tasks id with
  | none => .ok db
  | some task =>
    let terminalStatus := status = .completed ∨ status = .failed
    let requiresActiveDispatch := status = .dispatched
    -- A live supervised worker keeps its task from being reopened.
    if (terminalStatus ∨ requiresActiveDispatch ∧ task.status ≠ .dispatched) ∧
        (db.activeWorker? id).isSome then .error .taskNotStartable
    else if requiresActiveDispatch ∧ (db.activeDispatch? id).isNone then .error .taskNotStartable
    else if (db.activeDispatch? id).isSome ∧ ¬(terminalStatus ∨ requiresActiveDispatch) then
      .error .taskNotStartable
    else if task.status = status ∧ result = none then .ok db
    else
      let moved := db.updateTask id fun task =>
        { task.moveTo status with result := result.or task.result }
      match status with
      | .completed =>
        .ok ((moved.settleActiveDispatchesForTask id .succeeded result).promoteReadyTasks id)
      | .failed => .ok (moved.settleActiveDispatchesForTask id .failed result)
      | _ => .ok moved

/-- Who asks for a gate on its own task. -/
structure Requester where
  dispatchId : DispatchId
  isDispatchMessageSender : Bool
  deriving DecidableEq

structure NewGate where
  id : GateId
  taskId : TaskId
  question : String
  options : List String
  requester : Option Requester
  deriving DecidableEq

def ownsActiveDispatch (taskId : TaskId) (requester : Requester) : Bool :=
  (db.activeDispatch? taskId).any fun active =>
    active.id = requester.dispatchId && requester.isDispatchMessageSender

def createGate (gate : NewGate) : Except LifecycleError Database :=
  match db.tasks gate.taskId with
  | none => .error .lifecycleNotFound
  | some task =>
    if task.runId ∉ db.runs then .error .runNotFound
    else if gate.requester.any (!db.ownsActiveDispatch gate.taskId ·) then .error .consumerFenced
    else if (db.activeWorker? gate.taskId).isSome then .error .taskNotStartable
    else if (db.gates gate.id).isSome then .error .idTaken
    else
      let opened := { db with
        gates := Function.update db.gates gate.id (some
          ⟨task.runId, gate.taskId, gate.question, gate.options, .pending, none⟩) }
      .ok ((opened.settleActiveDispatchesForTask gate.taskId .succeeded none).updateTask
        gate.taskId (·.blockFor gate.id))

end Database

def Gate.admitsResolution (gate : Gate) (resolution : String) : Bool :=
  gate.options.isEmpty || resolution ∈ gate.options

def DISPATCH_CIRCUIT_BREAK_FAILURES : ℕ := 3

def brokenOrFailed (failureCount : ℕ) : DispatchStatus :=
  if DISPATCH_CIRCUIT_BREAK_FAILURES ≤ failureCount then .circuitBroken else .failed

def Dispatch.failStart (row : Dispatch) (reason : String) : Dispatch :=
  { row with
    status := brokenOrFailed (row.failureCount + 1), failureCount := row.failureCount + 1
    lastFailure := some reason }

namespace Database

variable (db : Database)

def resolve (gate : Gate) (id : GateId) (resolution : String) : Except LifecycleError Database :=
  (db.updateGate id fun gate =>
    { gate with status := .resolved, resolution := some resolution }).updateTaskStatus gate.taskId
      .ready none

def resolveGate (id : GateId) (resolution : String) : Except LifecycleError Database :=
  match db.gates id with
  | none => .ok db
  | some gate =>
    if !gate.admitsResolution resolution then .error .resolutionNotInOptions
    else db.resolve gate id resolution

def resolveGateIfPending (id : GateId) (resolution : String) : Except LifecycleError Database :=
  match db.gates id with
  | none => .ok db
  | some gate =>
    if !gate.admitsResolution resolution then .error .resolutionNotInOptions
    else if gate.status = .pending then db.resolve gate id resolution
    else .ok db

def timeoutGate (id : GateId) : Except LifecycleError Database :=
  .ok (db.updateGate id fun gate =>
    if gate.status = .pending then { gate with status := .timeout } else gate)

/-- What stands behind the first colon of a pane key. -/
def paneKeyMatchSuffix (paneKey : String) : List Char :=
  if ':' ∈ paneKey.toList then (paneKey.toList.dropWhile (· ≠ ':')).tail else paneKey.toList

def hasPaneSuffix (suffix : List Char) (paneKey : String) : Bool :=
  ':' ∈ paneKey.toList.tail && paneKey.toList.head? ≠ some ':' &&
    paneKeyMatchSuffix paneKey = suffix

structure NewDispatch where
  id : DispatchId
  taskId : TaskId
  assigneeHandle : String
  assigneePaneKey : Option String
  /-- Whether the pane key is a tab id and a leaf id. -/
  parsesPaneKey : Bool
  /-- Whether nesting depth and terminal custody let the assignee take new work. -/
  admitted : Bool
  deriving DecidableEq

def isOccupied (dispatch : NewDispatch) : Bool :=
  db.dispatches.any fun row => row.status.isActive &&
    (row.assigneeHandle = some dispatch.assigneeHandle ||
      dispatch.assigneePaneKey.any (row.assigneePaneKey = some ·) ||
      (dispatch.assigneePaneKey.filter fun _ => dispatch.parsesPaneKey).any fun paneKey =>
        row.assigneePaneKey.any (hasPaneSuffix (paneKeyMatchSuffix paneKey)))

def idTaken (id : DispatchId) : Bool := db.dispatches.any (·.id = id)

def createDispatchContext (dispatch : NewDispatch) : Except LifecycleError Database :=
  match db.tasks dispatch.taskId with
  | none => .error .taskNotFound
  | some task =>
    if task.status ≠ .ready then .error .taskNotStartable
    else if !dispatch.admitted then .error .refusedElsewhere
    else if db.isOccupied dispatch then .error .assigneeOccupied
    else if db.idTaken dispatch.id then .error .idTaken
    else
      let failureCounts := (db.dispatches.filter (·.taskId = dispatch.taskId)).map (·.failureCount)
      let inserted : Database := { db with
        dispatches := db.dispatches ++ [
          { id := dispatch.id, taskId := dispatch.taskId, status := .dispatched
            assigneeHandle := some dispatch.assigneeHandle
            assigneePaneKey := dispatch.assigneePaneKey
            failureCount := failureCounts.foldl max 0, lastFailure := none
            followUpOf := none }] }
      .ok (inserted.updateTask dispatch.taskId (·.moveTo .dispatched))

inductive StartTask
  | existing (id : TaskId)
  | inline (task : NewTask)
  deriving DecidableEq

structure NewWorker where
  id : DispatchId
  task : StartTask
  retryOf : Option DispatchId
  followUpOf : Option DispatchId
  /-- Whether receipts, nesting depth and the creator let the worker start. -/
  admitted : Bool
  deriving DecidableEq

def StartTask.id : StartTask → TaskId
  | .existing id => id
  | .inline task => task.id

/-- The prior dispatch a worker is started again from. -/
def mayRetry (taskId : TaskId) (status : TaskStatus) (prior : Dispatch) : Bool :=
  prior.taskId = taskId && prior.status ≠ .circuitBroken &&
    (db.getDispatchContext taskId).any (·.id = prior.id) &&
    (match db.workers prior.id with
      | some state => state ∈ [.failed, .stopped, .abandoned]
      | none => prior.status = .failed) &&
    (status = .failed || status = .blocked)

def startWorker (worker : NewWorker) (priorFailures : ℕ) : Except LifecycleError Database :=
  if !worker.admitted then .error .refusedElsewhere
  else if db.idTaken worker.id then .error .idTaken
  else
    let inserted : Database := { db with
      dispatches := db.dispatches ++ [
        { id := worker.id, taskId := worker.task.id, status := .pending
          assigneeHandle := none, assigneePaneKey := none, failureCount := priorFailures
          lastFailure := none, followUpOf := worker.followUpOf }]
      workers := Function.update db.workers worker.id (some .starting) }
    .ok (inserted.updateTask worker.task.id fun task =>
      { task.moveTo .dispatched with result := none })

def startOnTask (worker : NewWorker) : Except LifecycleError Database :=
  match db.tasks worker.task.id with
  | none => .error .taskNotFound
  | some task =>
    match worker.retryOf with
    | some retryOf =>
      match db.getDispatchContextById retryOf with
      | some prior =>
        if db.mayRetry worker.task.id task.status prior then
          db.startWorker worker prior.failureCount
        else .error .taskNotStartable
      | none => .error .taskNotStartable
    | none =>
      if task.status ≠ .ready then .error .taskNotStartable else db.startWorker worker 0

/-- Another dispatch continues the one a follow-up names. -/
def isFollowUpClaimed (worker : NewWorker) : Bool :=
  worker.followUpOf.any fun prior => db.dispatches.any (·.followUpOf = some prior)

def createStartingWorkerDispatch (worker : NewWorker) : Except LifecycleError Database :=
  if db.isFollowUpClaimed worker then .error .followUpClaimed
  else
    match worker.task with
    | .existing _ => db.startOnTask worker
    | .inline task =>
      match db.createTask task with
      | .ok created => created.startOnTask worker
      | .error error => .error error

def updateDispatch (id : DispatchId) (f : Dispatch → Dispatch) : Database :=
  { db with dispatches := db.dispatches.map fun row => if row.id = id then f row else row }

def setWorker (id : DispatchId) (state : WorkerDispatchState) : Database :=
  { db with workers := Function.update db.workers id (some state) }

def markWorkerDispatchReady (id : DispatchId) : Except LifecycleError Database :=
  match db.getDispatchContextById id, db.workers id with
  | some dispatch, some .starting =>
    if dispatch.status = .pending then
      .ok ((db.updateDispatch id fun row =>
        if row.status = .pending then { row with status := .dispatched } else row).setWorker id
          .ready)
    else .error .dispatchInactive
  | _, _ => .error .dispatchInactive

def failWorkerStart (id : DispatchId) (reason : String) : Except LifecycleError Database :=
  match db.getDispatchContextById id, db.workers id with
  | some dispatch, some .starting =>
    if ¬ dispatch.status.isActive ∧
        dispatch.status ≠ brokenOrFailed (dispatch.failureCount + 1) then
      .error .lifecycleConflict
    else
      let failed := (db.updateDispatch id (·.failStart reason)).setWorker id .failed
      match failed.activeDispatch? dispatch.taskId, failed.tasks dispatch.taskId with
      | none, some task =>
        if task.status = .completed then .ok failed
        else .ok (failed.updateTask dispatch.taskId (·.moveTo .failed))
      | _, _ => .ok failed
  | _, _ => .error .dispatchInactive

def markWorkerStartUnknown (id : DispatchId) : Except LifecycleError Database :=
  match db.getDispatchContextById id, db.workers id with
  | some dispatch, some .starting =>
    match db.tasks dispatch.taskId with
    | none => .error .lifecycleNotFound
    | some task =>
      if task.status ≠ .dispatched then .error .lifecycleConflict
      else .ok ((db.setWorker id .startUnknown).updateTask dispatch.taskId (·.moveTo .blocked))
  | _, _ => .error .dispatchInactive

def AGENT_PROMPT_STALLED_ERROR : String := "agent_prompt_stalled"

/-- A worker's own report can correct a prompt that nobody saw fail. -/
def reportCorrectsUnobservedPrompt (dispatch : Dispatch) (task : Task) : Bool :=
  (dispatch.status = .failed || dispatch.status = .circuitBroken) &&
    dispatch.lastFailure = some AGENT_PROMPT_STALLED_ERROR && task.status = .failed

structure WorkerReport where
  taskId : TaskId
  dispatchId : DispatchId
  outcome : WorkerReportOutcome
  result : String
  deriving DecidableEq

end Database

def WorkerReportOutcome.taskStatus : WorkerReportOutcome → TaskStatus
  | .succeeded => .completed
  | .failed => .failed

def WorkerReportOutcome.dispatchStatus : WorkerReportOutcome → DispatchStatus
  | .succeeded => .completed
  | .failed => .failed

namespace Database

variable (db : Database)

/-- Where the worker of a report goes; none where its state does not allow it. -/
def reportedWorker (report : WorkerReport) (corrects unproven starting : Bool) :
    Option WorkerDispatchState → Except LifecycleError (Option WorkerDispatchState)
  | none => if corrects then .error .lifecycleNotFound else .ok none
  | some state =>
    if corrects then
      if state = .failed then .ok (some report.outcome.workerState) else .error .lifecycleConflict
    else
      match report.outcome with
      | .succeeded =>
        if unproven || starting || state = .ready then .ok (some .succeeded)
        else .error .lifecycleConflict
      | .failed =>
        if state ∈ .starting :: SETTLEABLE_WORKER_STATES then .ok (some .failed)
        else .error .lifecycleConflict

/-- The dispatch of a report that is taken; a failure that is corrected keeps its status. -/
def WorkerReport.settleRow (report : WorkerReport) (corrects : Bool) (row : Dispatch) : Dispatch :=
  match report.outcome with
  | .succeeded => { row with status := .completed }
  | .failed => { row with
      status := if corrects then row.status else .failed, lastFailure := some report.result }

def WorkerReport.settleTask (report : WorkerReport) (task : Task) : Task :=
  { task.moveTo report.outcome.taskStatus with result := some report.result }

def WorkerReport.failure (report : WorkerReport) : Option String :=
  match report.outcome with
  | .succeeded => none
  | .failed => some report.result

/-- The rows a report that is taken writes. -/
def settleReport (report : WorkerReport) (corrects : Bool) (worker : Option WorkerDispatchState) :
    Database :=
  let moved := (db.updateDispatch report.dispatchId (report.settleRow corrects)).updateTask
    report.taskId report.settleTask
  let written : Database :=
    { moved with workers := Function.update moved.workers report.dispatchId worker }
  let settled := written.settleActiveDispatchesForTask report.taskId report.outcome report.failure
  match report.outcome with
  | .succeeded => settled.promoteReadyTasks report.taskId
  | .failed => settled

def reportRejection (report : WorkerReport) (task : Task) (dispatch : Dispatch)
    (corrects reconnecting starting : Bool) : Option ReportRejectionCode :=
  let expectsDispatch :=
    corrects || reconnecting || starting || dispatch.status = .dispatched
  let expectsTask : TaskStatus :=
    if corrects then .failed else if reconnecting then .blocked else .dispatched
  if !expectsDispatch || task.status ≠ expectsTask then some .inactiveDispatch
  else if (db.dispatches.any fun row => row.taskId = report.taskId &&
      row.id ≠ report.dispatchId && row.status.isActive && db.hasLiveWorker row) then
    some .inactiveDispatch
  else if (db.workers report.dispatchId).isNone &&
      (db.activeDispatch? report.taskId).map (·.id) ≠ some report.dispatchId then
    some .staleDispatch
  else none

def settleWorkerReport (report : WorkerReport) : Except LifecycleError Database :=
  match db.tasks report.taskId, db.getDispatchContextById report.dispatchId with
  | some task, some dispatch =>
    if dispatch.taskId ≠ report.taskId then .ok db
    else
      let corrects := reportCorrectsUnobservedPrompt dispatch task
      let worker := db.workers report.dispatchId
      if !corrects && dispatch.status.settled = report.outcome.dispatchStatus &&
          task.status = report.outcome.taskStatus then .ok db
      else
        let unproven := isWorkerStateIn UNPROVEN_WORKER_STATES worker
        let reconnecting := dispatch.status.isActive && task.status = .blocked && unproven
        let starting := dispatch.status = .pending && task.status = .dispatched &&
          worker = some .starting
        match db.reportRejection report task dispatch corrects reconnecting starting with
        | some _ => .ok db
        | none =>
          match reportedWorker report corrects unproven starting worker with
          | .error error => .error error
          | .ok reported => .ok (db.settleReport report corrects reported)
  | _, _ => .ok db

end Database

inductive Operation
  | createTask (task : Database.NewTask)
  | createGate (gate : Database.NewGate)
  | resolveGate (id : GateId) (resolution : String)
  | resolveGateIfPending (id : GateId) (resolution : String)
  | timeoutGate (id : GateId)
  | createDispatchContext (dispatch : Database.NewDispatch)
  | createStartingWorkerDispatch (worker : Database.NewWorker)
  | markWorkerDispatchReady (id : DispatchId)
  | failWorkerStart (id : DispatchId) (reason : String)
  | markWorkerStartUnknown (id : DispatchId)
  | settleWorkerReport (report : Database.WorkerReport)
  | updateTaskStatus (id : TaskId) (status : TaskStatus) (result : Option String)
  deriving DecidableEq

def Operation.resolves : Operation → Option GateId
  | .resolveGate id _ | .resolveGateIfPending id _ => some id
  | _ => none

namespace Database

def call (db : Database) : Operation → Except LifecycleError Database
  | .createTask task => db.createTask task
  | .createGate gate => db.createGate gate
  | .resolveGate id resolution => db.resolveGate id resolution
  | .resolveGateIfPending id resolution => db.resolveGateIfPending id resolution
  | .timeoutGate id => db.timeoutGate id
  | .createDispatchContext dispatch => db.createDispatchContext dispatch
  | .createStartingWorkerDispatch worker => db.createStartingWorkerDispatch worker
  | .markWorkerDispatchReady id => db.markWorkerDispatchReady id
  | .failWorkerStart id reason => db.failWorkerStart id reason
  | .markWorkerStartUnknown id => db.markWorkerStartUnknown id
  | .settleWorkerReport report => db.settleWorkerReport report
  | .updateTaskStatus id status result => db.updateTaskStatus id status result

/-- A call that throws leaves the database as it was. -/
def step (db : Database) (operation : Operation) : Database :=
  match db.call operation with
  | .ok next => next
  | .error _ => db

def runOperations (db : Database) (operations : List Operation) : Database :=
  operations.foldl step db

end Database

end Wakii.Orchestration
