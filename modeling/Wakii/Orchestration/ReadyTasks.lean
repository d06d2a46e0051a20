import Wakii.Orchestration.TaskCalls

/-!
# No ready task is stranded

A task waits until its dependencies are completed, and the call that completes the last of
them makes it ready.  No call but an explicit update takes a task out of its wait earlier.
-/

namespace Wakii.Orchestration

open Function List

namespace Database

variable (db : Database)

def failDispatch (id : DispatchId) (error : String) (workerProcessExited : Bool) :
    Except LifecycleError Database :=
  match db.getDispatchContextById id with
  | none => .ok db
  | some before =>
    if !workerProcessExited && db.hasLiveWorker before then .error .taskNotStartable
    else if !before.status.isActive then .ok db
    else if workerProcessExited &&
        isWorkerStateIn [.succeeded, .stopped, .abandoned] (db.workers id) then
      .error .lifecycleConflict
    else
      let workers := if workerProcessExited then
          Function.update db.workers id ((db.workers id).map fun _ => .failed)
        else db.workers
      let failed : Database := { db.updateDispatch id (·.failStart error) with workers }
      let taskStatus : TaskStatus :=
        if brokenOrFailed (before.failureCount + 1) = .circuitBroken then .failed else .ready
      -- A late failure leaves a completed or an independently retried task as it is.
      if (db.tasks before.taskId).any (·.status = .dispatched) &&
          (failed.activeDispatch? before.taskId).isNone then
        .ok (failed.updateTask before.taskId (·.moveTo taskStatus))
      else .ok failed

inductive PlanCall
  | call (operation : Operation)
  | failDispatch (id : DispatchId) (error : String) (workerProcessExited : Bool)
  deriving DecidableEq

/-- No gate takes part, and nobody moves a task back to pending. -/
def PlanCall.isPlain : PlanCall → Bool
  | .call (.createGate _) | .call (.resolveGate _ _) | .call (.resolveGateIfPending _ _)
  | .call (.timeoutGate _) => false
  | .call (.updateTaskStatus _ status _) => status ≠ .pending
  | _ => true

def PlanCall.updates : PlanCall → Option TaskId
  | .call (.updateTaskStatus id _ _) => some id
  | _ => none

def planCall : PlanCall → Except LifecycleError Database
  | .call operation => db.call operation
  | .failDispatch id error workerProcessExited => db.failDispatch id error workerProcessExited

def planStep (call : PlanCall) : Database :=
  match db.planCall call with
  | .ok next => next
  | .error _ => db

def planRun (calls : List PlanCall) : Database := calls.foldl planStep db

def Begun (id : TaskId) : Prop := ∃ task, db.tasks id = some task ∧ task.status ≠ .pending

structure Planned : Prop where
  unstranded : ∀ id task, db.tasks id = some task → task.status = .pending →
    task.deps.all db.dependencyCompleted = false
  begun : ∀ id ∈ db.dispatches.map (·.taskId), db.Begun id

/-- What a write does to the tasks that wait: `moved` may be moved on, and `done` be completed
before the tasks that waited for it are made ready. -/
structure Moves (moved done : Option TaskId) (next : Database) : Prop where
  tasks : ∀ id, (next.tasks id).isSome = (db.tasks id).isSome
  waiting : ∀ {id task}, next.tasks id = some task → task.status = .pending →
    db.tasks id = some task
  stays : ∀ {id task}, db.tasks id = some task → task.status = .pending → id ∉ moved →
    next.tasks id = some task
  completed : ∀ id, next.dependencyCompleted id = true →
    id ∈ done ∨ db.dependencyCompleted id = true
  begun : ∀ id ∈ next.dispatches.map (·.taskId), db.Begun id

/-- What a call keeps: a task leaves its wait only once its dependencies are completed. -/
structure Proceeds (moved : Option TaskId) (next : Database) : Prop where
  planned : next.Planned
  leaves : ∀ id task, db.tasks id = some task → task.status = .pending → id ∉ moved →
    next.tasks id = some task ∨ task.deps.all next.dependencyCompleted = true

variable {db} {mid next : Database} {moved done : Option TaskId}

section Moving

variable (hmoves : db.Moves moved done mid)
include hmoves

theorem Moves.stillBegun {id : TaskId} (hid : id ∈ mid.dispatches.map (·.taskId)) :
    mid.Begun id := by
  obtain ⟨task, htask, hbegun⟩ := hmoves.begun id hid
  have hsome := hmoves.tasks id
  rw [htask] at hsome
  obtain ⟨found, hfound⟩ := Option.isSome_iff_exists.mp hsome
  refine ⟨found, hfound, fun hpending => hbegun ?_⟩
  obtain rfl := Option.some.inj (htask.symm.trans (hmoves.waiting hfound hpending))
  exact hpending

theorem Moves.rowsFrom (hfrom : mid.RowsFrom next) : db.Moves moved done next where
  tasks id := by rw [hfrom.tasks, hmoves.tasks]
  waiting htask := hmoves.waiting (hfrom.tasks ▸ htask)
  stays htask hpending hmoved := hfrom.tasks ▸ hmoves.stays htask hpending hmoved
  completed id hcompleted := by
    rw [dependencyCompleted, hfrom.tasks] at hcompleted
    exact hmoves.completed id hcompleted
  begun id hid := by
    obtain ⟨row, hrow, rfl⟩ := mem_map.mp hid
    obtain ⟨old, hold, -, hof, -⟩ := hfrom.rows row hrow
    exact hmoves.begun row.taskId (mem_map.mpr ⟨old, hold, hof⟩)

end Moving

theorem Moves.updateTask (hmoves : db.Moves moved none mid) {status : TaskStatus} {id : TaskId}
    {f : Task → Task} (hf : ∀ task, (f task).status = status)
    (hmay : status ≠ .pending ∧ (id ∈ moved ∨ db.Begun id))
    (hdone : status = .completed → id ∈ done) : db.Moves moved done (mid.updateTask id f) := by
  refine ⟨fun other => ?_, fun {other task} htask hpending => ?_,
    fun {other task} htask hpending hother => ?_, fun other hcompleted => ?_, hmoves.begun⟩
  all_goals rcases eq_or_ne other id with rfl | hne
  · rw [updateTask_tasks_self, Option.isSome_map, hmoves.tasks]
  · rw [updateTask_tasks_of_ne _ hne, hmoves.tasks]
  · rw [updateTask_tasks_self] at htask
    obtain ⟨old, -, rfl⟩ := Option.map_eq_some_iff.mp htask
    exact absurd ((hf old).symm.trans hpending) hmay.1
  · rw [updateTask_tasks_of_ne _ hne] at htask
    exact hmoves.waiting htask hpending
  · obtain ⟨found, hfound, hbegun⟩ := hmay.2.resolve_left hother
    obtain rfl := Option.some.inj (htask.symm.trans hfound)
    exact absurd hpending hbegun
  · rw [updateTask_tasks_of_ne _ hne]
    exact hmoves.stays htask hpending hother
  · rw [dependencyCompleted, updateTask_tasks_self] at hcompleted
    obtain ⟨task, htask, hdecided⟩ := (Option.any_eq_true _ _).mp hcompleted
    obtain ⟨old, -, rfl⟩ := Option.map_eq_some_iff.mp htask
    exact Or.inl (hdone ((hf old).symm.trans (of_decide_eq_true hdecided)))
  · rw [dependencyCompleted, updateTask_tasks_of_ne _ hne] at hcompleted
    exact Or.inr ((hmoves.completed other hcompleted).resolve_left nofun)

theorem dependencyCompleted_promote (done id : TaskId) :
    (mid.promoteReadyTasks done).dependencyCompleted id = mid.dependencyCompleted id := by
  rw [dependencyCompleted, dependencyCompleted]
  change ((mid.tasks id).map _).any _ = _
  cases mid.tasks id with
  | none => rfl
  | some task =>
    rw [Option.map_some, Option.any_some, Option.any_some]
    split_ifs with hready
    · rw [hready.1]
      rfl
    · rfl

section Calls

variable (hplanned : db.Planned)
include hplanned

theorem Proceeds.of_moves (hmoves : db.Moves moved none next) : db.Proceeds moved next where
  planned.unstranded id task htask hpending := by
    by_contra hall
    rw [Bool.not_eq_false, all_eq_true] at hall
    have hbefore : task.deps.all db.dependencyCompleted = true := all_eq_true.mpr
      fun dep hdep => (hmoves.completed dep (hall dep hdep)).resolve_left nofun
    rw [hplanned.unstranded id task (hmoves.waiting htask hpending) hpending] at hbefore
    cases hbefore
  planned.begun _ hid := hmoves.stillBegun hid
  leaves _ _ htask hpending hmoved := Or.inl (hmoves.stays htask hpending hmoved)

/-- Completing a task leaves none waiting that waited for it alone. -/
theorem Proceeds.of_promote {id : TaskId} (hmoves : db.Moves moved (some id) mid) :
    db.Proceeds moved (mid.promoteReadyTasks id) := by
  have hcompleted : (mid.promoteReadyTasks id).dependencyCompleted = mid.dependencyCompleted :=
    funext (dependencyCompleted_promote id)
  have hpromoted {other : TaskId} {task : Task} (htask : mid.tasks other = some task) :
      (mid.promoteReadyTasks id).tasks other = some
        (if task.status = .pending ∧ id ∈ task.deps ∧ task.deps.all mid.dependencyCompleted then
          task.moveTo .ready else task) := by
    change (mid.tasks other).map _ = _
    rw [htask, Option.map_some]
  refine ⟨⟨fun other task htask hpending => ?_, fun other hother => ?_⟩,
    fun other task htask hpending hmoved => ?_⟩
  · obtain ⟨old, hold, rfl⟩ := Option.map_eq_some_iff.mp htask
    rw [hcompleted]
    split_ifs at hpending ⊢ with hready
    · cases hpending
    · by_contra hdone
      rw [Bool.not_eq_false] at hdone
      have hbefore : old.deps.all db.dependencyCompleted = true := by
        refine all_eq_true.mpr fun dep hdep => ?_
        refine (hmoves.completed dep (all_eq_true.mp hdone dep hdep)).resolve_left ?_
        rintro ⟨⟩
        exact hready ⟨hpending, hdep, hdone⟩
      rw [hplanned.unstranded other old (hmoves.waiting hold hpending) hpending] at hbefore
      cases hbefore
  · obtain ⟨task, htask, hbegun⟩ := hmoves.stillBegun hother
    refine ⟨_, hpromoted htask, ?_⟩
    rwa [if_neg fun hready => hbegun hready.1]
  · rw [hpromoted (hmoves.stays htask hpending hmoved), hcompleted]
    split_ifs with hready
    · exact Or.inr hready.2.2
    · exact Or.inl rfl

theorem Planned.rule :
    WriteRule db (fun id status => status ≠ .pending ∧ (id ∈ moved ∨ db.Begun id))
    db.Begun (db.Moves moved none) (db.Proceeds moved) where
  same := ⟨fun _ => rfl, fun htask _ => htask, fun htask _ _ => htask, fun _ => Or.inr,
    hplanned.begun⟩
  last := .of_moves hplanned
  rows := Moves.rowsFrom
  insert {mid row} hmoves hbegun := by
    refine ⟨hmoves.tasks, hmoves.waiting, hmoves.stays, hmoves.completed, fun id hid => ?_⟩
    rw [map_append, mem_append] at hid
    rcases hid with hid | hid
    · exact hmoves.begun id hid
    · rw [mem_singleton.mp hid]
      exact hbegun
  move hmoves hmay hf hnot := hmoves.updateTask hf hmay fun hstatus => absurd hstatus hnot
  complete hmoves hmay hf hfrom :=
    .of_promote hplanned ((hmoves.updateTask hf hmay fun _ => rfl).rowsFrom hfrom)

theorem Planned.of_dispatch {id : DispatchId} {row : Dispatch}
    (hrow : db.getDispatchContextById id = some row) : db.Begun row.taskId :=
  hplanned.begun row.taskId (mem_map_of_mem (mem_of_find?_eq_some hrow))

theorem proceeds_failDispatch {id : DispatchId} {error : String} {workerProcessExited : Bool}
    (hcall : db.failDispatch id error workerProcessExited = .ok next) : db.Proceeds moved next := by
  have hsame : db.Proceeds moved db := hplanned.rule.last hplanned.rule.same
  unfold Database.failDispatch at hcall
  split at hcall
  · obtain rfl := Except.ok.inj hcall
    exact hsame
  · next before hbefore =>
    dsimp only at hcall
    have hfailed (workers : DispatchId → Option WorkerDispatchState) :
        db.Moves moved none { db.updateDispatch id (·.failStart error) with workers } :=
      hplanned.rule.rows hplanned.rule.same
        ((rowsFrom_failStart id error).trans (rowsFrom_workers workers))
    have hmoved (workers : DispatchId → Option WorkerDispatchState) {status : TaskStatus}
        (hstatus : status = .failed ∨ status = .ready) : db.Proceeds moved
          (Database.updateTask { db.updateDispatch id (·.failStart error) with workers }
            before.taskId (·.moveTo status)) := by
      refine hplanned.rule.last (hplanned.rule.move (hfailed workers)
        ⟨?_, Or.inr (hplanned.of_dispatch hbefore)⟩ (fun _ => rfl) ?_)
      all_goals rcases hstatus with rfl | rfl <;> rintro ⟨⟩
    split_ifs at hcall
    all_goals obtain rfl := Except.ok.inj hcall
    · exact hsame
    all_goals first
      | exact hmoved _ (Or.inl rfl)
      | exact hmoved _ (Or.inr rfl)
      | exact hplanned.rule.last (hfailed _)

theorem proceeds_createTask {task : NewTask} (hcall : db.createTask task = .ok next) :
    next.Planned ∧ ∀ id found, db.tasks id = some found → next.tasks id = some found := by
  obtain ⟨hfree, rfl⟩ := createTask_eq hcall
  generalize hcreated : ({ runId := task.runId, parentId := task.parentId, deps := task.deps
                           status := db.initialStatus task.deps, result := none
                           blockedBy := [], gatedFrom := none } : Task) = created
  have hkept (id : TaskId) (found : Task) (hfound : db.tasks id = some found) :
      Function.update db.tasks task.id (some created) id = some found := by
    refine (update_of_ne ?_ _ _).trans hfound
    rintro rfl
    exact nomatch hfree.symm.trans hfound
  have hcompleted : ({ db with tasks := Function.update db.tasks task.id (some created) } :
      Database).dependencyCompleted = db.dependencyCompleted := by
    funext id
    rw [dependencyCompleted, dependencyCompleted]
    dsimp only
    rcases eq_or_ne id task.id with rfl | hne
    · rw [update_self, hfree, ← hcreated, Option.any_some, initialStatus]
      split_ifs <;> rfl
    · rw [update_of_ne hne]
  refine ⟨⟨fun id found hfound hpending => ?_, fun id hid => ?_⟩, hkept⟩
  · rw [hcompleted]
    dsimp only at hfound
    rcases eq_or_ne id task.id with rfl | hne
    · rw [update_self] at hfound
      obtain rfl := Option.some.inj hfound
      rw [← hcreated] at hpending ⊢
      by_contra hready
      rw [Bool.not_eq_false] at hready
      change db.initialStatus task.deps = .pending at hpending
      rw [initialStatus, if_pos hready] at hpending
      cases hpending
    · rw [update_of_ne hne] at hfound
      exact hplanned.unstranded id found hfound hpending
  · obtain ⟨found, hfound, hbegun⟩ := hplanned.begun id hid
    exact ⟨found, hkept id found hfound, hbegun⟩

theorem proceeds_startOnTask {worker : NewWorker} (hcall : db.startOnTask worker = .ok next) :
    db.Proceeds moved next := by
  refine hplanned.rule.startOnTask hcall fun task ⟨htask, hstatus⟩ => ?_
  have hbegun : db.Begun worker.task.id := by
    refine ⟨task, htask, fun hpending => ?_⟩
    rw [hpending] at hstatus
    simp at hstatus
  exact ⟨⟨nofun, Or.inr hbegun⟩, hbegun⟩

theorem proceeds_createStartingWorkerDispatch {worker : NewWorker}
    (hcall : db.createStartingWorkerDispatch worker = .ok next) : db.Proceeds moved next := by
  unfold Database.createStartingWorkerDispatch at hcall
  split_ifs at hcall
  split at hcall
  · exact proceeds_startOnTask hplanned hcall
  · split at hcall
    · next created hcreated =>
      obtain ⟨hcreatedPlanned, hkept⟩ := proceeds_createTask hplanned hcreated
      have hstarts : created.Proceeds moved next := proceeds_startOnTask hcreatedPlanned hcall
      exact ⟨hstarts.planned, fun id task htask => hstarts.leaves id task (hkept id task htask)⟩
    · cases hcall

theorem proceeds_call {operation : Operation} (hplain : (PlanCall.call operation).isPlain = true)
    (hcall : db.call operation = .ok next) :
    db.Proceeds (PlanCall.call operation).updates next := by
  cases operation with
  | createTask task =>
    obtain ⟨hnext, hkept⟩ := proceeds_createTask hplanned hcall
    exact ⟨hnext, fun id found hfound _ _ => Or.inl (hkept id found hfound)⟩
  | createGate | resolveGate | resolveGateIfPending | timeoutGate => cases hplain
  | createDispatchContext dispatch =>
    refine hplanned.rule.createDispatchContext hcall fun task htask hready => ?_
    have hbegun : db.Begun dispatch.taskId := ⟨task, htask, by rw [hready]; exact nofun⟩
    exact ⟨⟨nofun, Or.inr hbegun⟩, hbegun⟩
  | createStartingWorkerDispatch worker =>
    exact proceeds_createStartingWorkerDispatch hplanned hcall
  | markWorkerDispatchReady id => exact hplanned.rule.markWorkerDispatchReady hcall
  | failWorkerStart id reason =>
    exact hplanned.rule.failWorkerStart hcall fun _ hrow =>
      ⟨nofun, Or.inr (hplanned.of_dispatch hrow)⟩
  | markWorkerStartUnknown id =>
    exact hplanned.rule.markWorkerStartUnknown hcall fun _ hrow =>
      ⟨nofun, Or.inr (hplanned.of_dispatch hrow)⟩
  | settleWorkerReport report =>
    refine hplanned.rule.settleWorkerReport hcall fun task htask hbegun =>
      ⟨?_, Or.inr ⟨task, htask, hbegun⟩⟩
    cases report.outcome <;> rintro ⟨⟩
  | updateTaskStatus id status result =>
    exact hplanned.rule.updateTaskStatus hcall fun _ => ⟨of_decide_eq_true hplain, Or.inl rfl⟩

end Calls

theorem proceeds_planStep (hplanned : db.Planned) {call : PlanCall} (hplain : call.isPlain = true) :
    db.Proceeds call.updates (db.planStep call) := by
  unfold planStep
  split
  · next next hcall =>
    cases call with
    | failDispatch id error exited => exact proceeds_failDispatch hplanned hcall
    | call operation => exact proceeds_call hplanned hplain hcall
  · exact hplanned.rule.last hplanned.rule.same

theorem planned_planRun (hplanned : db.Planned) {calls : List PlanCall}
    (hplain : ∀ call ∈ calls, call.isPlain = true) : (db.planRun calls).Planned := by
  induction calls generalizing db with
  | nil => exact hplanned
  | cons call rest ih =>
    exact ih (proceeds_planStep hplanned (hplain call mem_cons_self)).planned
      fun other hother => hplain other (mem_cons_of_mem _ hother)

/-- No task whose dependencies are completed waits, and none leaves its wait before. -/
theorem no_ready_task_stranded (runs : List RunId) (calls : List PlanCall) (call : PlanCall)
    (hplain : ∀ other ∈ call :: calls, other.isPlain = true) :
    ((createDatabase runs).planRun calls).Planned ∧
      ((createDatabase runs).planRun calls).Proceeds call.updates
        (((createDatabase runs).planRun calls).planStep call) := by
  have hempty : (createDatabase runs).Planned := ⟨fun _ _ htask => (by cases htask), nofun⟩
  have hplanned := planned_planRun hempty fun other hother =>
    hplain other (mem_cons_of_mem _ hother)
  exact ⟨hplanned, proceeds_planStep hplanned (hplain call mem_cons_self)⟩

def samplePlan : List PlanCall := [
  .call (.createTask ⟨"a", "run", none, []⟩), .call (.createTask ⟨"b", "run", none, []⟩),
  .call (.createTask ⟨"t", "run", none, ["a", "b"]⟩),
  .call (.updateTaskStatus "a" .completed none),
  .call (.createDispatchContext ⟨"c", "b", "worker", none, false, true⟩)]

/-- The last of two dependencies is completed by a worker's report. -/
theorem no_ready_task_stranded_sample :
    let db := (createDatabase ["run"]).planRun samplePlan
    db.Planned ∧ db.Proceeds none
      (db.planStep (.call (.settleWorkerReport ⟨"b", "c", .succeeded, "done"⟩))) :=
  no_ready_task_stranded ["run"] samplePlan
    (.call (.settleWorkerReport ⟨"b", "c", .succeeded, "done"⟩)) (by decide)

end Database

end Wakii.Orchestration
