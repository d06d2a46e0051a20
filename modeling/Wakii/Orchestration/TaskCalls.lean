import Wakii.Orchestration.GateStore

/-!
# What the calls on tasks write

Each call on a task or on a dispatch is made of a few writes.  What all of them keep, the
call keeps; which task it moves, and from where, is told once for every call.
-/

namespace Wakii.Orchestration

namespace Database

variable {db next : Database}

/-- What a write beside the tasks and the gates does: every dispatch is one that was there, and
none becomes active. -/
structure RowsFrom (db next : Database) : Prop where
  tasks : next.tasks = db.tasks
  gates : next.gates = db.gates
  rows : ∀ row ∈ next.dispatches, ∃ old ∈ db.dispatches, old.id = row.id ∧
    old.taskId = row.taskId ∧ (row.status.isActive = true → old.status.isActive = true)

theorem RowsFrom.trans {mid : Database} (hfirst : db.RowsFrom mid) (hsecond : mid.RowsFrom next) :
    db.RowsFrom next where
  tasks := hsecond.tasks.trans hfirst.tasks
  gates := hsecond.gates.trans hfirst.gates
  rows row hrow := by
    obtain ⟨old, hold, hid, hof, hactive⟩ := hsecond.rows row hrow
    obtain ⟨first, hfirst, hid', hof', hactive'⟩ := hfirst.rows old hold
    exact ⟨first, hfirst, hid'.trans hid, hof'.trans hof, hactive' ∘ hactive⟩

theorem rowsFrom_workers (workers : DispatchId → Option WorkerDispatchState) :
    db.RowsFrom { db with workers } :=
  ⟨rfl, rfl, fun row hrow => ⟨row, hrow, rfl, rfl, id⟩⟩

theorem rowsFrom_updateDispatch (id : DispatchId) {f : Dispatch → Dispatch}
    (hf : ∀ row, (f row).id = row.id ∧ (f row).taskId = row.taskId ∧
      ((f row).status.isActive = true → row.status.isActive = true)) :
    db.RowsFrom (db.updateDispatch id f) := by
  refine ⟨rfl, rfl, fun row hrow => ?_⟩
  obtain ⟨old, hold, rfl⟩ := List.mem_map.mp hrow
  refine ⟨old, hold, ?_⟩
  split_ifs
  · obtain ⟨hid, hof, hactive⟩ := hf old
    exact ⟨hid.symm, hof.symm, hactive⟩
  · exact ⟨rfl, rfl, fun hactive => hactive⟩

theorem rowsFrom_settleActive (taskId : TaskId) (outcome : WorkerReportOutcome)
    (failure : Option String) :
    db.RowsFrom (db.settleActiveDispatchesForTask taskId outcome failure) := by
  refine ⟨rfl, rfl, fun row hrow => ?_⟩
  obtain ⟨old, hold, rfl⟩ := List.mem_map.mp hrow
  refine ⟨old, hold, ?_⟩
  split_ifs
  · cases outcome <;> exact ⟨rfl, rfl, nofun⟩
  · exact ⟨rfl, rfl, id⟩

theorem rowsFrom_settleRow (report : WorkerReport) (corrects : Bool) :
    db.RowsFrom (db.updateDispatch report.dispatchId (report.settleRow corrects)) := by
  refine rowsFrom_updateDispatch _ fun row => ?_
  unfold WorkerReport.settleRow
  split
  · exact ⟨rfl, rfl, nofun⟩
  · split_ifs
    · exact ⟨rfl, rfl, id⟩
    · exact ⟨rfl, rfl, nofun⟩

theorem rowsFrom_failStart (id : DispatchId) (reason : String) :
    db.RowsFrom (db.updateDispatch id (·.failStart reason)) := by
  refine rowsFrom_updateDispatch id fun row => ⟨rfl, rfl, fun hactive => absurd hactive ?_⟩
  change ¬(brokenOrFailed (row.failureCount + 1)).isActive = true
  unfold brokenOrFailed
  split_ifs <;> exact Bool.false_ne_true

/-- What every write keeps, and what holds at the end of a call.  Tasks move where `may` lets
them, and are dispatched where `starts` does. -/
structure WriteRule (db : Database) (may : TaskId → TaskStatus → Prop) (starts : TaskId → Prop)
    (kept done : Database → Prop) : Prop where
  same : kept db
  last : ∀ {mid}, kept mid → done mid
  rows : ∀ {mid next : Database}, kept mid → mid.RowsFrom next → kept next
  insert : ∀ {mid : Database} {row : Dispatch}, kept mid → starts row.taskId →
    kept { mid with dispatches := mid.dispatches ++ [row] }
  move : ∀ {mid : Database} {id : TaskId} {f : Task → Task} {status : TaskStatus}, kept mid →
    may id status → (∀ task, (f task).status = status) → status ≠ .completed →
    kept (mid.updateTask id f)
  complete : ∀ {mid next : Database} {id : TaskId} {f : Task → Task}, kept mid →
    may id .completed → (∀ task, (f task).status = .completed) →
    (mid.updateTask id f).RowsFrom next → done (next.promoteReadyTasks id)

theorem createTask_eq {task : NewTask} (hcall : db.createTask task = .ok next) :
    db.tasks task.id = none ∧ next = { db with
      tasks := Function.update db.tasks task.id (some
        { runId := task.runId, parentId := task.parentId, deps := task.deps
          status := db.initialStatus task.deps, result := none, blockedBy := []
          gatedFrom := none }) } := by
  unfold Database.createTask at hcall
  split_ifs at hcall with _ _ _ htaken
  exact ⟨Option.not_isSome_iff_eq_none.mp htaken, (Except.ok.inj hcall).symm⟩

theorem reportRejection_of_pending {report : WorkerReport} {task : Task} {dispatch : Dispatch}
    {corrects reconnecting starting : Bool} (hpending : task.status = .pending) :
    db.reportRejection report task dispatch corrects reconnecting starting =
      some .inactiveDispatch := by
  unfold reportRejection
  dsimp only
  rw [hpending, if_pos]
  rw [Bool.or_eq_true]
  right
  cases corrects <;> cases reconnecting <;> rfl

/-- The retry that a worker is to be started as is taken. -/
def isRetried (db : Database) (worker : NewWorker) : Prop :=
  ∃ retryOf ∈ worker.retryOf, ∃ prior, db.getDispatchContextById retryOf = some prior ∧
    ∃ task, db.tasks worker.task.id = some task ∧
      db.mayRetry worker.task.id task.status prior = true

/-- The task a dispatch is made for: it is ready, or tried again. -/
def IsStartable (db : Database) (worker : NewWorker) (task : Task) : Prop :=
  db.tasks worker.task.id = some task ∧ (task.status = .ready ∨
    worker.admitted = true ∧ db.isRetried worker ∧ (task.status = .failed ∨ task.status = .blocked))

section Calls

variable {may : TaskId → TaskStatus → Prop} {starts : TaskId → Prop}
  {kept done : Database → Prop} (rule : WriteRule db may starts kept done)
include rule

theorem WriteRule.createDispatchContext {dispatch : NewDispatch}
    (hcall : db.createDispatchContext dispatch = .ok next)
    (hmay : ∀ task, db.tasks dispatch.taskId = some task → task.status = .ready →
      may dispatch.taskId .dispatched ∧ starts dispatch.taskId) : done next := by
  unfold Database.createDispatchContext at hcall
  split at hcall
  · cases hcall
  · next task htask =>
    dsimp only at hcall
    split_ifs at hcall with hready
    obtain rfl := Except.ok.inj hcall
    obtain ⟨hmoves, hstarts⟩ := hmay task htask (not_not.mp hready)
    exact rule.last (rule.move (rule.insert rule.same hstarts) hmoves (fun _ => rfl) nofun)

theorem WriteRule.startOnTask {worker : NewWorker} (hcall : db.startOnTask worker = .ok next)
    (hmay : ∀ task, db.IsStartable worker task →
      may worker.task.id .dispatched ∧ starts worker.task.id) : done next := by
  have hstart {failures : ℕ} {task : Task} (htask : db.tasks worker.task.id = some task)
      (hstatus : worker.admitted = true → db.IsStartable worker task)
      (hcall : db.startWorker worker failures = .ok next) : done next := by
    unfold Database.startWorker at hcall
    dsimp only at hcall
    split_ifs at hcall with hadmitted
    obtain rfl := Except.ok.inj hcall
    obtain ⟨hmoves, hstarts⟩ := hmay task (hstatus (by simpa using hadmitted))
    exact rule.last (rule.move (rule.rows (rule.insert rule.same hstarts) (rowsFrom_workers _))
      hmoves
      (fun _ => rfl) nofun)
  unfold Database.startOnTask at hcall
  split at hcall
  · cases hcall
  · next task htask =>
    split at hcall
    · next retryOf hretryOf =>
      split at hcall
      · next prior hprior =>
        split_ifs at hcall with hmayRetry
        refine hstart htask (fun hadmitted => ⟨htask, Or.inr ⟨hadmitted, ⟨retryOf, hretryOf, prior,
          hprior, task, htask, hmayRetry⟩, ?_⟩⟩) hcall
        simp only [mayRetry, Bool.and_eq_true, Bool.or_eq_true, decide_eq_true_eq] at hmayRetry
        exact hmayRetry.2
      · cases hcall
    · split_ifs at hcall with hready
      exact hstart htask (fun _ => ⟨htask, Or.inl (not_not.mp hready)⟩) hcall

theorem WriteRule.markWorkerDispatchReady {id : DispatchId}
    (hcall : db.markWorkerDispatchReady id = .ok next) : done next := by
  unfold Database.markWorkerDispatchReady at hcall
  split at hcall
  · split_ifs at hcall
    obtain rfl := Except.ok.inj hcall
    refine rule.last (rule.rows rule.same ((rowsFrom_updateDispatch id fun row => ?_).trans
      (rowsFrom_workers _)))
    split_ifs with hpending
    · exact ⟨rfl, rfl, fun _ => by rw [hpending]; rfl⟩
    · exact ⟨rfl, rfl, fun hactive => hactive⟩
  · cases hcall

theorem WriteRule.failWorkerStart {id : DispatchId} {reason : String}
    (hcall : db.failWorkerStart id reason = .ok next)
    (hmay : ∀ dispatch, db.getDispatchContextById id = some dispatch →
      may dispatch.taskId .failed) : done next := by
  unfold Database.failWorkerStart at hcall
  split at hcall
  · next dispatch hdispatch _ =>
    dsimp only at hcall
    split_ifs at hcall
    have hfailed : kept ((db.updateDispatch id (·.failStart reason)).setWorker id .failed) :=
      rule.rows rule.same ((rowsFrom_failStart id reason).trans (rowsFrom_workers _))
    split at hcall
    · split_ifs at hcall
      · obtain rfl := Except.ok.inj hcall
        exact rule.last hfailed
      · obtain rfl := Except.ok.inj hcall
        exact rule.last (rule.move hfailed (hmay dispatch hdispatch) (fun _ => rfl) nofun)
    · obtain rfl := Except.ok.inj hcall
      exact rule.last hfailed
  · cases hcall

theorem WriteRule.markWorkerStartUnknown {id : DispatchId}
    (hcall : db.markWorkerStartUnknown id = .ok next)
    (hmay : ∀ dispatch, db.getDispatchContextById id = some dispatch →
      may dispatch.taskId .blocked) : done next := by
  unfold Database.markWorkerStartUnknown at hcall
  split at hcall
  · next dispatch hdispatch _ =>
    split at hcall
    · cases hcall
    · split_ifs at hcall
      obtain rfl := Except.ok.inj hcall
      exact rule.last (rule.move (rule.rows rule.same (rowsFrom_workers _))
        (hmay dispatch hdispatch)
        (fun _ => rfl) nofun)
  · cases hcall

theorem WriteRule.updateTaskStatus {id : TaskId} {status : TaskStatus} {result : Option String}
    (hcall : db.updateTaskStatus id status result = .ok next)
    (hmay : (status = .dispatched → db.activeDispatch? id ≠ none) → may id status) : done next := by
  unfold Database.updateTaskStatus at hcall
  split at hcall
  · obtain rfl := Except.ok.inj hcall
    exact rule.last rule.same
  · dsimp only at hcall
    split_ifs at hcall with _ hinactive
    · obtain rfl := Except.ok.inj hcall
      exact rule.last rule.same
    · have hmoves := hmay fun hdispatched hnone => hinactive ⟨hdispatched, by rw [hnone]; rfl⟩
      split at hcall
      · obtain rfl := Except.ok.inj hcall
        exact rule.complete rule.same hmoves (fun _ => rfl) (rowsFrom_settleActive _ _ _)
      · obtain rfl := Except.ok.inj hcall
        exact rule.last (rule.rows (rule.move rule.same hmoves (fun _ => rfl) nofun)
          (rowsFrom_settleActive _ _ _))
      · next hnot _ =>
        obtain rfl := Except.ok.inj hcall
        exact rule.last (rule.move rule.same hmoves (fun _ => rfl) hnot)

theorem WriteRule.settleReport {report : WorkerReport} (corrects : Bool)
    (worker : Option WorkerDispatchState) (hmay : may report.taskId report.outcome.taskStatus) :
    done (db.settleReport report corrects worker) := by
  have hrows := rule.rows rule.same (rowsFrom_settleRow report corrects)
  have hstatus (task : Task) : (report.settleTask task).status = report.outcome.taskStatus := rfl
  unfold Database.settleReport
  dsimp only
  split
  · next houtcome =>
    rw [houtcome] at hmay hstatus
    exact rule.complete hrows hmay hstatus
      ((rowsFrom_workers _).trans (rowsFrom_settleActive _ _ _))
  · next houtcome =>
    rw [houtcome] at hmay hstatus
    exact rule.last (rule.rows (rule.move hrows hmay hstatus nofun)
      ((rowsFrom_workers _).trans (rowsFrom_settleActive _ _ _)))

theorem WriteRule.settleWorkerReport {report : WorkerReport}
    (hcall : db.settleWorkerReport report = .ok next)
    (hmay : ∀ task, db.tasks report.taskId = some task → task.status ≠ .pending →
      may report.taskId report.outcome.taskStatus) : done next := by
  have hkept (hsame : (Except.ok db : Except LifecycleError Database) = .ok next) : done next :=
    Except.ok.inj hsame ▸ rule.last rule.same
  unfold Database.settleWorkerReport at hcall
  split at hcall
  · next task dispatch htask _ =>
    dsimp only at hcall
    split_ifs at hcall
    · exact hkept hcall
    · exact hkept hcall
    · split at hcall
      · exact hkept hcall
      · next htaken =>
        split at hcall
        · cases hcall
        · obtain rfl := Except.ok.inj hcall
          refine rule.settleReport _ _ (hmay task htask fun hpending => ?_)
          rw [reportRejection_of_pending hpending] at htaken
          cases htaken
  · exact hkept hcall

end Calls

end Database

end Wakii.Orchestration
