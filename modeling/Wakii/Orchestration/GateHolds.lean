import Wakii.Orchestration.TaskCalls

/-!
# Held tasks

A task that a gate holds is blocked, completed or failed, and no dispatch of it
is active.  Which calls keep a task held, and what the others do to it.
-/

namespace Wakii.Orchestration

open Database

def TaskStatus.isHeld (status : TaskStatus) : Bool :=
  status ∈ [.blocked, .completed, .failed]

namespace Database

/-- A task that no dispatch can run. -/
structure Held (db : Database) (taskId : TaskId) : Prop where
  task : ∃ task, db.tasks taskId = some task ∧ task.status.isHeld = true
  inactive : ∀ row ∈ db.dispatches, row.taskId = taskId → row.status.isActive = false

variable {db : Database} {taskId other : TaskId}

theorem Held.activeDispatch? (hheld : db.Held taskId) : db.activeDispatch? taskId = none := by
  rw [Database.activeDispatch?, List.getLast?_eq_none_iff, List.filter_eq_nil_iff]
  intro row hrow hactive
  rw [Bool.and_eq_true, decide_eq_true_eq] at hactive
  rw [hheld.inactive row hrow hactive.1] at hactive
  exact Bool.false_ne_true hactive.2

section Updates

section

variable (hheld : db.Held taskId)
include hheld

theorem Held.of_rows {next : Database} (htask : next.tasks taskId = db.tasks taskId)
    (hrows : ∀ row ∈ next.dispatches, row.taskId = taskId → row.status.isActive = true →
      ∃ old ∈ db.dispatches, old.taskId = taskId ∧ old.status.isActive = true) :
    next.Held taskId where
  task := by
    rw [htask]
    exact hheld.task
  inactive row hrow hof := by
    by_contra hactive
    rw [Bool.not_eq_false] at hactive
    obtain ⟨old, hold, holdOf, holdActive⟩ := hrows row hrow hof hactive
    rw [hheld.inactive old hold holdOf] at holdActive
    exact Bool.false_ne_true holdActive

theorem Held.rowsFrom {next : Database} (hrows : db.RowsFrom next) : next.Held taskId := by
  refine hheld.of_rows (by rw [hrows.tasks]) fun row hrow hof hactive => ?_
  obtain ⟨old, hold, -, hof', hactive'⟩ := hrows.rows row hrow
  exact ⟨old, hold, hof'.trans hof, hactive' hactive⟩

theorem Held.updateTask_of_ne (hne : taskId ≠ other) (f : Task → Task) :
    (db.updateTask other f).Held taskId :=
  hheld.of_rows (updateTask_tasks_of_ne _ hne f) fun row hrow hof hactive =>
    ⟨row, hrow, hof, hactive⟩

theorem Held.updateTask {f : Task → Task}
    (hf : ∀ task, (f task).status.isHeld = true) : (db.updateTask taskId f).Held taskId where
  task := by
    obtain ⟨task, htask, -⟩ := hheld.task
    refine ⟨f task, ?_, hf task⟩
    rw [updateTask_tasks_self, htask, Option.map_some]
  inactive := hheld.inactive

theorem Held.moveTo {f : Task → Task}
    (hf : ∀ task, (f task).status.isHeld = true) : (db.updateTask other f).Held taskId := by
  rcases eq_or_ne taskId other with rfl | hne
  · exact hheld.updateTask hf
  · exact hheld.updateTask_of_ne hne f

theorem Held.promote (completedTaskId : TaskId) :
    (db.promoteReadyTasks completedTaskId).Held taskId where
  task := by
    obtain ⟨task, htask, hstatus⟩ := hheld.task
    refine ⟨task, ?_, hstatus⟩
    change (db.tasks taskId).map _ = _
    rw [htask, Option.map_some, if_neg]
    rintro ⟨hpending, -⟩
    rw [hpending] at hstatus
    cases hstatus
  inactive := hheld.inactive

theorem Held.insertDispatch {row : Dispatch} (hne : row.taskId ≠ taskId) :
    ({ db with dispatches := db.dispatches ++ [row] }).Held taskId := by
  refine hheld.of_rows rfl fun other hother hof hactive => ?_
  rcases List.mem_append.mp hother with hother | hother
  · exact ⟨other, hother, hof, hactive⟩
  · rw [List.mem_singleton.mp hother] at hof
    exact absurd hof hne

end

end Updates

theorem Held.createGate {next : Database} {gate : NewGate} (hheld : db.Held taskId)
    (hcall : db.createGate gate = .ok next) : next.Held taskId := by
  unfold Database.createGate at hcall
  split at hcall
  · cases hcall
  · dsimp only at hcall
    split_ifs at hcall
    obtain rfl := Except.ok.inj hcall
    refine Held.moveTo (Held.rowsFrom ?_ (rowsFrom_settleActive _ _ _)) fun task => ?_
    rotate_left
    · rw [task.status_blockFor]
      rfl
    exact ⟨hheld.task, hheld.inactive⟩

end Database

end Wakii.Orchestration
