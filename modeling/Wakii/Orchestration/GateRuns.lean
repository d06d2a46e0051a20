import Wakii.Orchestration.GateHolds

/-!
# What a pending gate holds back

While a gate of a task is pending, the task is held; a gate that is closed stays
as it was closed.  Both hold in every run in which a gate is resolved only while
it alone keeps its task from starting, and no worker is started again on a task
that a gate holds.
-/

namespace Wakii.Orchestration

open List

namespace Database

variable {db next : Database}

def Ungated (db : Database) (taskId : TaskId) : Prop :=
  ∀ id gate, db.gates id = some gate → gate.taskId = taskId → gate.status ≠ .pending

def Gated (db : Database) : Prop :=
  ∀ id gate, db.gates id = some gate → gate.status = .pending → db.Held gate.taskId

/-- The gate alone keeps its task from starting. -/
structure MayResolve (db : Database) (id : GateId) (gate : Gate) : Prop where
  pending : gate.status = .pending
  blocked : ∀ task, db.tasks gate.taskId = some task → task.isGatedBy id = true ∧
    task.deps.all db.dependencyCompleted = true
  alone : ∀ other gate', db.gates other = some gate' → gate'.taskId = gate.taskId →
    gate'.status = .pending → other = id

/-- The gate was resolved so before, and its task is still ready. -/
structure Repeats (db : Database) (gate : Gate) (resolution : String) : Prop where
  resolved : gate.status = .resolved
  same : gate.resolution = some resolution
  ready : ∀ task, db.tasks gate.taskId = some task → task.status = .ready

theorem idTaken_of_mem {row : Dispatch} (hrow : row ∈ db.dispatches) : db.idTaken row.id = true :=
  any_eq_true.mpr ⟨row, hrow, decide_eq_true rfl⟩

/-- What a call does beside the gates: they stay, a dispatch that is made is one of a task without
a pending gate, and every other task stays held. -/
structure LeavesGates (db next : Database) : Prop where
  gates : next.gates = db.gates
  rows : ∀ row ∈ next.dispatches, db.idTaken row.id = true ∨ db.Ungated row.taskId
  held : ∀ taskId, ¬db.Ungated taskId → next.Held taskId

theorem LeavesGates.gated (hleaves : LeavesGates db next) : next.Gated := by
  intro id gate hgate hpending
  rw [hleaves.gates] at hgate
  exact hleaves.held gate.taskId fun hfree => hfree id gate hgate rfl hpending

section Leaving

variable (hgated : db.Gated)
include hgated

theorem Gated.held {taskId : TaskId} (hpending : ¬db.Ungated taskId) : db.Held taskId := by
  by_contra hfree
  exact hpending fun id gate hgate hof hpending => hfree (hof ▸ hgated id gate hgate hpending)

theorem Gated.leaves : LeavesGates db db :=
  ⟨rfl, fun _ hrow => Or.inl (idTaken_of_mem hrow), fun _ => hgated.held⟩

/-- Every write leaves the gates that moves no gated task but to where it is held. -/
theorem Gated.rule : WriteRule db (fun id status => status.isHeld = true ∨ db.Ungated id)
    db.Ungated (LeavesGates db) (LeavesGates db) := by
  have hrows {mid next : Database} (hkept : LeavesGates db mid) (hfrom : mid.RowsFrom next) :
      LeavesGates db next := by
    refine ⟨hfrom.gates.trans hkept.gates, fun row hrow => ?_, fun taskId hpending =>
      (hkept.held taskId hpending).rowsFrom hfrom⟩
    obtain ⟨old, hold, hid, hof, -⟩ := hfrom.rows row hrow
    rw [← hid, ← hof]
    exact hkept.rows old hold
  have hmove {mid : Database} {id : TaskId} {f : Task → Task} {status : TaskStatus}
      (hkept : LeavesGates db mid) (hmay : status.isHeld = true ∨ db.Ungated id)
      (hf : ∀ task, (f task).status = status) : LeavesGates db (mid.updateTask id f) := by
    refine ⟨hkept.gates, hkept.rows, fun taskId hpending => ?_⟩
    rcases hmay with hstatus | hfree
    · exact (hkept.held taskId hpending).moveTo fun task => (hf task).symm ▸ hstatus
    · refine (hkept.held taskId hpending).updateTask_of_ne ?_ f
      rintro rfl
      exact hpending hfree
  refine ⟨hgated.leaves, id, hrows, fun hkept hstarts => ⟨hkept.gates, fun row hrow => ?_,
    fun taskId hpending => (hkept.held taskId hpending).insertDispatch ?_⟩,
    fun hkept hmay hf _ => hmove hkept hmay hf, fun hkept hmay hf hfrom => ?_⟩
  · rcases mem_append.mp hrow with hrow | hrow
    · exact hkept.rows row hrow
    · rw [mem_singleton.mp hrow]
      exact Or.inr hstarts
  · rintro rfl
    exact hpending hstarts
  · have hcompleted := hrows (hmove hkept hmay hf) hfrom
    exact ⟨hcompleted.gates, hcompleted.rows, fun taskId hpending =>
      (hcompleted.held taskId hpending).promote _⟩

theorem Gated.ungated_of_ready {id : TaskId} {task : Task} (htask : db.tasks id = some task)
    (hready : task.status = .ready) : db.Ungated id := by
  by_contra hpending
  obtain ⟨held, hfound, hstatus⟩ := (hgated.held hpending).task
  obtain rfl := Option.some_inj.mp (htask.symm.trans hfound)
  rw [hready] at hstatus
  cases hstatus

theorem Gated.leaves_createTask {task : NewTask} (hcall : db.createTask task = .ok next) :
    LeavesGates db next ∧ db.Ungated task.id := by
  obtain ⟨hfree, rfl⟩ := createTask_eq hcall
  have hne (taskId : TaskId) (hpending : ¬db.Ungated taskId) : taskId ≠ task.id := by
    rintro rfl
    obtain ⟨old, hold, -⟩ := (hgated.held hpending).task
    exact nomatch hfree.symm.trans hold
  refine ⟨⟨rfl, hgated.leaves.rows, fun taskId hpending => (hgated.held hpending).of_rows
    (Function.update_of_ne (hne taskId hpending) _ _) fun row hrow hof hactive =>
    ⟨row, hrow, hof, hactive⟩⟩, ?_⟩
  by_contra hpending
  exact hne task.id hpending rfl

theorem Gated.leaves_startOnTask {worker : NewWorker} (hcall : db.startOnTask worker = .ok next)
    (hretry : worker.admitted = true → db.isRetried worker → db.Ungated worker.task.id) :
    LeavesGates db next := by
  refine hgated.rule.startOnTask hcall fun task hstartable => ?_
  have hfree : db.Ungated worker.task.id := hstartable.2.elim
    (hgated.ungated_of_ready hstartable.1) fun hretried => hretry hretried.1 hretried.2.1
  exact ⟨Or.inr hfree, hfree⟩

theorem Gated.leaves_createStartingWorkerDispatch {worker : NewWorker}
    (hretry : db.isFollowUpClaimed worker = false → worker.admitted = true →
      db.isRetried worker → db.Ungated worker.task.id)
    (hcall : db.createStartingWorkerDispatch worker = .ok next) : LeavesGates db next := by
  unfold Database.createStartingWorkerDispatch at hcall
  split_ifs at hcall with hclaimed
  rw [Bool.not_eq_true] at hclaimed
  split at hcall
  · exact hgated.leaves_startOnTask hcall (hretry hclaimed)
  · next task htask =>
    split at hcall
    · next created hcreated =>
      obtain ⟨hleaves, hfree⟩ := hgated.leaves_createTask hcreated
      have hsame (id : TaskId) : created.Ungated id ↔ db.Ungated id := by
        rw [Ungated, Ungated, hleaves.gates]
      have hstarts := hleaves.gated.leaves_startOnTask hcall fun _ _ => by
        rw [hsame, htask]
        exact hfree
      refine ⟨hstarts.gates.trans hleaves.gates, fun row hrow =>
        (hstarts.rows row hrow).imp (fun htaken => ?_) (hsame _).mp, fun taskId hpending =>
        hstarts.held taskId ((hsame taskId).not.mpr hpending)⟩
      obtain ⟨-, rfl⟩ := createTask_eq hcreated
      exact htaken
    · cases hcall

end Leaving

section Resolving

variable {id : GateId} {gate : Gate} {resolution : String}

def resolved (resolution : String) (gate : Gate) : Gate :=
  { gate with status := .resolved, resolution := some resolution }

/-- Nothing keeps the task from being moved to ready: no dispatch of it is active. -/
def mayReady (db : Database) (taskId : TaskId) : Bool :=
  (db.tasks taskId).isNone || (db.activeDispatch? taskId).isNone

/-- What a resolution that is not rolled back does. -/
structure Resolves (db : Database) (id : GateId) (gate : Gate) (resolution : String)
    (next : Database) : Prop where
  mayReady : db.mayReady gate.taskId = true
  gates : next.gates = (db.updateGate id (resolved resolution)).gates
  dispatches : next.dispatches = db.dispatches
  tasks : next.tasks = db.tasks ∨ ∃ task, db.tasks gate.taskId = some task ∧
    task.status ≠ .ready ∧ next.tasks = (db.updateTask gate.taskId (·.moveTo .ready)).tasks

theorem resolves_resolve (hcall : db.resolve gate id resolution = .ok next) :
    Resolves db id gate resolution next := by
  unfold Database.resolve Database.updateTaskStatus at hcall
  rw [updateGate_tasks] at hcall
  cases htask : db.tasks gate.taskId with
  | none =>
    rw [htask] at hcall
    obtain rfl := Except.ok.inj hcall
    exact ⟨by rw [Database.mayReady, htask]; rfl, rfl, rfl, Or.inl rfl⟩
  | some task =>
    rw [htask] at hcall
    simp only [reduceCtorEq, or_self, false_and, if_false, not_false_eq_true, and_true] at hcall
    split_ifs at hcall with hactive hready
    all_goals
      have hnone : db.activeDispatch? gate.taskId = none := Option.not_isSome_iff_eq_none.mp hactive
      have hmay : db.mayReady gate.taskId = true := by
        rw [Database.mayReady, hnone, Option.isNone_none, Bool.or_true]
      obtain rfl := Except.ok.inj hcall
    · exact ⟨hmay, rfl, rfl, Or.inl rfl⟩
    · exact ⟨hmay, rfl, rfl, Or.inr ⟨task, htask, hready, rfl⟩⟩

section

variable (hresolves : Resolves db id gate resolution next)
include hresolves

theorem Resolves.gates_self
    (hgate : db.gates id = some gate) : next.gates id = some (resolved resolution gate) := by
  rw [hresolves.gates, updateGate_gates_self, hgate, Option.map_some]

theorem Resolves.gates_of_ne {other : GateId}
    (hne : other ≠ id) : next.gates other = db.gates other := by
  rw [hresolves.gates, updateGate_gates_of_ne _ hne]

theorem Resolves.held {taskId : TaskId}
    (hheld : db.Held taskId) (hne : taskId ≠ gate.taskId) : next.Held taskId := by
  refine hheld.of_rows ?_ fun row hrow hof hactive =>
    ⟨row, hresolves.dispatches ▸ hrow, hof, hactive⟩
  rcases hresolves.tasks with hsame | ⟨task, -, -, hmoved⟩
  · rw [hsame]
  · rw [hmoved, updateTask_tasks_of_ne _ hne]

end

end Resolving

section Steps

/-- What a call may do where gates are kept. -/
structure KeepsGates (db : Database) (operation : Operation) (next : Database) : Prop where
  /-- A gate that is no longer pending keeps its status and its resolution. -/
  closed : ∀ id gate, db.gates id = some gate → gate.status ≠ .pending → ∃ gate',
    next.gates id = some gate' ∧ gate'.status = gate.status ∧ gate'.resolution = gate.resolution
  /-- Resolving a gate makes a task ready only from where the gate had put it, and never one that
  was finished before. -/
  readied : ∀ id, operation.resolves = some id → ∀ taskId task task',
    db.tasks taskId = some task → next.tasks taskId = some task' → task.status ≠ .ready →
    task'.status = .ready → (∃ gate, db.gates id = some gate ∧ gate.taskId = taskId) ∧
      task.isGatedBy id = true ∧ task.deps.all db.dependencyCompleted = true
  /-- A dispatch is made only for a task without a pending gate. -/
  dispatched : ∀ row ∈ next.dispatches, db.idTaken row.id = false → db.Ungated row.taskId

/-- When a call keeps the gates: a gate is resolved only where `MayResolve` holds or where that
changes nothing, and a worker is started again only on a task without a pending gate. -/
def MayCall (db : Database) : Operation → Prop
  | .resolveGate id resolution => ∀ gate, db.gates id = some gate →
      gate.admitsResolution resolution = true → db.mayReady gate.taskId = true →
      db.MayResolve id gate ∨ db.Repeats gate resolution
  | .resolveGateIfPending id resolution => ∀ gate, db.gates id = some gate →
      gate.admitsResolution resolution = true → gate.status = .pending →
      db.mayReady gate.taskId = true → db.MayResolve id gate
  | .createStartingWorkerDispatch worker => db.isFollowUpClaimed worker = false →
      worker.admitted = true → db.isRetried worker → db.Ungated worker.task.id
  | _ => True

/-- A call that moves a task to ready or to pending by itself. -/
def isExplicitMove : Operation → Bool
  | .updateTaskStatus _ status _ => status = .ready || status = .pending
  | _ => false

theorem KeepsGates.of_leaves {operation : Operation} (hleaves : LeavesGates db next)
    (hresolves : operation.resolves = none) : KeepsGates db operation next where
  closed id gate hgate _ := ⟨gate, by rw [hleaves.gates, hgate], rfl, rfl⟩
  readied id hid := by
    rw [hresolves] at hid
    cases hid
  dispatched row hrow htaken := by
    refine (hleaves.rows row hrow).resolve_left ?_
    rw [htaken]
    exact Bool.false_ne_true

section Resolution

variable {id : GateId} {gate : Gate} {resolution : String} {operation : Operation}

section

variable (hresolves : Resolves db id gate resolution next) (hgated : db.Gated)
  (hgate : db.gates id = some gate)
include hresolves hgated hgate

/-- A resolution of the one gate that keeps its task from starting. -/
theorem Resolves.keeps (hmay : db.MayResolve id gate)
    (hoperation : operation.resolves = some id) : next.Gated ∧ KeepsGates db operation next := by
  refine ⟨fun other gate' hother hpending => ?_, ?_, ?_, ?_⟩
  · rcases eq_or_ne other id with rfl | hne
    · rw [hresolves.gates_self hgate] at hother
      obtain rfl := Option.some_inj.mp hother
      cases hpending
    · rw [hresolves.gates_of_ne hne] at hother
      refine hresolves.held (hgated other gate' hother hpending) fun hsame => hne ?_
      exact hmay.alone other gate' hother hsame hpending
  · intro other gate' hother hclosed
    rcases eq_or_ne other id with rfl | hne
    · obtain rfl := Option.some_inj.mp (hgate.symm.trans hother)
      exact absurd hmay.pending hclosed
    · exact ⟨gate', (hresolves.gates_of_ne hne).trans hother, rfl, rfl⟩
  · intro other hother taskId task task' htask htask' hnot hready
    rw [hoperation] at hother
    obtain rfl := Option.some_inj.mp hother
    rcases hresolves.tasks with hsame | ⟨_, _, _, hmoved⟩
    · rw [hsame, htask] at htask'
      obtain rfl := Option.some_inj.mp htask'
      exact absurd hready hnot
    · rcases eq_or_ne taskId gate.taskId with rfl | hne
      · exact ⟨⟨gate, hgate, rfl⟩, hmay.blocked task htask⟩
      · rw [hmoved, updateTask_tasks_of_ne _ hne, htask] at htask'
        obtain rfl := Option.some_inj.mp htask'
        exact absurd hready hnot
  · intro row hrow htaken
    rw [hresolves.dispatches] at hrow
    rw [idTaken_of_mem hrow] at htaken
    cases htaken

/-- A resolution that was there before, of a task that is still ready. -/
theorem Resolves.repeats (hrepeats : db.Repeats gate resolution) :
    next.Gated ∧ KeepsGates db operation next := by
  have hsame : resolved resolution gate = gate := by
    rw [resolved, ← hrepeats.same, ← hrepeats.resolved]
  have hgates : next.gates = db.gates := by
    funext other
    rcases eq_or_ne other id with rfl | hne
    · rw [hresolves.gates_self hgate, hsame, hgate]
    · exact hresolves.gates_of_ne hne
  have htasks : next.tasks = db.tasks := by
    rcases hresolves.tasks with hsame | ⟨task, htask, hnot, -⟩
    · exact hsame
    · exact absurd (hrepeats.ready task htask) hnot
  refine ⟨fun other gate' hother hpending => ?_, fun other gate' hother _ => ?_, ?_, ?_⟩
  · refine (hgated other gate' (hgates ▸ hother) hpending).of_rows (by rw [htasks]) fun row hrow =>
      fun hof hactive => ⟨row, hresolves.dispatches ▸ hrow, hof, hactive⟩
  · exact ⟨gate', by rw [hgates, hother], rfl, rfl⟩
  · intro _ _ taskId task task' htask htask' hnot hready
    rw [htasks, htask] at htask'
    obtain rfl := Option.some_inj.mp htask'
    exact absurd hready hnot
  · intro row hrow htaken
    rw [hresolves.dispatches] at hrow
    rw [idTaken_of_mem hrow] at htaken
    cases htaken

end

theorem keeps_refl (hgated : db.Gated) : db.Gated ∧ KeepsGates db operation db := by
  refine ⟨hgated, fun id gate hgate _ => ⟨gate, hgate, rfl, rfl⟩, ?_, ?_⟩
  · intro _ _ taskId task task' htask htask' hnot hready
    rw [htask] at htask'
    obtain rfl := Option.some_inj.mp htask'
    exact absurd hready hnot
  · intro row hrow htaken
    rw [idTaken_of_mem hrow] at htaken
    cases htaken

end Resolution

theorem keeps_timeoutGate {id : GateId} (hgated : db.Gated) (hcall : db.timeoutGate id = .ok next) :
    next.Gated ∧ KeepsGates db (.timeoutGate id) next := by
  obtain rfl := Except.ok.inj hcall
  refine ⟨fun other gate hother hpending => ?_, fun other gate hother hclosed => ?_,
    fun _ hid => (by cases hid), fun row hrow htaken => ?_⟩
  · rcases eq_or_ne other id with rfl | hne
    · rw [updateGate_gates_self] at hother
      obtain ⟨old, hold, rfl⟩ := Option.map_eq_some_iff.mp hother
      split_ifs at hpending with hwas
      exact absurd hpending hwas
    · rw [updateGate_gates_of_ne _ hne] at hother
      exact ⟨(hgated other gate hother hpending).task, (hgated other gate hother hpending).inactive⟩
  · refine ⟨gate, ?_, rfl, rfl⟩
    rcases eq_or_ne other id with rfl | hne
    · rw [updateGate_gates_self, hother, Option.map_some, if_neg hclosed]
    · rw [updateGate_gates_of_ne _ hne, hother]
  · rw [idTaken_of_mem (show row ∈ db.dispatches from hrow)] at htaken
    cases htaken

theorem inactive_settleActive (db : Database) (taskId : TaskId) (outcome : WorkerReportOutcome)
    (failure : Option String) :
    ∀ row ∈ (db.settleActiveDispatchesForTask taskId outcome failure).dispatches,
      row.taskId = taskId → row.status.isActive = false := by
  intro row hrow hof
  obtain ⟨old, hold, rfl⟩ := mem_map.mp hrow
  split_ifs at hof ⊢ with hsettles
  · cases outcome <;> rfl
  · rw [Bool.and_eq_true, decide_eq_true_eq, not_and, Bool.not_eq_true] at hsettles
    exact hsettles hof

/-- A new gate holds its task back. -/
theorem keeps_createGate {gate : NewGate} (hgated : db.Gated)
    (hcall : db.createGate gate = .ok next) :
    next.Gated ∧ KeepsGates db (.createGate gate) next := by
  have hheld : ∀ taskId, db.Held taskId → next.Held taskId :=
    fun taskId hheld => hheld.createGate hcall
  unfold Database.createGate at hcall
  split at hcall
  · cases hcall
  · next task htask =>
    dsimp only at hcall
    split_ifs at hcall with _ _ _ hfree
    rw [Bool.not_eq_true, Option.isSome_eq_false_iff, Option.isNone_iff_eq_none] at hfree
    obtain rfl := Except.ok.inj hcall
    have hgates : ∀ other, other ≠ gate.id → Function.update db.gates gate.id (some
        ⟨task.runId, gate.taskId, gate.question, gate.options, .pending, none⟩) other =
          db.gates other := fun other hne => Function.update_of_ne hne _ _
    refine ⟨fun other found hother hpending => ?_, fun other found hother _ => ?_,
      fun _ hid => (by cases hid), fun row hrow htaken => ?_⟩
    · change Function.update db.gates gate.id _ other = some found at hother
      rcases eq_or_ne other gate.id with rfl | hne
      · rw [Function.update_self] at hother
        obtain rfl := Option.some_inj.mp hother
        refine ⟨⟨task.blockFor gate.id, ?_, by rw [task.status_blockFor]; rfl⟩, ?_⟩
        · rw [updateTask_tasks_self]
          change (db.tasks gate.taskId).map _ = _
          rw [htask, Option.map_some]
        · exact inactive_settleActive { db with gates := _ } gate.taskId .succeeded none
      · rw [hgates other hne] at hother
        exact hheld found.taskId (hgated other found hother hpending)
    · refine ⟨found, ?_, rfl, rfl⟩
      have hne : other ≠ gate.id := by
        rintro rfl
        rw [hfree] at hother
        cases hother
      exact (hgates other hne).trans hother
    · obtain ⟨old, hold, rfl⟩ := mem_map.mp hrow
      have htaken' := idTaken_of_mem (show old ∈ db.dispatches from hold)
      split_ifs at htaken
      · rw [htaken'] at htaken
        cases htaken
      · rw [htaken'] at htaken
        cases htaken

section

variable {operation : Operation} (hgated : db.Gated) (hmay : db.MayCall operation)
  (hmoves : isExplicitMove operation = false)
include hgated hmay hmoves

/-- A call keeps every task that waits behind gates. -/
theorem keeps_call (hcall : db.call operation = .ok next) :
    next.Gated ∧ KeepsGates db operation next := by
  have hkeeps (hleaves : LeavesGates db next) (hresolves : operation.resolves = none) :
      next.Gated ∧ KeepsGates db operation next :=
    ⟨hleaves.gated, .of_leaves hleaves hresolves⟩
  cases operation with
  | createTask task => exact hkeeps (hgated.leaves_createTask hcall).1 rfl
  | createGate gate => exact keeps_createGate hgated hcall
  | resolveGate id resolution =>
    change db.resolveGate id resolution = .ok next at hcall
    unfold Database.resolveGate at hcall
    split at hcall
    · obtain rfl := Except.ok.inj hcall
      exact keeps_refl hgated
    · next gate hgate =>
      split_ifs at hcall with hadmits
      rw [Bool.not_eq_true', Bool.not_eq_false] at hadmits
      have hresolves := resolves_resolve hcall
      rcases hmay gate hgate hadmits hresolves.mayReady with hmay | hrepeats
      · exact hresolves.keeps hgated hgate hmay rfl
      · exact hresolves.repeats hgated hgate hrepeats
  | resolveGateIfPending id resolution =>
    change db.resolveGateIfPending id resolution = .ok next at hcall
    unfold Database.resolveGateIfPending at hcall
    split at hcall
    · obtain rfl := Except.ok.inj hcall
      exact keeps_refl hgated
    · next gate hgate =>
      split_ifs at hcall with hadmits hpending
      · rw [Bool.not_eq_true', Bool.not_eq_false] at hadmits
        have hresolves := resolves_resolve hcall
        exact hresolves.keeps hgated hgate (hmay gate hgate hadmits hpending hresolves.mayReady) rfl
      · obtain rfl := Except.ok.inj hcall
        exact keeps_refl hgated
  | timeoutGate id => exact keeps_timeoutGate hgated hcall
  | createDispatchContext dispatch =>
    refine hkeeps (hgated.rule.createDispatchContext hcall fun task htask hready => ?_) rfl
    have hfree := hgated.ungated_of_ready htask hready
    exact ⟨Or.inr hfree, hfree⟩
  | createStartingWorkerDispatch worker =>
    exact hkeeps (hgated.leaves_createStartingWorkerDispatch hmay hcall) rfl
  | markWorkerDispatchReady id => exact hkeeps (hgated.rule.markWorkerDispatchReady hcall) rfl
  | failWorkerStart id reason =>
    exact hkeeps (hgated.rule.failWorkerStart hcall fun _ _ => Or.inl rfl) rfl
  | markWorkerStartUnknown id =>
    exact hkeeps (hgated.rule.markWorkerStartUnknown hcall fun _ _ => Or.inl rfl) rfl
  | settleWorkerReport report =>
    refine hkeeps (hgated.rule.settleWorkerReport hcall fun _ _ _ => Or.inl ?_) rfl
    cases report.outcome <;> rfl
  | updateTaskStatus id status result =>
    rw [isExplicitMove, Bool.or_eq_false_iff, decide_eq_false_iff_not,
      decide_eq_false_iff_not] at hmoves
    refine hkeeps (hgated.rule.updateTaskStatus hcall fun hactive => ?_) rfl
    refine or_iff_not_imp_right.mpr fun hpending => ?_
    -- A task moves to dispatched only while a dispatch of it is active.
    have hnot : status ≠ .dispatched := fun hstatus =>
      hactive hstatus (hgated.held hpending).activeDispatch?
    cases status with
    | blocked | completed | failed => rfl
    | ready => exact absurd rfl hmoves.1
    | pending => exact absurd rfl hmoves.2
    | dispatched => exact absurd rfl hnot

theorem keeps_step : (db.step operation).Gated ∧ KeepsGates db operation (db.step operation) := by
  cases hcall : db.call operation with
  | error =>
    simp only [Database.step, hcall]
    exact keeps_refl hgated
  | ok next =>
    simp only [Database.step, hcall]
    exact keeps_call hgated hmay hmoves hcall

end

/-- Every call of a run finds the gates as `MayCall` asks. -/
def MayRun (db : Database) : List Operation → Prop
  | [] => True
  | operation :: rest => db.MayCall operation ∧ (db.step operation).MayRun rest

theorem gated_runOperations {operations : List Operation} (hgated : db.Gated)
    (hmay : db.MayRun operations) (hmoves : ∀ operation ∈ operations,
      isExplicitMove operation = false) : (db.runOperations operations).Gated := by
  induction operations generalizing db with
  | nil => exact hgated
  | cons operation rest ih =>
    have hstep := keeps_step hgated hmay.1 (hmoves operation mem_cons_self)
    exact ih hstep.1 hmay.2 fun other hother => hmoves other (mem_cons_of_mem _ hother)

theorem mayRun_append {before after : List Operation} (hmay : db.MayRun (before ++ after)) :
    db.MayRun before ∧ (db.runOperations before).MayRun after := by
  induction before generalizing db with
  | nil => exact ⟨trivial, hmay⟩
  | cons operation rest ih =>
    obtain ⟨hrest, hafter⟩ := ih hmay.2
    exact ⟨⟨hmay.1, hrest⟩, hafter⟩

/-- A pending gate holds its task back, and a closed gate stays closed, in every run. -/
theorem pending_gate_holds (runs : List RunId) (before after : List Operation)
    (operation : Operation)
    (hmay : (createDatabase runs).MayRun (before ++ operation :: after))
    (hmoves : ∀ other ∈ before ++ operation :: after, isExplicitMove other = false) :
    ((createDatabase runs).runOperations before).Gated ∧
      KeepsGates ((createDatabase runs).runOperations before) operation
        (((createDatabase runs).runOperations before).step operation) := by
  obtain ⟨hbefore, hrest⟩ := mayRun_append hmay
  have hempty : (createDatabase runs).Gated := fun _ _ hgate => by cases hgate
  have hgated := gated_runOperations hempty hbefore fun other hother =>
    hmoves other (mem_append_left _ hother)
  exact ⟨hgated, (keeps_step hgated hrest.1
    (hmoves operation (mem_append_right _ mem_cons_self))).2⟩

section Samples

def sampleRun : RunId := "run"

def sampleTask (id : TaskId) (deps : List TaskId) : Operation :=
  .createTask ⟨id, sampleRun, none, deps⟩

def sampleGate (id : GateId) (taskId : TaskId) : Operation :=
  .createGate ⟨id, taskId, "Go on?", [], none⟩

def sampleOutcome (operations : List Operation) (taskId : TaskId) (id : GateId) :
    Option TaskStatus × Option (GateStatus × Option String) :=
  let db := (createDatabase [sampleRun]).runOperations operations
  ((db.tasks taskId).map (·.status), (db.gates id).map fun gate => (gate.status, gate.resolution))

/-- One of two gates readies the task; a late resolution reopens a completed task whose
dependency is open; a gate is resolved again; a worker is retried on a gated task; a resolution
lifts a block that no gate put. -/
theorem pending_gate_lets_through :
    sampleOutcome [sampleTask "t" [], sampleGate "g" "t", sampleGate "h" "t",
        .resolveGateIfPending "h" "yes"] "t" "g" = (some .ready, some (.pending, none)) ∧
    sampleOutcome [sampleTask "d" [], sampleTask "t" ["d"], sampleGate "g" "t",
        .updateTaskStatus "t" .completed none, .resolveGate "g" "yes"] "t" "g" =
      (some .ready, some (.resolved, some "yes")) ∧
    sampleOutcome [sampleTask "t" [], sampleGate "g" "t", .resolveGate "g" "yes",
        .updateTaskStatus "t" .completed none, .resolveGate "g" "no"] "t" "g" =
      (some .ready, some (.resolved, some "no")) ∧
    sampleOutcome [sampleTask "t" [],
        .createDispatchContext ⟨"c", "t", "worker", none, false, true⟩,
        .settleWorkerReport ⟨"t", "c", .failed, "stuck"⟩, sampleGate "g" "t",
        .createStartingWorkerDispatch ⟨"e", .existing "t", some "c", none, true⟩] "t" "g" =
      (some .dispatched, some (.pending, none)) ∧
    sampleOutcome [sampleTask "t" [], .updateTaskStatus "t" .blocked none, sampleGate "g" "t",
        .resolveGate "g" "yes"] "t" "g" = (some .ready, some (.resolved, some "yes")) := by
  refine ⟨?_, ?_, ?_, ?_, ?_⟩ <;> decide

theorem pending_gate_holds_sample :
    let db := (createDatabase [sampleRun]).runOperations [sampleTask "t" [], sampleGate "g" "t"]
    db.Gated ∧ KeepsGates db (.resolveGate "g" "yes") (db.step (.resolveGate "g" "yes")) := by
  refine pending_gate_holds [sampleRun] [sampleTask "t" [], sampleGate "g" "t"] []
    (.resolveGate "g" "yes") ⟨trivial, trivial, ?_, trivial⟩ (by decide)
  intro gate hgate _ _
  obtain rfl : (⟨sampleRun, "t", "Go on?", [], .pending, none⟩ : Gate) = gate :=
    Option.some_inj.mp hgate
  refine Or.inl ⟨rfl, fun task htask => ?_, fun other gate' hother _ _ => ?_⟩
  · obtain rfl : Task.blockFor ⟨sampleRun, none, [], .ready, none, [], none⟩ "g" = task :=
      Option.some_inj.mp htask
    exact ⟨by decide, rfl⟩
  · by_contra hne
    have hnone : Function.update (fun _ : GateId => (none : Option Gate)) "g" (some
        ⟨sampleRun, "t", "Go on?", [], .pending, none⟩) other = none :=
      Function.update_of_ne hne _ _
    exact absurd (hother.symm.trans hnone) nofun

end Samples

end Steps

end Database

end Wakii.Orchestration
