import Mathlib.Data.List.Basic

/-!
# The states of a worker

A worker's dispatch state is read by both ends of the relay and by the lifecycle
of its task.
-/

namespace Wakii.Orchestration

inductive WorkerDispatchState
  | starting
  | ready
  | startUnknown
  | failed
  | succeeded
  | stopping
  | stopUnknown
  | stopped
  | abandoned
  deriving DecidableEq

inductive WorkerReportOutcome
  | succeeded
  | failed
  deriving DecidableEq

def WorkerReportOutcome.workerState : WorkerReportOutcome → WorkerDispatchState
  | .succeeded => .succeeded
  | .failed => .failed

/-- Unknown start or stop cannot prove exit. -/
def UNPROVEN_WORKER_STATES : List WorkerDispatchState := [.startUnknown, .stopUnknown]

def SETTLEABLE_WORKER_STATES : List WorkerDispatchState := .ready :: UNPROVEN_WORKER_STATES

def isWorkerStateIn (states : List WorkerDispatchState) : Option WorkerDispatchState → Bool
  | none => false
  | some state => states.contains state

/-- The refusals of a report at the run home. -/
inductive ReportRejectionCode
  | unknownTask
  | unknownDispatch
  | taskDispatchMismatch
  | inactiveDispatch
  | staleDispatch
  | invalidPayload
  deriving DecidableEq

inductive WorkerReportSettlement
  | settled (outcome : WorkerReportOutcome) (duplicate : Bool)
  | rejected (code : ReportRejectionCode) (reason : String)
  deriving DecidableEq

inductive MessageType
  | status
  | dispatch
  | workerDone
  | mergeReady
  | escalation
  | handoff
  | decisionGate
  | question
  | heartbeat
  deriving DecidableEq

end Wakii.Orchestration
