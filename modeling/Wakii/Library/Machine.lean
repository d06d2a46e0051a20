import Mathlib.Data.List.Basic

/-!
# Runs of a deterministic machine

A machine answers each instruction with an output and a next state.  A run may
be cut into segments, each closed by a report of what changed in it; replaying
the reports onto a second state then follows the run from the outside.
-/

namespace Machine

variable {S T I O C : Type*}

def run (step : S → I → S × O) : S → List I → S × List O
  | state, [] => (state, [])
  | state, instruction :: rest =>
    let (next, output) := step state instruction
    let (last, outputs) := run step next rest
    (last, output :: outputs)

def runSegments (step : S → I → S × O) (close : S → S × C) :
    S → List (List I) → S × List (List O) × List C
  | state, [] => (state, [], [])
  | state, segment :: rest =>
    let (ran, outputs) := run step state segment
    let (closed, report) := close ran
    let (last, allOutputs, reports) := runSegments step close closed rest
    (last, outputs :: allOutputs, report :: reports)

def runPlainSegments (step : T → I → T × O) : T → List (List I) → T × List (List O)
  | state, [] => (state, [])
  | state, segment :: rest =>
    let (ran, outputs) := run step state segment
    let (last, allOutputs) := runPlainSegments step ran rest
    (last, outputs :: allOutputs)

section Simulation

variable (step : S → I → S × O) (plain : T → I → T × O)

/-- Two machines whose related states answer alike and stay related give the
same outputs over every run. -/
theorem run_simulates (related : S → T → Prop)
    (hstep : ∀ state model instruction, related state model →
      (step state instruction).2 = (plain model instruction).2 ∧
        related (step state instruction).1 (plain model instruction).1)
    (instructions : List I) {state : S} {model : T}
    (hrelated : related state model) :
    (run step state instructions).2 = (run plain model instructions).2 ∧
      related (run step state instructions).1
        (run plain model instructions).1 := by
  induction instructions generalizing state model with
  | nil => exact ⟨rfl, hrelated⟩
  | cons instruction rest ih =>
    obtain ⟨houtput, hnext⟩ := hstep state model instruction hrelated
    obtain ⟨houtputs, hlast⟩ := ih hnext
    refine ⟨?_, hlast⟩
    simp only [run]
    rw [houtput, houtputs]

variable (close : S → S × C) (apply : T → C → T)

/-- A run cut into segments: the outputs agree, and the reports replayed onto
the model's first state reach its last one. -/
theorem runSegments_simulates (related : S → T → T → Prop)
    (hstep : ∀ state model mark instruction, related state model mark →
      (step state instruction).2 = (plain model instruction).2 ∧
        related (step state instruction).1 (plain model instruction).1 mark)
    (hclose : ∀ state model mark, related state model mark →
      apply mark (close state).2 = model ∧ related (close state).1 model model)
    (segments : List (List I)) {state : S} {model : T}
    (hrelated : related state model model) :
    let ran := runSegments step close state segments
    let last := runPlainSegments plain model segments
    ran.2.1 = last.2 ∧ ran.2.2.foldl apply model = last.1 ∧ related ran.1 last.1 last.1 := by
  induction segments generalizing state model with
  | nil => exact ⟨rfl, rfl, hrelated⟩
  | cons segment rest ih =>
    obtain ⟨houtputs, hran⟩ := run_simulates step plain (fun state next => related state next model)
        (fun state next instruction => hstep state next model instruction)
        segment hrelated
    obtain ⟨hreport, hclosed⟩ := hclose _ _ _ hran
    obtain ⟨hrest, hreplayed, hlast⟩ := ih hclosed
    refine ⟨?_, ?_, hlast⟩
    · simp only [runSegments, runPlainSegments]
      rw [houtputs, hrest]
    · simp only [runSegments, runPlainSegments, List.foldl_cons]
      rw [hreport, hreplayed]

end Simulation

end Machine
