import Wakii.Mutations.MutationStory

/-!
# Steps of the executor

A slot is idle, with the story of the runs that are over, or busy with one run
that began where the story stopped.  Every step keeps that.
-/

namespace Wakii.Mutations

open List

variable {N : Type} (environment : Environment N) (requestId : Text)

section Decisions

variable (slot : Slot N) (request : Request N)

inductive Decided : Decision N → Prop
  | refused (code : ErrorCode) : Decided (.refuse code)
  | joined {active : ℕ} (hinFlight : slot.inFlight = some active) : Decided (.join active)
  | answered {row : MutationReceiptRow} (hrow : slot.row = some row)
      (hinFlight : slot.inFlight = none) (hcompleted : row.state = .completed) {receipt : Json N}
      (hreceipt : receipt = parseReceipt environment row ∨
        receipt = markReplayedPromptIncarnationReplaced (parseReceipt environment row)) :
      Decided (.answer (attachMutationReceipt receipt requestId true))
  | observed {row : MutationReceiptRow} (hrow : slot.row = some row)
      (hinFlight : slot.inFlight = none) (hcompleted : row.state = .completed)
      (hmethod : row.method = request.method) :
      Decided (.observe row.payloadHash (parseReceipt environment row))
  | resumed {row : MutationReceiptRow} (hrow : slot.row = some row)
      (hinFlight : slot.inFlight = none) (hpending : row.state = .pending)
      (hmethod : row.method = request.method)
      (hway : request.method = "orchestration.workerRelease" ∨
        environment.isResumablePendingWorkerDone request.method request.params row.receipt = true) :
      Decided (.resume row)
  | started {payloadHash : Text} (hrow : slot.row = none)
      (hinFlight : isAtomicWorkerAcceptance request.method = true → slot.inFlight = none) :
      Decided (.start payloadHash)

variable {environment requestId slot request}

theorem decided_row {row : MutationReceiptRow} (hrow : slot.row = some row)
    (hmethod : row.method = request.method) (promptBindingChanged : Bool) :
    Decided environment requestId slot request (slot.decideRow environment request requestId row
      row.payloadHash promptBindingChanged) := by
  unfold Slot.decideRow
  split
  case h_1 active hactive => exact .joined hactive
  case h_2 hcompleted hinFlight =>
    dsimp only
    split_ifs
    · exact .answered hrow hinFlight hcompleted (Or.inr rfl)
    · exact .answered hrow hinFlight hcompleted (Or.inl rfl)
    · exact .observed hrow hinFlight hcompleted hmethod
  case h_3 hpending hinFlight =>
    split_ifs with _ hway
    · exact .refused _
    · exact .resumed hrow hinFlight hpending hmethod hway
    · exact .refused _

theorem decided : Decided environment requestId slot request
    (slot.decide environment request requestId) := by
  unfold Slot.decide
  dsimp only
  split
  case h_1 => exact .refused _
  case h_2 payloadHash promptBindingChanged _ =>
    split
    case h_1 active hactive =>
      split_ifs
      · rw [ite_eq_iff] at hactive
        exact .joined (hactive.resolve_right fun hnone => (by cases hnone.2)).2
      · exact .refused _
    case h_2 hactive =>
      have hinFlight : isAtomicWorkerAcceptance request.method = true → slot.inFlight = none := by
        intro hatomic
        rwa [if_pos hatomic] at hactive
      split
      case h_1 hrow => exact .started hrow hinFlight
      case h_2 row hrow =>
        split_ifs with hmismatch
        · exact .refused _
        · rw [not_or, not_not, not_not] at hmismatch
          rw [← hmismatch.2]
          exact decided_row hrow hmismatch.1 promptBindingChanged

theorem decide_of_inFlight {active : ℕ} (hactive : slot.inFlight = some active)
    (hstarting : slot.row = none → isAtomicWorkerAcceptance request.method = true) :
    (∃ code, slot.decide environment request requestId = .refuse code) ∨
      slot.decide environment request requestId = .join active := by
  have hdecided := @decided N environment requestId slot request
  generalize slot.decide environment request requestId = decision at hdecided
  cases hdecided with
  | refused code => exact Or.inl ⟨code, rfl⟩
  | joined hinFlight =>
      exact Or.inr (congrArg _ (Option.some_inj.mp (hinFlight.symm.trans hactive)))
  | answered _ hinFlight | observed _ hinFlight | resumed _ hinFlight =>
    rw [hactive] at hinFlight
    cases hinFlight
  | started hrow hinFlight =>
    have hnone := hinFlight (hstarting hrow)
    rw [hactive] at hnone
    cases hnone

end Decisions

section Stories

variable {environment requestId} {runs past : List (Invocation N)} {run : Invocation N}
  {row found : Option MutationReceiptRow}

theorem Produced.mono {more : List (Invocation N)} {value : Value N}
    (hproduced : Produced runs value)
    (hsubset : runs ⊆ more) : Produced more value :=
  let ⟨run, hrun, hvalue⟩ := hproduced
  ⟨run, hsubset hrun, hvalue⟩

theorem IsReceipt.mono {more : List (Invocation N)} {receipt : Json N}
    (hreceipt : IsReceipt requestId runs receipt) (hsubset : runs ⊆ more) :
    IsReceipt requestId more receipt :=
  let ⟨value, replayed, hproduced, hattached⟩ := hreceipt
  ⟨value, replayed, hproduced.mono hsubset, hattached⟩

theorem parseReceipt_eq {row : MutationReceiptRow} {receipt : Json N}
    (hreceipt : IsReceipt requestId runs receipt)
    (hrow : row.receipt = some (Json.stringify environment.format receipt)) :
    parseReceipt environment row = receipt := by
  obtain ⟨value, replayed, -, rfl⟩ := hreceipt
  rw [parseReceipt, hrow, Option.bind_some,
    Json.parse_stringify environment.format (isProper_attach value.proper requestId replayed)]
  rfl

theorem Story.parseReceipt {row : MutationReceiptRow}
    (hstory : Story environment requestId runs (some row)) (hcompleted : row.state = .completed) :
    IsReceipt requestId runs (parseReceipt environment row) := by
  obtain ⟨receipt, hreceipt, hrow⟩ := hstory.accounts.receipt row rfl hcompleted
  rwa [parseReceipt_eq hreceipt hrow]

theorem Left.stopped {left : Option MutationReceiptRow} (hleft : Left run row left) :
    run.fate ≠ .open := by
  cases hleft with
  | stays hfate => rcases hfate with hfate | hfate | hfate <;> rw [hfate] <;> rintro ⟨⟩
  | discarded hfate =>
    rw [hfate]
    rintro ⟨⟩

theorem Story.stopped (hstory : Story environment requestId runs row) :
    ∀ run ∈ runs, run.fate ≠ .open := by
  induction hstory with
  | nil => exact fun _ hrun => (by cases hrun)
  | snoc _ _ _ hleft ih =>
    intro run hrun
    rcases mem_append.mp hrun with hrun | hrun
    · exact ih run hrun
    · rw [mem_singleton.mp hrun]
      exact hleft.stopped

theorem Story.begun (hstory : Story environment requestId runs row) :
    ∀ before run after, runs = before ++ run :: after → ∃ found,
      Story environment requestId before found ∧
        Begun environment requestId before found run.toLaunch := by
  induction hstory with
  | nil => exact fun before run after hsplit => by simp at hsplit
  | snoc hpast hbegun _ _ ih =>
    intro before run after hsplit
    rcases split_concat hsplit with ⟨-, rfl, rfl⟩ | ⟨rest, -, hrest⟩
    · exact ⟨_, hpast, hbegun⟩
    · exact ih before run rest hrest

end Stories

section Slots

variable {environment requestId} {slot : Slot N} {past : List (Invocation N)}
  {run : Invocation N} {found : Option MutationReceiptRow}

structure Busy (environment : Environment N) (requestId : Text) (slot : Slot N)
    (past : List (Invocation N)) (run : Invocation N) (found : Option MutationReceiptRow) :
    Prop where
  invocations : slot.invocations = past ++ [run]
  inFlight : slot.inFlight = some past.length
  running : run.fate = .open
  story : Story environment requestId past found
  begun : Begun environment requestId past found run.toLaunch
  reached : Reached environment requestId past run slot.row
  returned : ∀ result, run.outcome = some (.returned result) → run.isObservation = false →
    run.isAtomic = true → run.accepted = true

inductive Told (environment : Environment N) (requestId : Text) (slot : Slot N) : Prop
  | idle (hinFlight : slot.inFlight = none)
      (hstory : Story environment requestId slot.invocations slot.row)
  | busy {past : List (Invocation N)} {run : Invocation N} {found : Option MutationReceiptRow}
      (hbusy : Busy environment requestId slot past run found)

@[simp]
theorem modify_concat {α : Type} (items : List α) (item : α) (f : α → α) :
    (items ++ [item]).modify items.length f = items ++ [f item] := by
  rw [modify_eq_set_getElem?]
  simp

theorem Told.running {id : ℕ} {invocation : Invocation N} (htold : Told environment requestId slot)
    (hfound : slot.invocations[id]? = some invocation) (hopen : invocation.fate = .open) :
    ∃ past found, Busy environment requestId slot past invocation found ∧ id = past.length := by
  cases htold with
  | idle _ hstory => exact absurd hopen (hstory.stopped _ (mem_of_getElem? hfound))
  | @busy past run found hbusy =>
    rw [hbusy.invocations] at hfound
    rcases Nat.lt_trichotomy id past.length with hlt | rfl | hgt
    · rw [getElem?_append_left hlt] at hfound
      exact absurd hopen (hbusy.story.stopped _ (mem_of_getElem? hfound))
    · rw [getElem?_concat_length] at hfound
      obtain rfl := Option.some_inj.mp hfound
      exact ⟨past, found, hbusy, rfl⟩
    · rw [getElem?_eq_none (by simpa using Nat.succ_le_of_lt hgt)] at hfound
      cases hfound

def Launch.begin (launch : Launch N) : Invocation N :=
  { launch with
    effectPossible := false, outcome := none, fate := .open, accepted := false, results := [] }

theorem Reached.of_launch {launch : Launch N} {row : Option MutationReceiptRow}
    (hmissing : row = none → launch.replayedReceipt = none ∧ launch.foundPending = none ∧
      isAtomicWorkerAcceptance launch.method = true)
    (hof : ∀ found ∈ row, found.method = launch.method ∧ found.payloadHash = launch.payloadHash)
    (hstate : ∀ found ∈ row, found.state = .completed ↔ launch.replayedReceipt.isSome = true)
    (haccepted : ∀ found ∈ row, launch.replayedReceipt = none →
      isAtomicWorkerAcceptance launch.method = false)
    (hreceipt : ∀ found ∈ row, found.state = .completed → ∃ receipt,
      IsReceipt requestId past receipt ∧
        found.receipt = some (Json.stringify environment.format receipt)) :
    Reached environment requestId past launch.begin row := by
  refine ⟨fun hrow => ?_, fun found hfound => isOf_iff.mpr (hof found hfound),
    fun found hfound hobserves => (hstate found hfound).mpr hobserves,
    fun found hfound hobserves => ?_, fun found hfound hobserves hatomic => ?_,
    fun found hfound hcompleted => ?_⟩
  · obtain ⟨hobserves, hfound, hatomic⟩ := hmissing hrow
    exact ⟨congrArg Option.isSome hobserves, hfound, hatomic, rfl, rfl⟩
  · refine iff_of_false (fun hcompleted => ?_) fun hne => hne rfl
    exact Bool.false_ne_true (hobserves.symm.trans ((hstate found hfound).mp hcompleted))
  · have hnone := haccepted found hfound (Option.isSome_eq_false_iff.mp hobserves |>
      Option.isNone_iff_eq_none.mp)
    exact absurd (hnone.symm.trans hatomic) Bool.false_ne_true
  · obtain ⟨receipt, hof, htext⟩ := hreceipt found hfound hcompleted
    exact ⟨receipt, hof.mono (subset_append_left _ _), htext⟩

theorem Busy.of_launch {launch : Launch N}
    (hstory : Story environment requestId slot.invocations found)
    (hbegun : Begun environment requestId slot.invocations found launch)
    (hreached : Reached environment requestId slot.invocations launch.begin slot.row) :
    Busy environment requestId (slot.launch launch) slot.invocations launch.begin found :=
  ⟨rfl, rfl, rfl, hstory, hbegun, hreached, fun _ houtcome => (by cases houtcome)⟩

section

variable {f : Invocation N → Invocation N} (hbusy : Busy environment requestId slot past run found)
  (hlaunch : (f run).toLaunch = run.toLaunch)
include hbusy hlaunch

theorem Busy.advance {row : Option MutationReceiptRow} (hrunning : (f run).fate = .open)
    (hreached : Reached environment requestId past (f run) row)
    (hreturned : ∀ result, (f run).outcome = some (.returned result) →
      (f run).isObservation = false → (f run).isAtomic = true → (f run).accepted = true) :
    Busy environment requestId ({ slot with row := row }.change past.length f) past (f run)
      found where
  invocations := by
    change slot.invocations.modify past.length f = _
    rw [hbusy.invocations, modify_concat]
  inFlight := hbusy.inFlight
  running := hrunning
  story := hbusy.story
  begun := by
    rw [hlaunch]
    exact hbusy.begun
  reached := hreached
  returned := hreturned

theorem Busy.leave {row left : Option MutationReceiptRow} {fate : Fate}
    (hreached : Reached environment requestId past { f run with fate } row)
    (hleft : Left { f run with fate } row left) :
    Story environment requestId (past ++ [{ f run with fate }]) left := by
  refine .snoc hbusy.story ?_ hreached hleft
  change Begun environment requestId past found (f run).toLaunch
  rw [hlaunch]
  exact hbusy.begun

end

end Slots

end Wakii.Mutations
