import Wakii.Mutations.MutationExecutor

/-!
# The story of a request

The runs made for one caller and request id follow each other.  Each begins on
the row as the one before it left it, and brings the row to where the next one,
or an answer, finds it.
-/

namespace Wakii.Mutations

open List

variable {N : Type} (environment : Environment N) (requestId : Text)

def Produced (runs : List (Invocation N)) (value : Value N) : Prop :=
  ∃ run ∈ runs, value ∈ run.results

def IsReceipt (runs : List (Invocation N)) (receipt : Json N) : Prop :=
  ∃ value replayed, Produced runs value ∧
    receipt = attachMutationReceipt value.json requestId replayed

inductive Begun (past : List (Invocation N)) : Option MutationReceiptRow → Launch N → Prop
  | started {launch : Launch N} (hobserves : launch.replayedReceipt = none)
      (hfound : launch.foundPending = none) : Begun past none launch
  | resumed {row : MutationReceiptRow} {launch : Launch N} (hpending : row.state = .pending)
      (hobserves : launch.replayedReceipt = none) (hfound : launch.foundPending = some row)
      (hmethod : row.method = launch.method)
      (hway : launch.method = "orchestration.workerRelease" ∨
        environment.isResumablePendingWorkerDone launch.method launch.params row.receipt = true) :
      Begun past (some row) launch
  | observed {row : MutationReceiptRow} {launch : Launch N} (hcompleted : row.state = .completed)
      {receipt : Json N} (hobserves : launch.replayedReceipt = some receipt)
      (hreceipt : IsReceipt requestId past receipt) (hfound : launch.foundPending = none)
      (hmethod : row.method = launch.method) (hhash : row.payloadHash = launch.payloadHash) :
      Begun past (some row) launch

/-- Where a run has brought the row. -/
structure Reached (past : List (Invocation N)) (run : Invocation N)
    (row : Option MutationReceiptRow) : Prop where
  missing : row = none → run.isObservation = false ∧ run.foundPending = none ∧
    run.isAtomic = true ∧ run.accepted = false ∧ run.results = []
  isOf : ∀ found ∈ row, found.isOf run = true
  observing : ∀ found ∈ row, run.isObservation = true → found.state = .completed
  settled : ∀ found ∈ row, run.isObservation = false → (found.state = .completed ↔ run.results ≠ [])
  accepted : ∀ found ∈ row, run.isObservation = false → run.isAtomic = true → run.accepted = true
  receipt : ∀ found ∈ row, found.state = .completed → ∃ receipt,
    IsReceipt requestId (past ++ [run]) receipt ∧
      found.receipt = some (Json.stringify environment.format receipt)

inductive Left (run : Invocation N) (row : Option MutationReceiptRow) :
    Option MutationReceiptRow → Prop
  | stays (hfate : run.fate = .completed ∨ run.fate = .kept ∨ run.fate = .lost)
      (hcompleted : run.fate = .completed → run.isObservation = true ∨ run.results ≠ []) :
      Left run row row
  | discarded (hfate : run.fate = .discarded) (hruns : run.isObservation = false)
      (hresults : run.results = []) (heffect : ¬(run.isPrompt = true ∧ run.effectPossible = true)) :
      Left run row none

/-- The runs that are over, and the row as they left it. -/
inductive Story : List (Invocation N) → Option MutationReceiptRow → Prop
  | nil : Story [] none
  | snoc {past : List (Invocation N)} {run : Invocation N}
    {found row left : Option MutationReceiptRow}
      (hpast : Story past found) (hbegun : Begun environment requestId past found run.toLaunch)
      (hreached : Reached environment requestId past run row) (hleft : Left run row left) :
      Story (past ++ [run]) left

section Story

variable {environment requestId} {runs : List (Invocation N)} {row : Option MutationReceiptRow}

structure Spent (after : List (Invocation N)) (run : Invocation N) : Prop where
  stopped : run.fate ≠ .open
  noResult : run.results = []
  noEffect : ¬(run.isPrompt = true ∧ run.effectPossible = true)
  /-- It failed and its row went, or it never had one, or a later run took its row up. -/
  ended : run.fate = .discarded ∨ (run.fate = .lost ∨ run.fate = .kept) ∧
    ((run.isAtomic = true ∧ run.accepted = false) ∨
      ∃ heir ∈ after, heir.isObservation = false ∧ heir.isResumed = true)

variable {run : Invocation N}

theorem Spent.mono {after more : List (Invocation N)} (hspent : Spent after run) :
    Spent (after ++ more) run := by
  refine ⟨hspent.stopped, hspent.noResult, hspent.noEffect, ?_⟩
  refine hspent.ended.imp id fun hlost => ⟨hlost.1, hlost.2.imp id ?_⟩
  rintro ⟨heir, hheir, hresumed⟩
  exact ⟨heir, mem_append_left _ hheir, hresumed⟩

/-- The last run of the body, with the row it has to do with. -/
structure Standing (after : List (Invocation N)) (run : Invocation N)
    (row : MutationReceiptRow) : Prop where
  last : ∀ later ∈ after, later.isObservation = true
  isOf : row.isOf run = true
  settled : row.state = .completed ↔ run.results ≠ []
  stopped : run.fate = .lost ∨ run.fate = .kept ∨ run.fate = .completed
  completed : run.fate = .completed → run.results ≠ []

/-- What a row says about the runs of the body before it. -/
structure Accounts (runs : List (Invocation N)) (row : Option MutationReceiptRow) : Prop where
  missing : row = none → ∀ before run after, runs = before ++ run :: after →
    run.isObservation = false → Spent after run
  present : ∀ found ∈ row, ∀ before run after, runs = before ++ run :: after →
    run.isObservation = false → Spent after run ∨ Standing after run found
  /-- A run of the body that another one follows was spent by then. -/
  followed : ∀ before run middle later rest, runs = before ++ run :: (middle ++ later :: rest) →
    run.isObservation = false → later.isObservation = false → Spent (middle ++ [later]) run
  effective : ∀ found ∈ row, found.state = .completed → ∃ run ∈ runs,
    run.isObservation = false ∧ run.results ≠ []
  receipt : ∀ found ∈ row, found.state = .completed → ∃ receipt, IsReceipt requestId runs receipt ∧
      found.receipt = some (Json.stringify environment.format receipt)

variable {past before after : List (Invocation N)}

theorem split_concat {run other : Invocation N}
    (hsplit : past ++ [run] = before ++ other :: after) :
    (after = [] ∧ other = run ∧ past = before) ∨
      ∃ rest, after = rest ++ [run] ∧ past = before ++ other :: rest := by
  rcases eq_nil_or_concat after with rfl | ⟨rest, last, rfl⟩
  · obtain ⟨hpast, hrun⟩ := append_inj' hsplit rfl
    obtain rfl := singleton_inj.mp hrun
    exact Or.inl ⟨rfl, rfl, hpast⟩
  · rw [concat_eq_append] at *
    have hassoc : past ++ [run] = (before ++ other :: rest) ++ [last] := by
      rw [hsplit]
      simp
    obtain ⟨hpast, hrun⟩ := append_inj' hassoc rfl
    obtain rfl := singleton_inj.mp hrun
    exact Or.inr ⟨rest, rfl, hpast⟩

theorem not_atomic_of_prompt {method : String} {params : Json N}
    (hprompt : isTerminalPromptMutation method params = true) :
    method = "terminal.send" ∧ isAtomicWorkerAcceptance method = false := by
  simp only [isTerminalPromptMutation, Bool.and_eq_true, decide_eq_true_eq] at hprompt
  obtain rfl := hprompt.1.1.1.1.1
  exact ⟨rfl, by decide⟩

theorem isOf_iff {row : MutationReceiptRow} :
    row.isOf run = true ↔ row.method = run.method ∧ row.payloadHash = run.payloadHash := by
  simp [MutationReceiptRow.isOf]

theorem Standing.spent {after : List (Invocation N)} {run heir : Invocation N}
    {row : MutationReceiptRow} (hstanding : Standing after run row)
      (hpending : row.state = .pending)
    (hobserves : heir.replayedReceipt = none) (hfound : heir.foundPending = some row)
    (hmethod : row.method = heir.method)
    (hway : heir.method = "orchestration.workerRelease" ∨
      environment.isResumablePendingWorkerDone heir.method heir.params row.receipt = true) :
    Spent (after ++ [heir]) run := by
  have hresults : run.results = [] := by
    by_contra hne
    have hcompleted := hstanding.settled.mpr hne
    rw [hpending] at hcompleted
    cases hcompleted
  have hfate : run.fate = .lost ∨ run.fate = .kept := by
    rcases hstanding.stopped with hlost | hkept | hcompleted
    · exact Or.inl hlost
    · exact Or.inr hkept
    · exact absurd hresults (hstanding.completed hcompleted)
  refine ⟨?_, hresults, fun hprompt => ?_, Or.inr ⟨hfate, Or.inr ⟨heir, ?_, ?_, ?_⟩⟩⟩
  · rcases hfate with hfate | hfate <;> rw [hfate] <;> rintro ⟨⟩
  · have hsend := (not_atomic_of_prompt hprompt.1).1
    rw [← (isOf_iff.mp hstanding.isOf).1, hmethod] at hsend
    rw [hsend] at hway
    rcases hway with hway | hway
    · exact absurd hway (by decide)
    · simp [Environment.isResumablePendingWorkerDone, isWorkerDoneSend] at hway
  · exact mem_append_right _ (mem_singleton_self heir)
  · rw [Invocation.isObservation, hobserves]
    rfl
  · rw [Invocation.isResumed, hfound]
    rfl

variable {past : List (Invocation N)}

theorem spent_of_left
    (hreached : Reached environment requestId past run row) (hleft : Left run row none)
    (hruns : run.isObservation = false) : Spent [] run := by
  cases hleft with
  | stays hfate hcompleted =>
    obtain ⟨-, -, hatomic, haccepted, hresults⟩ := hreached.missing rfl
    refine ⟨?_, hresults, fun hprompt => ?_, Or.inr ⟨?_, Or.inl ⟨hatomic, haccepted⟩⟩⟩
    · rcases hfate with hfate | hfate | hfate <;> rw [hfate] <;> rintro ⟨⟩
    · have hnot := (not_atomic_of_prompt hprompt.1).2
      rw [Invocation.isAtomic, hnot] at hatomic
      cases hatomic
    · rcases hfate with hfate | hfate | hfate
      · rcases hcompleted hfate with hobserves | hne
        · rw [hruns] at hobserves
          cases hobserves
        · exact absurd hresults hne
      · exact Or.inr hfate
      · exact Or.inl hfate
  | discarded hfate _ hresults heffect =>
    refine ⟨?_, hresults, heffect, Or.inl hfate⟩
    rw [hfate]
    rintro ⟨⟩

variable {found : Option MutationReceiptRow}

theorem Accounts.earlier {run other : Invocation N}
    (hpast : @Accounts N environment requestId past found)
    (hbegun : Begun environment requestId past found run.toLaunch)
    (hsplit : past = before ++ other :: after) (hruns : other.isObservation = false) :
    Spent (after ++ [run]) other ∨
      ∃ row ∈ found, row.state = .completed ∧ run.isObservation = true ∧ Standing after other row ∧
        row.method = run.method ∧ row.payloadHash = run.payloadHash := by
  cases hbegun with
  | started => exact Or.inl (hpast.missing rfl before other after hsplit hruns).mono
  | @resumed row _ hpending hobserves hfound hmethod hway =>
    left
    rcases hpast.present row rfl before other after hsplit hruns with hspent | hstanding
    · exact hspent.mono
    · exact hstanding.spent hpending hobserves hfound hmethod hway
  | @observed row _ hcompleted receipt hobserves _ _ hmethod hhash =>
    rcases hpast.present row rfl before other after hsplit hruns with hspent | hstanding
    · exact Or.inl hspent.mono
    · refine Or.inr ⟨row, rfl, hcompleted, ?_, hstanding, hmethod, hhash⟩
      rw [Invocation.isObservation, hobserves]
      rfl

theorem Accounts.followed_concat (hpast : @Accounts N environment requestId past found)
    (hbegun : Begun environment requestId past found run.toLaunch) :
    ∀ before other middle later rest, past ++ [run] = before ++ other :: (middle ++ later :: rest) →
      other.isObservation = false → later.isObservation = false →
      Spent (middle ++ [later]) other := by
  intro before other middle later rest hsplit hruns hlater
  rcases split_concat hsplit with ⟨hnil, -⟩ | ⟨tail, htail, hrest⟩
  · exact absurd hnil (by simp)
  · rcases split_concat htail.symm with ⟨rfl, rfl, rfl⟩ | ⟨tail, rfl, rfl⟩
    · refine (hpast.earlier hbegun hrest hruns).resolve_right ?_
      rintro ⟨_, -, -, hobserves, -⟩
      rw [hlater] at hobserves
      cases hobserves
    · exact hpast.followed before other middle later tail hrest hruns hlater

/-- A call that ended joins the account of its request. -/
theorem Accounts.snoc
    {found left : Option MutationReceiptRow} (hpast : @Accounts N environment requestId past found)
    (hbegun : Begun environment requestId past found run.toLaunch)
    (hreached : Reached environment requestId past run row) (hleft : Left run row left) :
    @Accounts N environment requestId (past ++ [run]) left where
  missing := by
    rintro rfl before other after hsplit hruns
    rcases split_concat hsplit with ⟨rfl, rfl, -⟩ | ⟨rest, rfl, hrest⟩
    · exact spent_of_left hreached hleft hruns
    · refine (hpast.earlier hbegun hrest hruns).resolve_right ?_
      rintro ⟨_, -, -, hobserves, -⟩
      cases hleft with
      | stays =>
        rw [(hreached.missing rfl).1] at hobserves
        cases hobserves
      | discarded _ hbody =>
        rw [hbody] at hobserves
        cases hobserves
  present := by
    rintro last rfl before other after hsplit hruns
    cases hleft with
    | stays hfate hcompleted =>
      rcases split_concat hsplit with ⟨rfl, rfl, -⟩ | ⟨rest, rfl, hrest⟩
      · right
        refine ⟨fun _ hlater => (by cases hlater), hreached.isOf last rfl,
          hreached.settled last rfl hruns, ?_, fun hdone => ?_⟩
        · rcases hfate with hfate | hfate | hfate
          · exact Or.inr (Or.inr hfate)
          · exact Or.inr (Or.inl hfate)
          · exact Or.inl hfate
        · refine (hcompleted hdone).resolve_left fun hobserves => ?_
          rw [hruns] at hobserves
          cases hobserves
      · refine (hpast.earlier hbegun hrest hruns).imp id ?_
        rintro ⟨old, -, holdCompleted, hobserves, hstanding, hmethod, hhash⟩
        refine ⟨fun later hlater => ?_, ?_, ?_, hstanding.stopped, hstanding.completed⟩
        · rcases mem_append.mp hlater with hlater | hlater
          · exact hstanding.last later hlater
          · rw [mem_singleton.mp hlater]
            exact hobserves
        · obtain ⟨hnewMethod, hnewHash⟩ := isOf_iff.mp (hreached.isOf last rfl)
          obtain ⟨holdMethod, holdHash⟩ := isOf_iff.mp hstanding.isOf
          refine isOf_iff.mpr ⟨?_, ?_⟩
          · rw [hnewMethod, ← hmethod, holdMethod]
          · rw [hnewHash, ← hhash, holdHash]
        · exact iff_of_true (hreached.observing last rfl hobserves)
            (hstanding.settled.mp holdCompleted)
  followed := hpast.followed_concat hbegun
  effective := by
    rintro last rfl hcompleted
    cases hleft with
    | stays =>
      cases hbody : run.isObservation with
      | false =>
        exact ⟨run, mem_append_right _ (mem_singleton_self run), hbody,
          (hreached.settled last rfl hbody).mp hcompleted⟩
      | true =>
        cases hbegun with
        | started hobserves =>
          rw [Invocation.isObservation, hobserves] at hbody
          cases hbody
        | resumed _ hobserves =>
          rw [Invocation.isObservation, hobserves] at hbody
          cases hbody
        | @observed row _ hdone =>
          obtain ⟨first, hfirst, heffective⟩ := hpast.effective row rfl hdone
          exact ⟨first, mem_append_left _ hfirst, heffective⟩
  receipt := by
    rintro last rfl hcompleted
    cases hleft with
    | stays => exact hreached.receipt last rfl hcompleted

theorem Story.accounts (hstory : Story environment requestId runs row) :
    @Accounts N environment requestId runs row := by
  induction hstory with
  | nil =>
    exact ⟨fun _ before run after hsplit => by simp at hsplit, fun _ hfound => (by cases hfound),
      fun before run middle later rest hsplit => by simp at hsplit,
      fun _ hfound => (by cases hfound), fun _ hfound => (by cases hfound)⟩
  | snoc _ hbegun hreached hleft ih => exact ih.snoc hbegun hreached hleft

end Story

end Wakii.Mutations
