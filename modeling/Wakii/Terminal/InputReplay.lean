import Mathlib.Data.List.Chain
import Wakii.Terminal.InputLedger

/-!
# What a session has settled

The links of a session decide in turn, so what the session remembers is what is
left by the outcomes of its links, one after the other.  What a link decided
fits what was left by those before it.
-/

namespace Wakii.TerminalInput

open List

namespace Run

variable {run : Run} {progress : Progress}

def effect (run : Run) (progress : Progress) : Progress :=
  match run.outcome with
  | some outcome => (progress.conclude run.seq outcome).1
  | none => progress

def settles (run : Run) : Bool :=
  run.outcome = some .applied || run.outcome = some .deliveryUnknown

def attempted (run : Run) : Bool := run.ran || run.outcome.isSome

/-- What a link decides, given what the links before it left. -/
inductive Fits (progress : Progress) (run : Run) : Prop
  | waiting (hphase : run.phase = .waiting) (hran : run.ran = false) (houtcome : run.outcome = none)
  | writing (hphase : run.phase = .writing) (hran : run.ran = true) (houtcome : run.outcome = none)
      (hseq : run.seq = progress.appliedSeq + 1)
  | concluded (outcome : TerminalInputWriteOutcome) (houtcome : run.outcome = some outcome)
      (hseq : run.seq = progress.appliedSeq + 1)
      (hreply : run.reply? = some (progress.conclude run.seq outcome).2)
      (hran : run.ran = true ∨ run.isStrict = true ∧ outcome = .deliveryUnknown)
  | repeated (kind : AdmissionKind) (houtcome : run.outcome = none) (hran : run.ran = false)
      (hseq : run.seq ≤ progress.appliedSeq) (hreply : run.reply? = some ⟨kind, run.seq⟩)
      (hkind : kind ≠ .resend)
      (hplain : run.isStrict = false → (kind = .deliveryUnknown ↔
        run.seq ∈ progress.unknownSeqs ∨ run.seq ≤ progress.unknownForgottenThrough))
  | sentBack (houtcome : run.outcome = none) (hran : run.ran = false)
      (hreply : run.reply? = some ⟨.resend, progress.appliedSeq⟩)
      (hgap : run.isStrict = false → progress.appliedSeq + 1 < run.seq)

theorem effect_of_none (houtcome : run.outcome = none) (progress : Progress) :
    run.effect progress = progress := by
  rw [effect, houtcome]

end Run

@[simp] theorem rememberUnknown_appliedSeq (progress : Progress) (seq : ℤ) :
    (rememberUnknown progress seq).appliedSeq = progress.appliedSeq := by
  unfold rememberUnknown
  dsimp only
  generalize (if seq ∈ progress.unknownSeqs then progress.unknownSeqs
    else progress.unknownSeqs ++ [seq]) = unknownSeqs
  split
  · cases unknownSeqs <;> rfl
  · rfl

theorem conclude_appliedSeq (progress : Progress) (seq : ℤ) (outcome : TerminalInputWriteOutcome) :
    (progress.conclude seq outcome).1.appliedSeq =
      if outcome = .refused then progress.appliedSeq else seq := by
  cases outcome <;> simp [Progress.conclude]

def replay (progress : Progress) (runs : List Run) : Progress :=
  runs.foldl (fun progress run => run.effect progress) progress

@[simp] theorem replay_nil (progress : Progress) : replay progress [] = progress := rfl

@[simp] theorem replay_cons (progress : Progress) (run : Run) (runs : List Run) :
    replay progress (run :: runs) = replay (run.effect progress) runs := rfl

theorem replay_append (progress : Progress) (done runs : List Run) :
    replay progress (done ++ runs) = replay (replay progress done) runs :=
  foldl_append

def Fitting : Progress → List Run → Prop
  | _, [] => True
  | progress, run :: runs => run.Fits progress ∧ Fitting (run.effect progress) runs

theorem fitting_append {progress : Progress} {done runs : List Run} :
    Fitting progress (done ++ runs) ↔ Fitting progress done ∧
      Fitting (replay progress done) runs := by
  induction done generalizing progress with
  | nil => simp [Fitting]
  | cons run done ih => simp [Fitting, ih, and_assoc]

theorem fits_of_mem {progress : Progress} {runs : List Run} (hfitting : Fitting progress runs)
    {run : Run} (hrun : run ∈ runs) : ∃ left, run.Fits left := by
  induction runs generalizing progress with
  | nil => cases hrun
  | cons head runs ih =>
    rcases mem_cons.mp hrun with rfl | hrun
    · exact ⟨progress, hfitting.1⟩
    · exact ih hfitting.2 hrun

def InTurn (runs : List Run) : Prop :=
  runs.Pairwise fun earlier later => later.phase = .waiting ∨ earlier.isSettled = true

section Waiting

variable {progress : Progress} {runs : List Run}

theorem fitting_waiting (hruns : ∀ run ∈ runs, ∀ progress, run.Fits progress)
    (houtcome : ∀ run ∈ runs, run.outcome = none) :
    Fitting progress runs ∧ replay progress runs = progress := by
  induction runs with
  | nil => exact ⟨trivial, rfl⟩
  | cons run runs ih =>
    have hrest := ih (fun other hother => hruns other (mem_cons_of_mem _ hother))
      fun other hother => houtcome other (mem_cons_of_mem _ hother)
    have heffect := Run.effect_of_none (houtcome run mem_cons_self) progress
    rw [Fitting, replay_cons, heffect]
    exact ⟨⟨hruns run mem_cons_self progress, hrest.1⟩, hrest.2⟩

theorem outcome_of_waiting {run : Run} (hfits : run.Fits progress) (hphase : run.phase = .waiting) :
    run.outcome = none ∧ run.ran = false ∧ run.reply? = none := by
  have hreply : run.reply? = none := by rw [Run.reply?, hphase]
  cases hfits with
  | waiting _ hran houtcome => exact ⟨houtcome, hran, hreply⟩
  | writing hwriting => rw [hphase] at hwriting; cases hwriting
  | concluded _ _ _ hsome => rw [hreply] at hsome; cases hsome
  | repeated _ _ _ _ hsome => rw [hreply] at hsome; cases hsome
  | sentBack _ _ hsome => rw [hreply] at hsome; cases hsome

end Waiting

section Settled

variable {progress : Progress} {runs : List Run} {run : Run}

theorem Run.Fits.appliedSeq_effect (hfits : run.Fits progress) : (run.effect progress).appliedSeq =
      if run.settles then progress.appliedSeq + 1 else progress.appliedSeq := by
  cases houtcome : run.outcome with
  | none => simp [Run.effect, Run.settles, houtcome]
  | some outcome =>
    have hseq : run.seq = progress.appliedSeq + 1 := by
      cases hfits with
      | waiting _ _ hnone | writing _ _ hnone | repeated _ hnone | sentBack hnone =>
        rw [houtcome] at hnone
        cases hnone
      | concluded _ _ hseq => exact hseq
    rw [Run.effect, houtcome, conclude_appliedSeq, hseq]
    cases outcome <;> simp [Run.settles, houtcome]

theorem Run.Fits.seq_of_settles (hfits : run.Fits progress) (hsettles : run.settles = true) :
    run.seq = progress.appliedSeq + 1 := by
  cases hfits with
  | waiting _ _ hnone | writing _ _ hnone | repeated _ hnone | sentBack hnone =>
    simp [Run.settles, hnone] at hsettles
  | concluded _ _ hseq => exact hseq

theorem Run.Fits.seq_of_attempted (hfits : run.Fits progress) (hattempted : run.attempted = true) :
    run.seq = progress.appliedSeq + 1 := by
  cases hfits with
  | waiting _ hran hnone | repeated _ hnone hran | sentBack hnone hran =>
    simp [Run.attempted, hran, hnone] at hattempted
  | writing _ _ _ hseq => exact hseq
  | concluded _ _ hseq => exact hseq

theorem appliedSeq_le_replay (hfitting : Fitting progress runs) :
    progress.appliedSeq ≤ (replay progress runs).appliedSeq := by
  induction runs generalizing progress with
  | nil => exact le_rfl
  | cons run runs ih =>
    have hrest := ih hfitting.2
    have hstep := hfitting.1.appliedSeq_effect
    rw [replay_cons]
    split_ifs at hstep <;> omega

def lastSettled (first : ℤ) (runs : List Run) : ℤ :=
  ((runs.filter Run.settles).getLast?.map Run.seq).getD first

section

variable (hfitting : Fitting progress runs)
include hfitting

theorem exists_settles {seq : ℤ}
    (habove : progress.appliedSeq < seq) (hbelow : seq ≤ (replay progress runs).appliedSeq) :
    ∃ run ∈ runs, run.settles = true ∧ run.seq = seq := by
  induction runs generalizing progress with
  | nil => rw [replay_nil] at hbelow; omega
  | cons head runs ih =>
    have hstep := hfitting.1.appliedSeq_effect
    by_cases hhead : (head.effect progress).appliedSeq < seq
    · obtain ⟨run, hrun, hsettled⟩ := ih hfitting.2 hhead hbelow
      exact ⟨run, mem_cons_of_mem _ hrun, hsettled⟩
    · split_ifs at hstep with hsettles
      · have hseq := hfitting.1.seq_of_settles hsettles
        exact ⟨head, mem_cons_self, hsettles, by omega⟩
      · omega

end

/-- What a write at the turn of `later` says about the write before it. -/
def Follows (earlier later : Run) : Prop :=
  (earlier.outcome = some .refused ∧ later.seq = earlier.seq) ∨
    (earlier.settles = true ∧ later.seq = earlier.seq + 1)

end Settled

section Unknown

variable {progress : Progress} {done runs : List Run} {run : Run} {first : ℤ}

/-- What is remembered of the writes of unknown delivery: each of them, or a
number at or above it. -/
structure Remembers (first : ℤ) (done : List Run) (progress : Progress) : Prop where
  unknown : ∀ run ∈ done, run.outcome = some .deliveryUnknown →
    run.seq ∈ progress.unknownSeqs ∨ run.seq ≤ progress.unknownForgottenThrough
  sorted : progress.unknownSeqs.Pairwise (· < ·)
  above : ∀ seq ∈ progress.unknownSeqs,
    progress.unknownForgottenThrough < seq ∧ seq ≤ progress.appliedSeq
  first : first ≤ progress.unknownForgottenThrough
  through : progress.unknownForgottenThrough ≤ progress.appliedSeq
  known : ∀ seq ∈ progress.unknownSeqs,
    ∃ run ∈ done, run.seq = seq ∧ run.outcome = some .deliveryUnknown

theorem rememberUnknown_fresh {seq : ℤ} (hfresh : ∀ other ∈ progress.unknownSeqs, other < seq) :
    (rememberUnknown progress seq =
      { progress with unknownSeqs := progress.unknownSeqs ++ [seq] }) ∨
      ∃ oldest rest, progress.unknownSeqs ++ [seq] = oldest :: rest ∧ rememberUnknown progress seq =
          { progress with unknownSeqs := rest, unknownForgottenThrough := oldest } := by
  have hmem : seq ∉ progress.unknownSeqs := fun hseq => lt_irrefl _ (hfresh seq hseq)
  rw [rememberUnknown, if_neg hmem]
  by_cases hfull : TERMINAL_INPUT_SEQUENCE_LEDGER_MAX_UNKNOWN_SEQS <
      (progress.unknownSeqs ++ [seq]).length
  · rw [if_pos hfull]
    cases hlist : progress.unknownSeqs ++ [seq] with
    | nil => simp at hlist
    | cons oldest rest => exact Or.inr ⟨oldest, rest, rfl, rfl⟩
  · rw [if_neg hfull]
    exact Or.inl rfl

section

variable (hremembers : Remembers first done progress)
include hremembers

/-- A delivery that stays unknown is remembered by its number. -/
theorem Remembers.unknown_step {seq : ℤ} (hseq : progress.appliedSeq < seq) (hrun : run.seq = seq)
    (houtcome : run.outcome = some .deliveryUnknown) :
    Remembers first (done ++ [run]) (rememberUnknown { progress with appliedSeq := seq } seq) := by
  have hsorted : (progress.unknownSeqs ++ [seq]).Pairwise (· < ·) := by
    refine pairwise_append.mpr ⟨hremembers.sorted, pairwise_singleton _ _, ?_⟩
    intro other hother last hlast
    rw [mem_singleton.mp hlast]
    have hbelow := (hremembers.above other hother).2
    omega
  have hbounds : ∀ other ∈ progress.unknownSeqs ++ [seq],
      progress.unknownForgottenThrough < other ∧ other ≤ seq := by
    intro other hother
    have hthrough := hremembers.through
    rcases mem_append.mp hother with hother | hother
    · have habove := hremembers.above other hother
      omega
    · rw [mem_singleton.mp hother]
      omega
  have hunknown : ∀ other ∈ done ++ [run], other.outcome = some .deliveryUnknown →
      other.seq ∈ progress.unknownSeqs ++ [seq] ∨ other.seq ≤ progress.unknownForgottenThrough := by
    intro other hother houtcome
    rcases mem_append.mp hother with hother | hother
    · rcases hremembers.unknown other hother houtcome with hmem | hforgotten
      · exact Or.inl (mem_append_left _ hmem)
      · exact Or.inr hforgotten
    · rw [mem_singleton.mp hother, hrun]
      exact Or.inl (mem_append_right _ (mem_singleton_self seq))
  have hknown : ∀ other ∈ progress.unknownSeqs ++ [seq],
      ∃ writer ∈ done ++ [run], writer.seq = other ∧ writer.outcome = some .deliveryUnknown := by
    intro other hother
    rcases mem_append.mp hother with hother | hother
    · obtain ⟨writer, hwriter, hsettled⟩ := hremembers.known other hother
      exact ⟨writer, mem_append_left _ hwriter, hsettled⟩
    · rw [mem_singleton.mp hother]
      exact ⟨run, mem_append_right _ (mem_singleton_self run), hrun, houtcome⟩
  have hthrough := hremembers.through
  have hfirst := hremembers.first
  rcases @rememberUnknown_fresh { progress with appliedSeq := seq } seq (fun other hother => by
        have hbelow := (hremembers.above other hother).2
        omega) with hkept | ⟨oldest, rest, hlist, hdropped⟩
  · rw [hkept]
    refine ⟨hunknown, hsorted, hbounds, hfirst, ?_, hknown⟩
    change progress.unknownForgottenThrough ≤ seq
    omega
  · rw [hdropped]
    change progress.unknownSeqs ++ [seq] = oldest :: rest at hlist
    rw [hlist] at hsorted hbounds hunknown hknown
    obtain ⟨holdest, hrest⟩ := pairwise_cons.mp hsorted
    have hold := hbounds oldest mem_cons_self
    refine ⟨fun other hother houtcome => ?_, hrest, fun other hother =>
      ⟨holdest other hother, (hbounds other (mem_cons_of_mem _ hother)).2⟩, ?_, hold.2,
      fun other hother => hknown other (mem_cons_of_mem _ hother)⟩
    · change other.seq ∈ rest ∨ other.seq ≤ oldest
      rcases hunknown other hother houtcome with hmem | hforgotten
      · rcases mem_cons.mp hmem with heq | hmem
        · exact Or.inr heq.le
        · exact Or.inl hmem
      · exact Or.inr (by omega)
    · change first ≤ oldest
      omega

theorem Remembers.step (hfits : run.Fits progress) :
    Remembers first (done ++ [run]) (run.effect progress) := by
  have hsame : run.outcome ≠ some .deliveryUnknown → ∀ other ∈ done ++ [run],
      other.outcome = some .deliveryUnknown →
        other.seq ∈ progress.unknownSeqs ∨ other.seq ≤ progress.unknownForgottenThrough := by
    intro hrun other hother houtcome
    rcases mem_append.mp hother with hother | hother
    · exact hremembers.unknown other hother houtcome
    · rw [mem_singleton.mp hother] at houtcome
      exact absurd houtcome hrun
  have hknown : ∀ seq ∈ progress.unknownSeqs,
      ∃ other ∈ done ++ [run], other.seq = seq ∧ other.outcome = some .deliveryUnknown := by
    intro seq hseq
    obtain ⟨other, hother, hsettled⟩ := hremembers.known seq hseq
    exact ⟨other, mem_append_left _ hother, hsettled⟩
  cases houtcome : run.outcome with
  | none =>
    rw [Run.effect_of_none houtcome]
    exact ⟨hsame (by rw [houtcome]; rintro ⟨⟩), hremembers.sorted, hremembers.above,
      hremembers.first, hremembers.through, hknown⟩
  | some outcome =>
    rw [Run.effect, houtcome]
    have hseq : run.seq = progress.appliedSeq + 1 :=
      hfits.seq_of_attempted (by simp [Run.attempted, houtcome])
    have hthrough := hremembers.through
    cases outcome with
    | refused =>
      exact ⟨hsame (by rw [houtcome]; rintro ⟨⟩), hremembers.sorted, hremembers.above,
        hremembers.first, hremembers.through, hknown⟩
    | applied =>
      refine ⟨hsame (by rw [houtcome]; rintro ⟨⟩), hremembers.sorted, fun other hother => ?_,
        hremembers.first, ?_, hknown⟩
      · have habove := hremembers.above other hother
        change _ ∧ other ≤ run.seq
        exact ⟨habove.1, by omega⟩
      · change _ ≤ run.seq
        change progress.unknownForgottenThrough ≤ run.seq
        omega
    | deliveryUnknown => exact hremembers.unknown_step (by omega) rfl houtcome

end

end Unknown

section Replies

variable {first : ℤ} {done rest : List Run} {run : Run}

section

variable (hfitting : Fitting ⟨first, [], first⟩ (done ++ run :: rest))
include hfitting

end

end Replies

end Wakii.TerminalInput
