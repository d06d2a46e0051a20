import Wakii.Terminal.InputReplay

/-!
# What the steps of a session keep

Each step moves one link on.  The links stay in turn, the session remembers what
they left, and a strict session that met a refusal, a gap or an unknown outcome
is blocked.
-/

namespace Wakii.TerminalInput

open List

namespace Session

def firstSettled (session : Session) : ℤ :=
  if session.strict.isSome then 0
  else
    match session.runs with
    | run :: _ => run.seq - 1
    | [] => session.appliedSeq

def begin (session : Session) : Progress :=
  ⟨session.firstSettled, [], session.firstSettled⟩

/-- The links decided in turn, and the session remembers what they left. -/
structure InOrder (session : Session) : Prop where
  turn : InTurn session.runs
  fitting : Fitting session.begin session.runs
  progress : session.toProgress = replay session.begin session.runs

/-- What is stored of the writes: one text for each number, no more than the limit. -/
structure FingerprintsOk (fingerprints : List (ℤ × String)) : Prop where
  positive : ∀ entry ∈ fingerprints, 0 < entry.1
  once : (fingerprints.map Prod.fst).Nodup
  capped : fingerprints.length ≤ TERMINAL_INPUT_SEQUENCE_LEDGER_MAX_UNKNOWN_SEQS

structure Fenced (session : Session) : Prop where
  unblocked : session.isBlocked = false → ∀ run ∈ session.runs, run.isStrict = true →
    run.outcome ≠ some .refused ∧ run.outcome ≠ some .deliveryUnknown ∧
      ∀ appliedSeq, run.reply? ≠ some ⟨.resend, appliedSeq⟩
  fingerprints : ∀ strict ∈ session.strict, FingerprintsOk strict.fingerprints
  strictRuns : ∀ run ∈ session.runs, run.isStrict = true →
    0 < run.seq ∧ session.strict.isSome = true
  applied : (∀ run ∈ session.runs, run.isStrict = true) → ∀ run ∈ session.runs, ∀ appliedSeq,
    run.reply? = some ⟨.applied, appliedSeq⟩ →
      ∃ writer ∈ session.runs, writer.seq = run.seq ∧ writer.outcome = some .applied

theorem conclude_eq {session : Session} {index : ℕ} {run : Run}
    {outcome : TerminalInputWriteOutcome} {concluded : _}
    (hconcluded : session.toProgress.conclude run.seq outcome = concluded) :
    session.conclude index run outcome =
      if run.isStrict = true ∧ outcome ≠ .applied then
        ({ session with toProgress := concluded.1 }.setRun index
          { run.answer concluded.2 with outcome := some outcome }).block
      else { session with toProgress := concluded.1 }.setRun index
        { run.answer concluded.2 with outcome := some outcome } := by
  rw [Session.conclude, hconcluded]

end Session

theorem split_at {runs : List Run} {index : ℕ} {run : Run} (hrun : runs[index]? = some run) :
    ∃ before after, runs = before ++ run :: after ∧ before.length = index ∧
      ∀ other, runs.set index other = before ++ other :: after := by
  obtain ⟨hindex, hget⟩ := List.getElem?_eq_some_iff.mp hrun
  refine ⟨runs.take index, runs.drop (index + 1), ?_, List.length_take_of_le hindex.le, ?_⟩
  · rw [← hget, ← List.drop_eq_getElem_cons hindex, List.take_append_drop]
  · intro other
    exact set_eq_take_append_cons_drop.trans (if_pos hindex)

structure Moved (session next : Session) (before after : List Run) (run moved : Run) : Prop where
  runs : session.runs = before ++ run :: after
  next_runs : next.runs = before ++ moved :: after
  unsettled : run.isSettled = false
  seq : moved.seq = run.seq
  charged : moved.charged = run.charged
  turn : ∀ earlier ∈ before, earlier.isSettled = true
  started : moved.phase ≠ .waiting
  fits : moved.Fits (replay session.begin before)
  progress : next.toProgress = moved.effect (replay session.begin before)
  strict : next.strict.isSome = session.strict.isSome
  outcome : ∀ outcome, run.outcome = some outcome → moved.outcome = some outcome
  reply : ∀ reply, run.reply? = some reply → moved.reply? = some reply

section Moved

variable {session next : Session} {before after : List Run} {run moved : Run}

theorem Moved.isStrict (hmoved : Moved session next before after run moved) :
    moved.isStrict = run.isStrict := by
  rw [Run.isStrict, Run.isStrict, hmoved.charged]

theorem Moved.begin_eq (hmoved : Moved session next before after run moved) :
    next.begin = session.begin := by
  have hfirst : next.firstSettled = session.firstSettled := by
    unfold Session.firstSettled
    rw [hmoved.strict, hmoved.runs, hmoved.next_runs]
    cases before with
    | nil => simp only [nil_append, hmoved.seq]
    | cons head before => rfl
  rw [Session.begin, Session.begin, hfirst]

theorem waiting_behind (hturn : InTurn (before ++ run :: after)) (hrun : run.isSettled = false) :
    ∀ later ∈ after, later.phase = .waiting := by
  intro later hlater
  have hpair := (pairwise_cons.mp (pairwise_append.mp hturn).2.1).1 later hlater
  rw [hrun] at hpair
  exact hpair.resolve_right Bool.false_ne_true

theorem fitting_behind {progress : Progress} (hfitting : Fitting progress after)
    (hwaiting : ∀ later ∈ after, later.phase = .waiting) (other : Progress) :
    Fitting other after ∧ replay other after = other := by
  have hfits : ∀ later ∈ after, later.outcome = none ∧ later.ran = false := by
    intro later hlater
    obtain ⟨left, hleft⟩ := fits_of_mem hfitting hlater
    have hnone := outcome_of_waiting hleft (hwaiting later hlater)
    exact ⟨hnone.1, hnone.2.1⟩
  exact fitting_waiting
    (fun later hlater _ => .waiting (hwaiting later hlater) (hfits later hlater).2
      (hfits later hlater).1)
    fun later hlater => (hfits later hlater).1

theorem Moved.inOrder (hmoved : Moved session next before after run moved)
    (hok : session.InOrder) : next.InOrder := by
  have hturn := hok.turn
  have hfitting := hok.fitting
  rw [hmoved.runs] at hturn hfitting
  have hwaiting := waiting_behind hturn hmoved.unsettled
  obtain ⟨hbefore, -, hafter⟩ := fitting_append.mp hfitting
  obtain ⟨hbehind, hreplay⟩ :=
    fitting_behind hafter hwaiting (moved.effect (replay session.begin before))
  refine ⟨?_, ?_, ?_⟩
  · rw [hmoved.next_runs]
    obtain ⟨hfirst, hrest, -⟩ := pairwise_append.mp hturn
    refine pairwise_append.mpr ⟨hfirst, pairwise_cons.mpr
      ⟨fun later hlater => Or.inl (hwaiting later hlater), (pairwise_cons.mp hrest).2⟩, ?_⟩
    exact fun earlier hearlier later _ => Or.inr (hmoved.turn earlier hearlier)
  · rw [hmoved.begin_eq, hmoved.next_runs]
    exact fitting_append.mpr ⟨hbefore, hmoved.fits, hbehind⟩
  · rw [hmoved.begin_eq, hmoved.next_runs, replay_append, replay_cons, hreplay]
    exact hmoved.progress

section

variable (hok : session.InOrder) (hruns : session.runs = before ++ run :: after)
include hok hruns

theorem progress_through (hunsettled : run.isSettled = false) :
    run.effect (replay session.begin before) = session.toProgress := by
  have hturn := hok.turn
  have hfitting := hok.fitting
  rw [hruns] at hturn hfitting
  obtain ⟨-, -, hafter⟩ := fitting_append.mp hfitting
  have hreplay := (fitting_behind hafter (waiting_behind hturn hunsettled)
    (run.effect (replay session.begin before))).2
  rw [hok.progress, hruns, replay_append, replay_cons, hreplay]

theorem progress_at_turn (hunsettled : run.isSettled = false) (houtcome : run.outcome = none) :
    replay session.begin before = session.toProgress := by
  rw [← progress_through hok hruns hunsettled, Run.effect_of_none houtcome]

/-- The turn of a link means that all before it have settled. -/
theorem settled_before {index : ℕ} (hlength : before.length = index)
    (hturn : session.isTurn index = true) : ∀ earlier ∈ before, earlier.isSettled = true := by
  rcases eq_nil_or_concat before with rfl | ⟨front, last, rfl⟩
  · exact fun _ hearlier => by cases hearlier
  · rw [concat_eq_append] at *
    obtain rfl : index = front.length + 1 := by simpa using hlength.symm
    have hlast : session.runs[front.length]? = some last := by
      rw [hruns]
      simp
    rw [Session.isTurn, hlast] at hturn
    have hsettled : last.isSettled = true := hturn
    have hstarted : last.phase ≠ .waiting := by
      intro hphase
      rw [Run.isSettled, hphase] at hsettled
      cases hsettled
    have hpairs := hok.turn
    rw [hruns] at hpairs
    have hfront := (pairwise_append.mp (pairwise_append.mp hpairs).1).2.2
    intro earlier hearlier
    rcases mem_append.mp hearlier with hearlier | hearlier
    · exact (hfront earlier hearlier last (mem_singleton_self last)).resolve_left hstarted
    · rw [mem_singleton.mp hearlier]
      exact hsettled

end

theorem mem_of_replaced {runs others : List Run} (hruns : runs = before ++ run :: after)
    (hothers : others = before ++ moved :: after) : ∀ other ∈ runs, other = run ∨
      other ∈ others := by
  intro other hother
  rw [hruns, mem_append, mem_cons] at hother
  rw [hothers, mem_append, mem_cons]
  rcases hother with hother | rfl | hother
  · exact Or.inr (Or.inl hother)
  · exact Or.inl rfl
  · exact Or.inr (Or.inr (Or.inr hother))

/-- The strict links stay fenced, if the moved one is. -/
theorem Moved.fenced (hmoved : Moved session next before after run moved) (hok : session.Fenced)
    (hblocked : next.isBlocked = false → session.isBlocked = false ∧ (moved.isStrict = true →
      moved.outcome ≠ some .refused ∧ moved.outcome ≠ some .deliveryUnknown ∧
        ∀ appliedSeq, moved.reply? ≠ some ⟨.resend, appliedSeq⟩))
    (hfingerprints : ∀ strict ∈ next.strict, ∃ old ∈ session.strict,
      strict.fingerprints = old.fingerprints)
    (happlied : (∀ other ∈ session.runs, other.isStrict = true) → ∀ appliedSeq,
      moved.reply? = some ⟨.applied, appliedSeq⟩ →
        (∃ writer ∈ session.runs, writer.seq = moved.seq ∧ writer.outcome = some .applied) ∨
          moved.outcome = some .applied) : next.Fenced := by
  have hold := mem_of_replaced hmoved.next_runs hmoved.runs
  have hrun : run ∈ session.runs := by
    rw [hmoved.runs]
    exact mem_append_right _ mem_cons_self
  have hnew := mem_of_replaced hmoved.runs hmoved.next_runs
  have hmem : moved ∈ next.runs := by
    rw [hmoved.next_runs]
    exact mem_append_right _ mem_cons_self
  have hwriter : ∀ writer ∈ session.runs, writer.outcome = some .applied →
      ∃ other ∈ next.runs, other.seq = writer.seq ∧ other.outcome = some .applied := by
    intro writer hwriter houtcome
    rcases hnew writer hwriter with rfl | hkept
    · exact ⟨moved, hmem, hmoved.seq, hmoved.outcome _ houtcome⟩
    · exact ⟨writer, hkept, rfl, houtcome⟩
  refine ⟨fun hunblocked other hother hstrict => ?_, fun strict hstrict => ?_,
    fun other hother hstrict => ?_, fun hall other hother appliedSeq hreply => ?_⟩
  · obtain ⟨hbefore, hnow⟩ := hblocked hunblocked
    rcases hold other hother with rfl | hother
    · exact hnow hstrict
    · exact hok.unblocked hbefore other hother hstrict
  · obtain ⟨old, hmemOld, hsame⟩ := hfingerprints strict hstrict
    rw [hsame]
    exact hok.fingerprints old hmemOld
  · rw [hmoved.strict]
    rcases hold other hother with rfl | hother
    · rw [hmoved.isStrict] at hstrict
      rw [hmoved.seq]
      exact hok.strictRuns run hrun hstrict
    · exact hok.strictRuns other hother hstrict
  · have hallOld : ∀ other ∈ session.runs, other.isStrict = true := by
      intro other hother
      rcases hnew other hother with rfl | hother
      · rw [← hmoved.isStrict]
        exact hall moved hmem
      · exact hall other hother
    rcases hold other hother with rfl | hother
    · rcases happlied hallOld appliedSeq hreply with ⟨writer, hmemWriter, hseq, houtcome⟩ | houtcome
      · obtain ⟨found, hfound, hfoundSeq, hfoundOutcome⟩ := hwriter writer hmemWriter houtcome
        exact ⟨found, hfound, hfoundSeq.trans hseq, hfoundOutcome⟩
      · exact ⟨other, hmem, rfl, houtcome⟩
    · obtain ⟨writer, hmemWriter, hseq, houtcome⟩ :=
        hok.applied hallOld other hother appliedSeq hreply
      obtain ⟨found, hfound, hfoundSeq, hfoundOutcome⟩ := hwriter writer hmemWriter houtcome
      exact ⟨found, hfound, hfoundSeq.trans hseq, hfoundOutcome⟩

end Moved

namespace Run

variable {run : Run} {reply : TerminalInputAdmission}

@[simp] theorem answer_reply? (run : Run) (reply : TerminalInputAdmission) :
    (run.answer reply).reply? = some reply := by
  unfold answer
  cases run.isStrict <;> rfl

theorem answer_started (run : Run) (reply : TerminalInputAdmission) :
    (run.answer reply).phase ≠ .waiting := by
  unfold answer
  cases run.isStrict <;> rintro ⟨⟩

@[simp] theorem answer_isStrict (run : Run) (reply : TerminalInputAdmission) :
    (run.answer reply).isStrict = run.isStrict := rfl

@[simp] theorem answer_outcome (run : Run) (reply : TerminalInputAdmission) :
    (run.answer reply).outcome = run.outcome := rfl

end Run

namespace Session

variable {session : Session} {before after : List Run} {run : Run} {index : ℕ}

@[simp] theorem block_strict_isSome (session : Session) :
    session.block.strict.isSome = session.strict.isSome := Option.isSome_map

theorem isBlocked_block (hstrict : session.strict.isSome = true) :
    session.block.isBlocked = true := by
  obtain ⟨strict, hsome⟩ := Option.isSome_iff_exists.mp hstrict
  simp [isBlocked, block, hsome]

theorem isBlocked_block_of_isBlocked (hblocked : session.isBlocked = true) :
    session.block.isBlocked = true := by
  cases hstrict : session.strict with
  | none => rw [isBlocked, hstrict] at hblocked; cases hblocked
  | some strict => exact isBlocked_block (by rw [hstrict]; rfl)

theorem block_fingerprints : ∀ strict ∈ session.block.strict, ∃ old ∈ session.strict,
    strict.fingerprints = old.fingerprints := by
  intro strict hstrict
  obtain ⟨old, hold, rfl⟩ := Option.map_eq_some_iff.mp hstrict
  exact ⟨old, hold, rfl⟩

structure Valid (session : Session) : Prop where
  inOrder : session.InOrder
  fenced : session.Fenced

theorem Valid.block (hok : session.Valid) : session.block.Valid := by
  have hbegin : session.block.begin = session.begin := by
    rw [begin, begin, firstSettled, firstSettled, block_strict_isSome]
    rfl
  refine ⟨⟨hok.inOrder.turn, ?_, ?_⟩, fun hunblocked run hrun hstrict => ?_,
    fun strict hstrict => ?_, fun run hrun hstrict => ?_, hok.fenced.applied⟩
  · rw [hbegin]
    exact hok.inOrder.fitting
  · rw [hbegin]
    exact hok.inOrder.progress
  · rw [isBlocked_block (hok.fenced.strictRuns run hrun hstrict).2] at hunblocked
    cases hunblocked
  · obtain ⟨old, hold, hsame⟩ := block_fingerprints strict hstrict
    rw [hsame]
    exact hok.fenced.fingerprints old hold
  · rw [block_strict_isSome]
    exact hok.fenced.strictRuns run hrun hstrict

section

variable (hok : session.Valid) (hruns : session.runs = before ++ run :: after)
  (hset : ∀ other, session.runs.set index other = before ++ other :: after)
include hok hruns hset

section

variable (hunsettled : run.isSettled = false) (hreply : run.reply? = none)
  (houtcome : run.outcome = none) (hturn : ∀ earlier ∈ before, earlier.isSettled = true)
include hunsettled hreply houtcome hturn

/-- A write that ends, or a strict one that cannot begin. -/
theorem Valid.conclude (hseq : run.seq = session.appliedSeq + 1)
    {outcome : TerminalInputWriteOutcome}
    (hran : run.ran = true ∨ run.isStrict = true ∧ outcome = .deliveryUnknown) :
    (session.conclude index run outcome).Valid := by
  have hprogress := progress_at_turn hok.inOrder hruns hunsettled houtcome
  generalize hconcluded : session.toProgress.conclude run.seq outcome = concluded
  have hnext := @Session.conclude_eq session index run outcome concluded hconcluded
  have hreplyNow : ({ run.answer concluded.2 with outcome := some outcome } : Run).reply? =
      some concluded.2 := Run.answer_reply? run concluded.2
  have hmoved : Moved session (session.conclude index run outcome) before after run
      { run.answer concluded.2 with outcome := some outcome } := by
    refine ⟨hruns, ?_, hunsettled, rfl, rfl, hturn, Run.answer_started run _, ?_, ?_, ?_, ?_, ?_⟩
    · rw [hnext]
      split_ifs <;> exact hset _
    · rw [hprogress]
      refine .concluded outcome rfl hseq ?_ hran
      rw [hreplyNow]
      exact congrArg (fun concluded => some concluded.2) hconcluded.symm
    · rw [hprogress, Run.effect, hnext]
      change _ = (session.toProgress.conclude run.seq outcome).1
      rw [hconcluded]
      split_ifs <;> rfl
    · rw [hnext]
      split_ifs
      · exact block_strict_isSome _
      · rfl
    · intro other hother
      rw [houtcome] at hother
      cases hother
    · intro other hother
      rw [hreply] at hother
      cases hother
  refine ⟨hmoved.inOrder hok.inOrder, hmoved.fenced hok.fenced (fun hunblocked => ?_) ?_ ?_⟩
  · rw [hnext] at hunblocked
    split_ifs at hunblocked with hfailed
    · have hrun : run ∈ session.runs := by
        rw [hruns]
        exact mem_append_right _ mem_cons_self
      have hsome := (hok.fenced.strictRuns run hrun hfailed.1).2
      exact Bool.noConfusion (hunblocked.symm.trans (isBlocked_block hsome))
    · refine ⟨hunblocked, fun hstrict => ?_⟩
      obtain rfl : outcome = .applied := by
        by_contra hne
        exact hfailed ⟨hstrict, hne⟩
      refine ⟨(by rintro ⟨⟩), (by rintro ⟨⟩), fun appliedSeq hresend => ?_⟩
      rw [hreplyNow, ← hconcluded] at hresend
      cases hresend
  · intro strict hstrict
    rw [hnext] at hstrict
    split_ifs at hstrict
    · exact block_fingerprints strict hstrict
    · exact ⟨strict, hstrict, rfl⟩
  · intro _ appliedSeq happlied
    right
    rw [hreplyNow, ← hconcluded] at happlied
    cases outcome with
    | applied => rfl
    | refused | deliveryUnknown => cases happlied

theorem moved_answer {reply : TerminalInputAdmission}
    (hfits : (run.answer reply).Fits session.toProgress) :
    Moved session (session.setRun index (run.answer reply)) before after run
      (run.answer reply) := by
  have hprogress := progress_at_turn hok.inOrder hruns hunsettled houtcome
  refine ⟨hruns, hset _, hunsettled, rfl, rfl, hturn, Run.answer_started run _, ?_, ?_, rfl,
    fun other hother => ?_, fun other hother => ?_⟩
  · rw [hprogress]
    exact hfits
  · rw [hprogress, Run.effect_of_none (by rw [Run.answer_outcome, houtcome])]
    rfl
  · rw [houtcome] at hother
    cases hother
  · rw [hreply] at hother
    cases hother

end

theorem Valid.write (hphase : run.phase = .waiting) (houtcome : run.outcome = none)
    (hturn : ∀ earlier ∈ before, earlier.isSettled = true)
    (hseq : run.seq = session.appliedSeq + 1) :
    (session.setRun index { run with phase := .writing, ran := true }).Valid := by
  have hunsettled : run.isSettled = false := by rw [Run.isSettled, hphase]
  have hreply : run.reply? = none := by rw [Run.reply?, hphase]
  have hprogress := progress_at_turn hok.inOrder hruns hunsettled houtcome
  have hmoved : Moved session (session.setRun index { run with phase := .writing, ran := true })
      before after run { run with phase := .writing, ran := true } := by
    refine ⟨hruns, hset _, hunsettled, rfl, rfl, hturn, (by rintro ⟨⟩), ?_, ?_, rfl,
      fun _ hother => hother, fun other hother => ?_⟩
    · rw [hprogress]
      exact .writing rfl rfl houtcome hseq
    · rw [hprogress]
      exact (Run.effect_of_none houtcome _).symm
    · rw [hreply] at hother
      cases hother
  refine ⟨hmoved.inOrder hok.inOrder, hmoved.fenced hok.fenced (fun hunblocked => ⟨hunblocked,
    fun _ => ⟨?_, ?_, fun appliedSeq => (by rintro ⟨⟩)⟩⟩)
    (fun strict hstrict => ⟨strict, hstrict, rfl⟩)
    fun _ _ hwriting => by cases hwriting⟩
  · change run.outcome ≠ _
    rw [houtcome]
    rintro ⟨⟩
  · change run.outcome ≠ _
    rw [houtcome]
    rintro ⟨⟩

end

theorem waiting_run (hok : session.InOrder) (hruns : session.runs = before ++ run :: after)
    (hphase : run.phase = .waiting) :
    run.outcome = none ∧ run.ran = false ∧ run.reply? = none := by
  have hrun : run ∈ session.runs := by
    rw [hruns]
    exact mem_append_right _ mem_cons_self
  obtain ⟨left, hfits⟩ := fits_of_mem hok.fitting hrun
  exact outcome_of_waiting hfits hphase

section

variable (hok : session.Valid) (hruns : session.runs = before ++ run :: after)
  (hset : ∀ other, session.runs.set index other = before ++ other :: after)
  (hphase : run.phase = .waiting) (hturn : ∀ earlier ∈ before, earlier.isSettled = true)
include hok hruns hset hphase hturn

theorem Valid.sendBack (hblocked : session.isBlocked = true) (hstrict : run.isStrict = true) :
    (session.setRun index (run.answer ⟨.resend, session.appliedSeq⟩)).Valid := by
  have hunsettled : run.isSettled = false := by rw [Run.isSettled, hphase]
  obtain ⟨houtcome, hran, hreply⟩ := waiting_run hok.inOrder hruns hphase
  have hmoved := moved_answer hok hruns hset hunsettled hreply houtcome hturn
    (.sentBack houtcome hran (Run.answer_reply? run _) fun hplain => by
      rw [Run.answer_isStrict, hstrict] at hplain
      cases hplain)
  refine ⟨hmoved.inOrder hok.inOrder, hmoved.fenced hok.fenced (fun hunblocked => ?_)
    (fun strict hmem => ⟨strict, hmem, rfl⟩) fun _ _ hresend => ?_⟩
  · change session.isBlocked = false at hunblocked
    rw [hblocked] at hunblocked
    cases hunblocked
  · rw [Run.answer_reply?] at hresend
    cases hresend

/-- A strict run may start, whether its binding holds or not. -/
theorem Valid.startStrict
    (hstrict : run.isStrict = true) (assertBinding : TerminalInputSessionBinding → Bool) :
    (session.startStrict index run assertBinding).Valid := by
  have hunsettled : run.isSettled = false := by rw [Run.isSettled, hphase]
  have hrun : run ∈ session.runs := by
    rw [hruns]
    exact mem_append_right _ mem_cons_self
  obtain ⟨houtcome, hran, hreply⟩ := waiting_run hok.inOrder hruns hphase
  obtain ⟨hpositive, hsome⟩ := hok.fenced.strictRuns run hrun hstrict
  unfold Session.startStrict
  by_cases hblocked : session.isBlocked = true
  · rw [if_pos hblocked]
    exact hok.sendBack hruns hset hphase hturn hblocked hstrict
  rw [if_neg hblocked]
  by_cases hsettled : run.seq ≤ session.appliedSeq
  · rw [if_pos hsettled]
    have hunblocked := Bool.eq_false_iff.mpr hblocked
    have hkind : ∀ unknown : Prop, [Decidable unknown] →
        (if unknown then AdmissionKind.deliveryUnknown else .applied) ≠ .resend := by
      intro unknown _
      split_ifs <;> rintro ⟨⟩
    have hfits : (run.answer ⟨if run.seq ∈ session.unknownSeqs then .deliveryUnknown else .applied,
        run.seq⟩).Fits session.toProgress :=
      .repeated _ houtcome hran hsettled (Run.answer_reply? run _) (hkind _) fun hplain => by
        rw [Run.answer_isStrict, hstrict] at hplain
        cases hplain
    have hmoved := moved_answer hok hruns hset hunsettled hreply houtcome hturn hfits
    refine ⟨hmoved.inOrder hok.inOrder, hmoved.fenced hok.fenced (fun _ => ⟨hunblocked, fun _ =>
      ⟨?_, ?_, fun appliedSeq hresend => ?_⟩⟩) (fun strict hmem => ⟨strict, hmem, rfl⟩)
      fun hall _ _ => ?_⟩
    · rw [Run.answer_outcome, houtcome]
      rintro ⟨⟩
    · rw [Run.answer_outcome, houtcome]
      rintro ⟨⟩
    · rw [Run.answer_reply?] at hresend
      have hsame := congrArg TerminalInputAdmission.kind (Option.some.inj hresend)
      exact hkind _ hsame
    · -- Nothing is of unknown delivery while the session is not blocked.
      left
      have hfirst : session.begin.appliedSeq = 0 := by
        rw [begin, firstSettled, if_pos hsome]
      have hlast := hsettled
      rw [hok.inOrder.progress] at hlast
      obtain ⟨writer, hwriter, hsettles, hseq⟩ :=
        exists_settles hok.inOrder.fitting (by rw [hfirst]; exact hpositive) hlast
      refine ⟨writer, hwriter, hseq, ?_⟩
      rcases Bool.or_eq_true_iff.mp hsettles with happlied | hunknown
      · exact of_decide_eq_true happlied
      · have hnever := hok.fenced.unblocked hunblocked writer hwriter (hall writer hwriter)
        exact absurd (of_decide_eq_true hunknown) hnever.2.1
  rw [if_neg hsettled]
  by_cases hgap : run.seq ≠ session.appliedSeq + 1
  · rw [if_pos hgap]
    exact hok.block.sendBack hruns hset hphase hturn (isBlocked_block hsome) hstrict
  rw [if_neg hgap]
  have hseq : run.seq = session.appliedSeq + 1 := not_not.mp hgap
  split_ifs
  · exact hok.write hruns hset hphase houtcome hturn hseq
  · exact hok.conclude hruns hset hunsettled hreply houtcome hturn hseq (Or.inr ⟨hstrict, rfl⟩)

theorem Valid.startPlain
    (hplain : run.isStrict = false) : (session.startPlain index run).Valid := by
  have hunsettled : run.isSettled = false := by rw [Run.isSettled, hphase]
  have hrun : run ∈ session.runs := by
    rw [hruns]
    exact mem_append_right _ mem_cons_self
  obtain ⟨houtcome, hran, hreply⟩ := waiting_run hok.inOrder hruns hphase
  -- An unfenced link concerns the strict ones in nothing.
  have hanswer : ∀ reply, (run.answer reply).Fits session.toProgress →
      (session.setRun index (run.answer reply)).Valid := by
    intro reply hfits
    have hmoved := moved_answer hok hruns hset hunsettled hreply houtcome hturn hfits
    refine ⟨hmoved.inOrder hok.inOrder, hmoved.fenced hok.fenced
      (fun hunblocked => ⟨hunblocked, fun hstrict => ?_⟩) (fun strict hmem => ⟨strict, hmem, rfl⟩)
      fun hall _ _ => ?_⟩
    · rw [Run.answer_isStrict, hplain] at hstrict
      cases hstrict
    · have hstrict := hall run hrun
      rw [hplain] at hstrict
      cases hstrict
  unfold Session.startPlain
  split_ifs with hsettled hgap
  · refine hanswer _ (.repeated _ houtcome hran hsettled (Run.answer_reply? run _) ?_ fun _ => ?_)
    · split_ifs <;> rintro ⟨⟩
    · split_ifs with hunknown
      · exact iff_of_true rfl hunknown
      · exact iff_of_false (by rintro ⟨⟩) hunknown
  · exact hanswer _ (.sentBack houtcome hran (Run.answer_reply? run _) fun _ => hgap)
  · exact hok.write hruns hset hphase houtcome hturn (by omega)

end

theorem Valid.start (hok : session.Valid) (index : ℕ)
    (assertBinding : TerminalInputSessionBinding → Bool) :
    (session.start index assertBinding).Valid := by
  unfold Session.start
  cases hget : session.runs[index]? with
  | none => exact hok
  | some run =>
    obtain ⟨before, after, hruns, hlength, hset⟩ := split_at hget
    dsimp only
    split_ifs with hturn hstrict
    · exact hok.startStrict hruns hset hturn.1
        (settled_before hok.inOrder hruns hlength hturn.2) hstrict assertBinding
    · exact hok.startPlain hruns hset hturn.1
        (settled_before hok.inOrder hruns hlength hturn.2) (Bool.eq_false_iff.mpr hstrict)
    · exact hok

theorem settled_before_started (hok : session.InOrder)
    (hruns : session.runs = before ++ run :: after) (hstarted : run.phase ≠ .waiting) :
    ∀ earlier ∈ before, earlier.isSettled = true := by
  have hpairs := hok.turn
  rw [hruns] at hpairs
  intro earlier hearlier
  exact ((pairwise_append.mp hpairs).2.2 earlier hearlier run mem_cons_self).resolve_left hstarted

theorem fits_at (hok : session.InOrder) (hruns : session.runs = before ++ run :: after) :
    run.Fits (replay session.begin before) := by
  have hfitting := hok.fitting
  rw [hruns] at hfitting
  exact (fitting_append.mp hfitting).2.1

theorem Valid.writeEnds (hok : session.Valid) (index : ℕ) (outcome : TerminalInputWriteOutcome) :
    (session.writeEnds index outcome).Valid := by
  unfold Session.writeEnds
  cases hget : session.runs[index]? with
  | none => exact hok
  | some run =>
    obtain ⟨before, after, hruns, -, hset⟩ := split_at hget
    dsimp only
    by_cases hphase : run.phase = .writing
    · rw [if_pos hphase]
      have hunsettled : run.isSettled = false := by rw [Run.isSettled, hphase]
      have hreply : run.reply? = none := by rw [Run.reply?, hphase]
      have hstarted : run.phase ≠ .waiting := by
        rw [hphase]
        rintro ⟨⟩
      have hwriting : run.ran = true ∧ run.outcome = none ∧
          run.seq = (replay session.begin before).appliedSeq + 1 := by
        cases fits_at hok.inOrder hruns with
        | waiting hwaiting => exact absurd hwaiting hstarted
        | writing _ hran houtcome hseq => exact ⟨hran, houtcome, hseq⟩
        | concluded _ _ _ hsome | repeated _ _ _ _ hsome | sentBack _ _ hsome =>
          rw [hreply] at hsome
          cases hsome
      obtain ⟨hran, houtcome, hseq⟩ := hwriting
      rw [progress_at_turn hok.inOrder hruns hunsettled houtcome] at hseq
      exact hok.conclude hruns hset hunsettled hreply houtcome
        (settled_before_started hok.inOrder hruns hstarted) hseq (Or.inl hran)
    · rw [if_neg hphase]
      exact hok

/-- A strict run that is answered gives its charge back. -/
theorem Valid.finish (hok : session.Valid) (index : ℕ) : (session.finish index).1.Valid := by
  unfold Session.finish
  cases hget : session.runs[index]? with
  | none => exact hok
  | some run =>
    obtain ⟨before, after, hruns, -, hset⟩ := split_at hget
    dsimp only
    split
    · rename_i reply bytes hphase hcharged
      have hunsettled : run.isSettled = false := by rw [Run.isSettled, hphase]
      have hreply : run.reply? = some reply := by rw [Run.reply?, hphase]
      have hstarted : run.phase ≠ .waiting := by
        rw [hphase]
        rintro ⟨⟩
      have hfits : ({ run with phase := .settled reply } : Run).Fits
          (replay session.begin before) := by
        cases fits_at hok.inOrder hruns with
        | waiting hother | writing hother => rw [hphase] at hother; cases hother
        | concluded outcome houtcome hseq hsome hran =>
          exact .concluded outcome houtcome hseq (hreply.symm.trans hsome) hran
        | repeated kind houtcome hran hseq hsome hkind hplain =>
          exact .repeated kind houtcome hran hseq (hreply.symm.trans hsome) hkind hplain
        | sentBack houtcome hran hsome hgap =>
          exact .sentBack houtcome hran (hreply.symm.trans hsome) hgap
      have hmoved : Moved session
          { session.setRun index { run with phase := .settled reply } with
            strict := session.strict.map fun strict =>
              { strict with pending := strict.pending - 1, bytes := strict.bytes - bytes } }
          before after run { run with phase := .settled reply } :=
        ⟨hruns, hset _, hunsettled, rfl, rfl, settled_before_started hok.inOrder hruns hstarted,
          (by rintro ⟨⟩), hfits, (progress_through hok.inOrder hruns hunsettled).symm,
          Option.isSome_map,
          fun _ hother => hother, fun other hother => hreply.symm.trans hother⟩
      have hrun : run ∈ session.runs := by
        rw [hruns]
        exact mem_append_right _ mem_cons_self
      refine ⟨hmoved.inOrder hok.inOrder, hmoved.fenced hok.fenced (fun hunblocked => ?_)
        (fun strict hmem => ?_) fun hall appliedSeq happlied => Or.inl ?_⟩
      · have hbefore : session.isBlocked = false := by
          rw [isBlocked] at hunblocked ⊢
          rwa [Option.any_map] at hunblocked
        refine ⟨hbefore, fun hstrict => ?_⟩
        obtain ⟨hrefused, hunknown, hresend⟩ := hok.fenced.unblocked hbefore run hrun hstrict
        exact ⟨hrefused, hunknown, fun appliedSeq hsame =>
          hresend appliedSeq (hreply.trans hsame)⟩
      · obtain ⟨old, hold, rfl⟩ := Option.map_eq_some_iff.mp hmem
        exact ⟨old, hold, rfl⟩
      · exact hok.fenced.applied hall run hrun appliedSeq (hreply.trans happlied)
    · exact hok

end Session

end Wakii.TerminalInput
