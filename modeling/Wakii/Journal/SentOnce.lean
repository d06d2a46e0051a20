import Wakii.Journal.HandOffs

/-!
# A queued message is sent once

What each row can do to a queued card is read off one lemma.  A card is put back
only by the dispatch row of its own attempt, and an attempt that is settled, or
whose refusal in doubt is on record, puts it back no more, unless a later row
states a verdict or a proof on a refusal that reads as sent.
-/

namespace Wakii.SentOnce

open Bool List OrderedCollections Wakii.DispatchSettlement Wakii.JournalRows
open Wakii.Reducer Wakii.StaleWrites Wakii.HandOffs

variable {P : Type}

def submissionId (row : JournalRow P) : Option String :=
  match row.content with
  | .submission write => some write.clientMessageId
  | _ => none

def requeues (state : JournalReducerState P) (row : JournalRow P) : Bool :=
  match row.content with
  | .queue messageId (.queued _) => messageId ∈ state.queue.cards
  | _ => false

/-- A refusal that puts its card back: proven undelivered, or with a verdict no
command turn reports. -/
def putsBack (state : JournalReducerState P) (card : QueuedMessageRow P)
    (refusal : AgentJournalSubmission P) : Bool :=
  match queuedHandOffOutcome refusal.toHandOff with
  | .waiting => true
  | .inDoubt => false
  | .returned =>
    !(card.body.command.isSome && commandTurnReported state refusal.clientMessageId)

/-- A refusal that puts back a card whose attempt was refused in doubt before. -/
def reopensDoubt (runtime : JournalRuntime P) (state : JournalReducerState P)
    (row : JournalRow P) : Bool :=
  match row.content with
  | .dispatch dispatch =>
    dispatch.state = .rejected && dispatch.clientMessageId ∈ state.inputs.rejections &&
      match state.submissions.lookup dispatch.clientMessageId with
      | none => false
      | some submission =>
        journalDispatchRowApplies (some submission.dispatchState) &&
          match cardHandedOffAs state submission with
          | none => false
          | some card =>
            putsBack state card (settleDispatch runtime row.base dispatch submission)
  | _ => false

def everyStep (runtime : JournalRuntime P) (check : JournalReducerState P → JournalRow P → Bool) :
    JournalReducerState P → List (JournalRow P) → Bool
  | _, [] => true
  | state, row :: rest =>
    check state row && everyStep runtime check (applyJournalRow runtime state row) rest

section

variable (runtime : JournalRuntime P) (check : JournalReducerState P → JournalRow P → Bool)

theorem everyStep_append (state : JournalReducerState P) (before after : List (JournalRow P)) :
    everyStep runtime check state (before ++ after) = (everyStep runtime check state before &&
        everyStep runtime check (before.foldl (applyJournalRow runtime) state) after) := by
  induction before generalizing state with
  | nil => rfl
  | cons row rest ih =>
    rw [cons_append, everyStep, everyStep, ih, Bool.and_assoc]
    rfl

theorem everyStep_concat (sessionId epoch : String)
    (rows : List (JournalRow P)) (row : JournalRow P) :
    everyStep runtime check (createJournalReducerState sessionId epoch) (rows ++ [row]) =
      (everyStep runtime check (createJournalReducerState sessionId epoch) rows &&
        check (replay runtime sessionId epoch rows) row) := by
  rw [everyStep_append, everyStep, everyStep, Bool.and_true]
  rfl

end

variable {row : JournalRow P} {runtime : JournalRuntime P} {before after : List (JournalRow P)}

theorem everyStep_at {check : JournalReducerState P → JournalRow P → Bool}
    {sessionId epoch : String}
    (hevery : everyStep runtime check (createJournalReducerState sessionId epoch)
      (before ++ row :: after)) :
    everyStep runtime check (createJournalReducerState sessionId epoch) before ∧
      check (replay runtime sessionId epoch before) row := by
  rw [everyStep_append, everyStep, and_eq_true, and_eq_true] at hevery
  exact ⟨hevery.1, hevery.2.1⟩

/-! ## What a row does to a card -/

/-- A dispatch row puts back or keeps the card handed off as its submission. -/
structure SettlesCard (runtime : JournalRuntime P) (row : JournalRow P) (messageId : String)
    (card : QueuedMessageRow P) (state next : JournalReducerState P) where
  dispatch : JournalDispatch
  submission : AgentJournalSubmission P
  content : row.content = .dispatch dispatch
  stored : state.submissions.lookup dispatch.clientMessageId = some submission
  applies : journalDispatchRowApplies (some submission.dispatchState)
  handed : cardHandedOffAs state submission = some card
  effect : DispatchEffect runtime row.base dispatch submission state next
  settled : next.queue.cards.lookup messageId = some
    (settledHandOff state card (settleDispatch runtime row.base dispatch submission))

/-- A card stays where it is or is withdrawn, is handed off anew, or is settled
by a dispatch row of its own attempt. -/
inductive CardStep (runtime : JournalRuntime P) (row : JournalRow P) (messageId : String)
    (card : QueuedMessageRow P) (state next : JournalReducerState P) : Prop
  | stays (later : QueuedMessageRow P)
      (hlater : next.queue.cards.lookup messageId = some later)
      (hconsumed : later.consumedAs = card.consumedAs)
      (hstate : later.state = card.state ∨ later.state = .withdrawn)
  | handedOff (write : JournalSubmissionWrite P) (hcontent : row.content = .submission write)
      (hmessage : write.queuedMessageId = some messageId)
      (hlater : next.queue.cards.lookup messageId = some (handedOffCard card write.clientMessageId))
  | settled (hsettles : Nonempty (SettlesCard runtime row messageId card state next))

theorem queue_applyJournalRow (runtime : JournalRuntime P) (state : JournalReducerState P)
    (row : JournalRow P) :
    (applyJournalRow runtime state row).queue =
      (foldJournalQueueRow runtime (applyJournalRowFacts runtime state row) row).queue :=
  (obligations_frame _ row _).2.1

variable {state : JournalReducerState P} {card : QueuedMessageRow P}

/-- A queue row never changes who consumed a card. -/
theorem cardStep_applyQueueRow (runtime : JournalRuntime P) (hkeyed : KeyedCards state)
    {messageId other : String} {change : JournalQueueChange P}
    (hcard : state.queue.cards.lookup messageId = some card)
    (hnew : ∀ queued, change = .queued queued → other ≠ messageId) :
    ∃ later, (applyQueueRow runtime state other change).queue.cards.lookup messageId = some later ∧
      later.consumedAs = card.consumedAs ∧
        (later.state = card.state ∨ later.state = .withdrawn) := by
  have hset : ∀ found, state.queue.cards.lookup other = some found →
      ∀ changed : QueuedMessageRow P, changed.messageId = found.messageId →
        changed.consumedAs = found.consumedAs →
          (changed.state = found.state ∨ changed.state = .withdrawn) →
            ∃ later, (setCard state changed).queue.cards.lookup messageId = some later ∧
              later.consumedAs = card.consumedAs ∧
                (later.state = card.state ∨ later.state = .withdrawn) := by
    intro found hfound changed hid hconsumed hstate
    have hother := hid.trans (hkeyed other found hfound)
    by_cases hself : messageId = other
    · rw [hself, hfound] at hcard
      cases hcard
      refine ⟨changed, ?_, hconsumed, hstate⟩
      rw [hself, ← hother]
      exact lookup_setCard_self state changed
    · refine ⟨card, ?_, rfl, Or.inl rfl⟩
      rw [lookup_setCard_ne state changed (by rw [hother]; exact hself)]
      exact hcard
  unfold applyQueueRow
  split
  · rename_i queued
    have hqueue : (applyQueuedChange runtime state other queued).queue =
        (setCard state (queuedCardFromChange runtime state other queued)).queue :=
      (queueUnlinkRule.settleAttempt _ _).trans (queueUnlinkRule.settleRecovered _ _ _)
    refine ⟨card, ?_, rfl, Or.inl rfl⟩
    rw [hqueue, lookup_setCard_ne]
    · exact hcard
    · rw [messageId_queuedCardFromChange]
      exact (hnew queued rfl).symm
  · exact ⟨card, hcard, rfl, Or.inl rfl⟩
  · rename_i body found hfound
    exact hset found hfound _ rfl rfl (Or.inl rfl)
  · rename_i position found hfound
    exact hset found hfound _ rfl rfl (Or.inl rfl)
  · rename_i holdReason found hfound
    split
    · exact hset found hfound _ rfl rfl (Or.inl rfl)
    · exact hset found hfound _ rfl rfl (Or.inl rfl)
  · rename_i found hfound
    exact hset found hfound _ rfl rfl (Or.inr rfl)

variable {card : QueuedMessageRow P} {messageId : String}

theorem cardStep_spends {state facts next : JournalReducerState P}
    (hcard : state.queue.cards.lookup messageId = some card) (hkeyed : KeyedCards facts)
    (hfacts : facts.queue = state.queue)
    (hnext : next.queue = (spendReportedCommandCards facts).queue) :
    CardStep runtime row messageId card state next := by
  have hspends := spendsReported_spendReportedCommandCards hkeyed
  rcases hspends.cards messageId with hsame | ⟨prior, hprior, _, hspent⟩
  · refine .stays card ?_ rfl (Or.inl rfl)
    rw [hnext, hsame, hfacts]
    exact hcard
  · rw [hfacts, hcard] at hprior
    cases hprior
    rw [← hnext] at hspent
    exact .stays { card with state := .withdrawn } hspent rfl (Or.inr rfl)

variable {row : JournalRow P}

/-- What a row does to one card, where it puts none back. -/
theorem cardStep_applyJournalRow (runtime : JournalRuntime P) (hinvariant : HandOffInvariant state)
    (hrequeue : requeues state row = false) {messageId : String}
    (hcard : state.queue.cards.lookup messageId = some card) :
    CardStep runtime row messageId card state (applyJournalRow runtime state row) := by
  have hqueue := queue_applyJournalRow runtime state row
  have hfacts := queue_applyJournalRowFacts runtime state row
  have hfactsKeyed := hinvariant.keyed.of_queue hfacts
  have hstays : (applyJournalRow runtime state row).queue = state.queue →
      CardStep runtime row messageId card state (applyJournalRow runtime state row) := by
    intro hsame
    exact .stays card (hsame ▸ hcard) rfl (Or.inl rfl)
  obtain ⟨base, content⟩ := row
  cases content with
  | epoch => exact hstays (hqueue.trans hfacts)
  | tombstone tombstone => exact hstays (hqueue.trans hfacts)
  | item write => exact cardStep_spends hcard hfactsKeyed hfacts hqueue
  | lifecycleBatch settlementId mutations =>
    exact cardStep_spends hcard hfactsKeyed hfacts hqueue
  | queue other change =>
    have hfactsCard : (applyJournalRowFacts runtime state
        ⟨base, .queue other change⟩).queue.cards.lookup messageId = some card := hcard
    have hnew : ∀ queued, change = .queued queued → other ≠ messageId := by
      rintro queued rfl rfl
      have hmember : other ∈ state.queue.cards := AList.lookup_isSome.mp (by rw [hcard]; rfl)
      simp [requeues, hmember] at hrequeue
    obtain ⟨later, hlater, hconsumed, hstate⟩ :=
      cardStep_applyQueueRow runtime hfactsKeyed hfactsCard hnew
    exact .stays later (hqueue ▸ hlater) hconsumed hstate
  | submission write =>
    have hhanded : (applyJournalRow runtime state ⟨base, .submission write⟩).queue =
        (handOffCard (applyJournalRowFacts runtime state ⟨base, .submission write⟩)
          write.clientMessageId write.queuedMessageId).queue := hqueue
    unfold handOffCard at hhanded
    rw [hfacts] at hhanded
    split at hhanded
    · exact hstays (hhanded.trans hfacts)
    · rename_i handed hlookup
      obtain ⟨named, hnamed, hstored⟩ := Option.bind_eq_some_iff.mp hlookup
      have hid := hinvariant.keyed named handed hstored
      by_cases hself : messageId = named
      · subst hself
        rw [hcard] at hstored
        cases hstored
        refine .handedOff write rfl hnamed ?_
        rw [hhanded, ← hid]
        exact lookup_setCard_self _ (handedOffCard card write.clientMessageId)
      · refine .stays card ?_ rfl (Or.inl rfl)
        have hother := lookup_setCard_ne (applyJournalRowFacts runtime state
          ⟨base, .submission write⟩) (handedOffCard handed write.clientMessageId)
          (show messageId ≠ handed.messageId by rw [hid]; exact hself)
        rw [hhanded, hother, hfacts]
        exact hcard
  | dispatch dispatch =>
    cases happlies : dispatchApplies state (⟨base, .dispatch dispatch⟩ : JournalRow P) with
    | false =>
      obtain ⟨_, _, hcards⟩ := ignored_dispatch hinvariant runtime base dispatch happlies
      exact .stays card ((hcards messageId).trans hcard) rfl (Or.inl rfl)
    | true =>
      cases hlookup : state.submissions.lookup dispatch.clientMessageId with
      | none => simp [dispatchApplies, hlookup, journalDispatchRowApplies] at happlies
      | some submission =>
        rw [dispatchApplies_eq base hlookup] at happlies
        have heffect := dispatchEffect_applyJournalRow hinvariant runtime base hlookup happlies
        rcases heffect.cards messageId with ⟨hsame, _⟩ | ⟨prior, hprior, hid, hsettled⟩
        · exact .stays card (hsame.trans hcard) rfl (Or.inl rfl)
        · have hstored := (of_cardHandedOffAs hinvariant.keyed hprior).2.1
          rw [hid, hcard] at hstored
          cases hstored
          exact .settled ⟨⟨dispatch, submission, rfl, hlookup, happlies, hprior, heffect, hsettled⟩⟩

/-! ## What a row does to the ledger -/

/-- Refusals on record stay, and only its own row admits a submission. -/
structure LedgerStep (row : JournalRow P) (state next : JournalReducerState P) : Prop where
  rejections : ∀ id, id ∈ state.inputs.rejections → id ∈ next.inputs.rejections
  origin : ∀ id, id ∈ next.submissions → id ∈ state.submissions ∨ submissionId row = some id

variable {state next : JournalReducerState P}

theorem LedgerStep.of_changes (hrejections : next.inputs.rejections = state.inputs.rejections)
    (hchanges : ∀ id, next.submissions.lookup id = state.submissions.lookup id ∨
      ∃ submission, state.submissions.lookup id = some submission) :
    LedgerStep row state next where
  rejections id hid := hrejections ▸ hid
  origin id hid := by
    rcases hchanges id with hsame | ⟨submission, hprior⟩
    · rw [← AList.lookup_isSome, hsame, AList.lookup_isSome] at hid
      exact Or.inl hid
    · exact Or.inl (AList.lookup_isSome.mp (by rw [hprior]; rfl))

theorem LedgerStep.trans {first second third : JournalReducerState P}
    (hfirst : LedgerStep row first second) (hsecond : LedgerStep row second third) :
    LedgerStep row first third where
  rejections id hid := hsecond.rejections id (hfirst.rejections id hid)
  origin id hid := (hsecond.origin id hid).elim (hfirst.origin id) Or.inr

theorem ledgerStep_setSubmission {key : String} {old : AgentJournalSubmission P}
    (new : AgentJournalSubmission P) (hold : state.submissions.lookup key = some old) :
    LedgerStep row state (setSubmission state key new) := by
  refine LedgerStep.of_changes rfl fun id => ?_
  by_cases hid : id = key
  · exact Or.inr ⟨old, hid ▸ hold⟩
  · exact Or.inl (OrderedMap.lookup_set_ne _ _ hid)

section

variable (row)

theorem ledgerStepRule : TimelineRule (LedgerStep row) :=
  sameLedgerRule.mono (fun hsame => LedgerStep.of_changes (by rw [hsame.inputs])
    fun id => Or.inl (by rw [hsame.submissions])) LedgerStep.trans

theorem ledgerStepFactsRule : FactsRule (LedgerStep row) where
  toTimelineRule := ledgerStepRule row
  echo _ _ := LedgerStep.of_changes rfl fun _ => Or.inl rfl
  accept _ _ hlookup _ := ledgerStep_setSubmission _ hlookup
  settle _ _ _ hlookup _ := ledgerStep_setSubmission _ hlookup

theorem ledgerStepUnlinkRule : UnlinkRule (LedgerStep row) where
  toTimelineRule := ledgerStepRule row
  unlink hlookup := ledgerStep_setSubmission _ hlookup

theorem ledgerStep_applyJournalRow (runtime : JournalRuntime P) (state : JournalReducerState P) :
    LedgerStep row state (applyJournalRow runtime state row) := by
  have hfacts := (ledgerStepFactsRule row).applyJournalRowFacts runtime state row
    (fun write hcontent state => ⟨fun _ hid => hid, fun id hid => by
      rcases OrderedMap.mem_set.mp hid with rfl | hprior
      · exact Or.inr (by rw [submissionId, hcontent])
      · exact Or.inl hprior⟩)
    fun _ _ _ _ => LedgerStep.of_changes rfl fun _ => Or.inl rfl
  have hqueued := hfacts.trans ((ledgerStepUnlinkRule row).foldJournalQueueRow runtime _
    (fun _ _ => LedgerStep.of_changes rfl fun _ => Or.inl rfl) row)
  have hobliged : ∀ queued applies,
      LedgerStep row queued (foldJournalInputObligations queued row applies) := by
    intro queued applies
    unfold foldJournalInputObligations foldRefusalInDoubt
    split
    · exact ⟨fun _ hid => hid, fun _ hid => Or.inl hid⟩
    · split
      · split
        · exact (ledgerStepRule row).refl _
        · rename_i send hlookup
          split
          · have hset := @ledgerStep_setSubmission _ row queued _ _
              (foldQueuedHandOffInDoubt send) hlookup
            exact ⟨fun _ hid => OrderedMap.mem_set.mpr (Or.inr hid), hset.origin⟩
          · exact (ledgerStepRule row).refl _
      · exact (ledgerStepRule row).refl _
    · exact (ledgerStepRule row).refl _
  have hrow := hqueued.trans (hobliged _ (dispatchApplies state row))
  exact ⟨hrow.rejections, hrow.origin⟩

end

/-! ## Attempts that are spent -/

def Spent (state : JournalReducerState P) (id : String) : Prop :=
  (∃ submission, state.submissions.lookup id = some submission ∧
      isSettled submission.dispatchState) ∨
    id ∈ state.inputs.rejections

variable {id : String}

theorem Spent.applyJournalRow (hspent : Spent state id) (runtime : JournalRuntime P)
    (hown : submissionId row ≠ some id) :
    Spent (Reducer.applyJournalRow runtime state row) id := by
  rcases hspent with ⟨submission, hlookup, hsettled⟩ | hrefused
  · have hnotOwn : ∀ write, row.content = .submission write → write.clientMessageId ≠ id := by
      rintro write hcontent rfl
      exact hown (by simp [submissionId, hcontent])
    obtain ⟨kept, hkept, hstate⟩ :=
      keepsSettled_applyJournalRow runtime id state row hnotOwn submission hlookup hsettled
    exact Or.inl ⟨kept, hkept, by rw [hstate]; exact hsettled⟩
  · exact Or.inr ((ledgerStep_applyJournalRow row runtime state).rejections id hrefused)

variable {settled : AgentJournalSubmission P}

theorem settledHandOff_of_not_putsBack
    (hkept : settled.dispatchState = .rejected → putsBack state card settled = false) :
    (settledHandOff state card settled).consumedAs = card.consumedAs ∧
      ((settledHandOff state card settled).state = card.state ∨
        (settledHandOff state card settled).state = .withdrawn) := by
  unfold settledHandOff
  split
  · exact ⟨rfl, Or.inl rfl⟩
  · rename_i hrefused
    have hstays := hkept (not_not.mp hrefused)
    unfold putsBack at hstays
    unfold rejectedCardTransition
    cases houtcome : queuedHandOffOutcome settled.toHandOff with
    | waiting =>
      rw [houtcome] at hstays
      exact absurd hstays (by simp)
    | inDoubt => exact ⟨rfl, Or.inl rfl⟩
    | returned =>
      rw [houtcome] at hstays
      have hreported : (card.body.command.isSome &&
          commandTurnReported state settled.clientMessageId) = true := by
        simpa using hstays
      dsimp only
      rw [if_pos hreported]
      exact ⟨rfl, Or.inr rfl⟩

theorem SettlesCard.consumedAs (hsettles : SettlesCard runtime row messageId card state next)
    (hinvariant : HandOffInvariant state) :
    card.consumedAs = some hsettles.dispatch.clientMessageId := by
  have hhanded := (of_cardHandedOffAs hinvariant.keyed hsettles.handed).2.2.2
  rwa [hinvariant.own _ _ hsettles.stored] at hhanded

theorem settledHandOff_waiting (hdispatched : card.state = .dispatched)
    (hwaiting : (settledHandOff state card settled).state = .waiting) :
    settled.dispatchState = .rejected ∧ queuedHandOffOutcome settled.toHandOff = .waiting := by
  unfold settledHandOff rejectedCardTransition at hwaiting
  split at hwaiting
  · rw [hdispatched] at hwaiting
    exact absurd hwaiting (by simp)
  · rename_i hrefused
    refine ⟨not_not.mp hrefused, ?_⟩
    split at hwaiting
    · assumption
    · rw [hdispatched] at hwaiting
      exact absurd hwaiting (by simp)
    · split at hwaiting
      · exact absurd hwaiting (by simp)
      · exact absurd hwaiting (by simp)

variable {card later : QueuedMessageRow P}

theorem SettlesCard.waiting (hsettles : SettlesCard runtime row messageId card state next)
    (hdispatched : card.state = .dispatched)
    (hlater : next.queue.cards.lookup messageId = some later) (hwaiting : later.state = .waiting) :
    ∃ settled, next.submissions.lookup hsettles.dispatch.clientMessageId = some settled ∧
      settled.dispatchState = .rejected ∧
        agentJournalSubmissionProvenUnwritten settled.toHandOff := by
  have hsettled := hsettles.settled
  rw [hlater, Option.some.injEq] at hsettled
  subst hsettled
  obtain ⟨hrejected, houtcome⟩ := settledHandOff_waiting hdispatched hwaiting
  obtain ⟨final, hfinal, _, _, hread⟩ := hsettles.effect.settled
  rcases hread with ⟨hsame, _⟩ | ⟨_, hdoubt, _, _⟩
  · refine ⟨final, hfinal, ?_, ?_⟩
    · rw [hsame]
      exact hrejected
    · rw [hsame]
      exact provenUnwritten_of_waiting houtcome
  · rw [houtcome] at hdoubt
    exact absurd hdoubt (by simp)

/-- The dispatch row of a spent attempt leaves its card, or withdraws it. -/
theorem SettlesCard.stays {messageId id : String}
    (hsettles : SettlesCard runtime row messageId card state next)
    (hinvariant : HandOffInvariant state) (hdoubt : reopensDoubt runtime state row = false)
    (hconsumed : card.consumedAs = some id) (hspent : Spent state id) :
    ∃ later, next.queue.cards.lookup messageId = some later ∧
      (later.state = card.state ∨ later.state = .withdrawn) := by
  have hid := hsettles.consumedAs hinvariant
  rw [hconsumed, Option.some.injEq] at hid
  obtain ⟨dispatch, submission, hcontent, hlookup, happlies, hhanded, _, hsettled⟩ := hsettles
  have hrefused : dispatch.clientMessageId ∈ state.inputs.rejections := by
    rcases hspent with ⟨found, hfound, hfoundSettled⟩ | hrefused
    · rw [hid, hlookup] at hfound
      cases hfound
      rw [not_isSettled_of_applies happlies] at hfoundSettled
      exact absurd hfoundSettled (by decide)
    · exact hid ▸ hrefused
  have hstays : (settleDispatch runtime row.base dispatch submission).dispatchState =
      .rejected → putsBack state card
        (settleDispatch runtime row.base dispatch submission) = false := by
    intro hrejected
    have hstate : dispatch.state = .rejected := hrejected
    simpa [reopensDoubt, hcontent, hstate, hrefused, hlookup, happlies, hhanded] using hdoubt
  exact ⟨_, hsettled, (settledHandOff_of_not_putsBack hstays).2⟩

theorem settlesCard_of_putBack (runtime : JournalRuntime P) (hinvariant : HandOffInvariant state)
    (hrequeue : requeues state row = false) {messageId : String}
    (hcard : state.queue.cards.lookup messageId = some card)
    (hlater : (applyJournalRow runtime state row).queue.cards.lookup messageId = some later)
    (hback : later.state = .waiting ∨ later.state = .returned) (hmoved : later.state ≠ card.state) :
    Nonempty (SettlesCard runtime row messageId card state
      (applyJournalRow runtime state row)) := by
  cases cardStep_applyJournalRow runtime hinvariant hrequeue hcard with
  | stays found hfound _ hstate =>
    rw [hlater] at hfound
    cases hfound
    rcases hstate with hsame | hwithdrawn
    · exact absurd hsame hmoved
    · rw [hwithdrawn] at hback
      exact absurd hback (by simp)
  | handedOff write _ _ hfound =>
    rw [hlater] at hfound
    cases hfound
    exact absurd hback (by simp [handedOffCard])
  | settled hsettles => exact hsettles

/-! ## Runs -/

theorem handOffInvariant_foldl (runtime : JournalRuntime P) (rows : List (JournalRow P))
    (hinvariant : HandOffInvariant state) :
    HandOffInvariant (rows.foldl (applyJournalRow runtime) state) := by
  induction rows generalizing state with
  | nil => exact hinvariant
  | cons row rest ih => exact ih (hinvariant.applyJournalRow runtime row)

theorem handOffInvariant_replay (runtime : JournalRuntime P) (sessionId epoch : String)
    (rows : List (JournalRow P)) : HandOffInvariant (replay runtime sessionId epoch rows) :=
  handOffInvariant_foldl runtime rows (handOffInvariant_create sessionId epoch)

theorem admitted_of_mem (runtime : JournalRuntime P) (sessionId epoch : String)
    (rows : List (JournalRow P)) (hid : id ∈ (replay runtime sessionId epoch rows).submissions) :
    id ∈ rows.filterMap submissionId := by
  induction rows using List.reverseRecOn with
  | nil => exact absurd hid (AList.notMem_empty id)
  | append_singleton rows row ih =>
    rw [replay_concat] at hid
    rw [filterMap_append, mem_append]
    rcases (ledgerStep_applyJournalRow row runtime _).origin id hid with hprior | hown
    · exact Or.inl (ih hprior)
    · exact Or.inr (by simp [hown])

theorem not_admitted_again (hone : ((before ++ after).filterMap submissionId).Nodup)
    (hid : id ∈ before.filterMap submissionId) : ∀ row ∈ after, submissionId row ≠ some id := by
  intro row hrow hown
  rw [filterMap_append, nodup_append] at hone
  have hagain : id ∈ after.filterMap submissionId := mem_filterMap.mpr ⟨row, hrow, hown⟩
  exact hone.2.2 id hid id hagain rfl

theorem spent_foldl (runtime : JournalRuntime P) (rows : List (JournalRow P))
    (hspent : Spent state id) (hown : ∀ row ∈ rows, submissionId row ≠ some id) :
    Spent (rows.foldl (applyJournalRow runtime) state) id := by
  induction rows generalizing state with
  | nil => exact hspent
  | cons row rest ih =>
    have hrow := hown row mem_cons_self
    exact ih (hspent.applyJournalRow runtime hrow)
      fun later hlater => hown later (mem_cons_of_mem row hlater)

/-- The attempt of a card after some rows: the one it had, none, or one that a
row in between handed it off as. -/
def AttemptAfter (rows : List (JournalRow P)) (messageId attempt : String)
    (card : QueuedMessageRow P) : Prop :=
  card.consumedAs = some attempt ∨ card.consumedAs = none ∨
    ∃ row ∈ rows, ∃ write, row.content = .submission write ∧
      write.queuedMessageId = some messageId ∧ card.consumedAs = some write.clientMessageId

theorem attemptAfter_settledHandOff {rows : List (JournalRow P)} {messageId attempt : String}
    (hattempt : AttemptAfter rows messageId attempt card)
    (state : JournalReducerState P) (settled : AgentJournalSubmission P) :
    AttemptAfter rows messageId attempt (settledHandOff state card settled) := by
  unfold settledHandOff rejectedCardTransition
  split
  · exact hattempt
  · split
    · exact Or.inr (Or.inl rfl)
    · exact hattempt
    · split
      · exact hattempt
      · exact hattempt

theorem attemptAfter_replay (runtime : JournalRuntime P) (sessionId epoch : String)
    {before : List (JournalRow P)} {messageId attempt : String}
    (hcard : (replay runtime sessionId epoch before).queue.cards.lookup messageId = some card)
    (hconsumed : card.consumedAs = some attempt) (middle : List (JournalRow P))
    (hrequeue : everyStep runtime (fun state row => !requeues state row)
      (createJournalReducerState sessionId epoch) (before ++ middle)) :
    ∃ later, (replay runtime sessionId epoch (before ++ middle)).queue.cards.lookup messageId =
        some later ∧ AttemptAfter middle messageId attempt later := by
  induction middle using List.reverseRecOn with
  | nil =>
    rw [append_nil]
    exact ⟨card, hcard, Or.inl hconsumed⟩
  | append_singleton middle row ih =>
    rw [← append_assoc, everyStep_concat, and_eq_true, not_eq_true'] at hrequeue
    obtain ⟨prior, hprior, hattempt⟩ := ih hrequeue.1
    have hgrown : AttemptAfter (middle ++ [row]) messageId attempt prior := by
      rcases hattempt with hsame | hnone | ⟨found, hfound, write, hwrite⟩
      · exact Or.inl hsame
      · exact Or.inr (Or.inl hnone)
      · exact Or.inr (Or.inr ⟨found, mem_append_left _ hfound, write, hwrite⟩)
    rw [← append_assoc, replay_concat]
    have hinvariant := handOffInvariant_replay runtime sessionId epoch (before ++ middle)
    cases cardStep_applyJournalRow runtime hinvariant hrequeue.2 hprior with
    | stays later hlater hsame _ =>
      refine ⟨later, hlater, ?_⟩
      rw [AttemptAfter, hsame]
      exact hgrown
    | handedOff write hcontent hmessage hlater =>
      exact ⟨_, hlater, Or.inr (Or.inr ⟨row, by simp, write, hcontent, hmessage, rfl⟩)⟩
    | settled hsettles =>
      obtain ⟨hsettles⟩ := hsettles
      exact ⟨_, hsettles.settled, attemptAfter_settledHandOff hgrown _ _⟩

/-- A dispatch row that refuses an attempt without a proof of no delivery. -/
def refusesUnproven (runtime : JournalRuntime P) (id : String) (state : JournalReducerState P)
    (row : JournalRow P) : Bool :=
  match row.content with
  | .dispatch dispatch =>
    dispatch.clientMessageId = id && dispatch.state = .rejected &&
      match state.submissions.lookup id with
      | none => false
      | some submission =>
        journalDispatchRowApplies (some submission.dispatchState) &&
          !agentJournalSubmissionProvenUnwritten
            (settleDispatch runtime row.base dispatch submission).toHandOff
  | _ => false

theorem Spent.of_refusesUnproven (runtime : JournalRuntime P) (hinvariant : HandOffInvariant state)
    (hrefuses : refusesUnproven runtime id state row) :
    Spent (Reducer.applyJournalRow runtime state row) id ∧ id ∈ state.submissions := by
  obtain ⟨base, content⟩ := row
  cases content with
  | dispatch dispatch =>
    simp only [refusesUnproven, and_eq_true, decide_eq_true_eq] at hrefuses
    obtain ⟨⟨rfl, hstate⟩, hrefuses⟩ := hrefuses
    cases hlookup : state.submissions.lookup dispatch.clientMessageId with
    | none =>
      rw [hlookup] at hrefuses
      exact absurd hrefuses (by simp)
    | some submission =>
      rw [hlookup] at hrefuses
      have happlies := (and_eq_true_iff.mp hrefuses).1
      have heffect := dispatchEffect_applyJournalRow hinvariant runtime base hlookup happlies
      obtain ⟨final, hfinal, _, _, hread⟩ := heffect.settled
      refine ⟨?_, AList.lookup_isSome.mp (by rw [hlookup]; rfl)⟩
      rcases hread with ⟨hsame, _⟩ | ⟨_, _, _, hrefused⟩
      · have hrejected : final.dispatchState = .rejected := by
          rw [hsame]
          exact hstate
        exact Or.inl ⟨final, hfinal, by rw [hrejected]; rfl⟩
      · exact Or.inr hrefused
  | epoch => exact absurd hrefuses (by simp [refusesUnproven])
  | item write => exact absurd hrefuses (by simp [refusesUnproven])
  | tombstone tombstone => exact absurd hrefuses (by simp [refusesUnproven])
  | submission write => exact absurd hrefuses (by simp [refusesUnproven])
  | lifecycleBatch settlementId mutations => exact absurd hrefuses (by simp [refusesUnproven])
  | queue messageId change => exact absurd hrefuses (by simp [refusesUnproven])

def refusedUnproven (runtime : JournalRuntime P) (sessionId epoch : String)
    (rows : List (JournalRow P)) (id : String) : Bool :=
  !everyStep runtime (fun state row => !refusesUnproven runtime id state row)
    (createJournalReducerState sessionId epoch) rows

theorem Spent.of_refusedUnproven (runtime : JournalRuntime P) (sessionId epoch : String)
    {rows : List (JournalRow P)} (hone : (rows.filterMap submissionId).Nodup)
    (hrefused : refusedUnproven runtime sessionId epoch rows id) :
    Spent (replay runtime sessionId epoch rows) id ∧ id ∈ rows.filterMap submissionId := by
  induction rows using List.reverseRecOn with
  | nil => exact absurd hrefused (by simp [refusedUnproven, everyStep])
  | append_singleton rows row ih =>
    have hprior := (nodup_append.mp (filterMap_append ▸ hone)).1
    have hinvariant := handOffInvariant_replay runtime sessionId epoch rows
    rw [refusedUnproven, everyStep_concat, Bool.not_and, Bool.not_not, Bool.or_eq_true] at hrefused
    rw [replay_concat, filterMap_append, mem_append]
    rcases hrefused with hearlier | hnow
    · obtain ⟨hspent, hadmitted⟩ := ih hprior hearlier
      have hown := not_admitted_again hone hadmitted row mem_cons_self
      exact ⟨hspent.applyJournalRow runtime hown, Or.inl hadmitted⟩
    · obtain ⟨hspent, hmember⟩ := Spent.of_refusesUnproven runtime hinvariant hnow
      exact ⟨hspent, Or.inl (admitted_of_mem runtime sessionId epoch rows hmember)⟩

/-- A queued message is put back only by a refusal of its own attempt that
proves no delivery; and where no row reopens a refusal in doubt, an attempt that
was accepted or refused without that proof puts its card back no more: whatever
later row does is the answer of an attempt handed off in between. -/
theorem queued_message_sent_once (runtime : JournalRuntime P) (sessionId epoch : String)
    (rows : List (JournalRow P)) (hone : (rows.filterMap submissionId).Nodup)
    (hrequeue : everyStep runtime (fun state row => !requeues state row)
      (createJournalReducerState sessionId epoch) rows) :
    (∀ before row after messageId card later, rows = before ++ row :: after →
      let early := replay runtime sessionId epoch before
      let late := applyJournalRow runtime early row
      early.queue.cards.lookup messageId = some card → card.state = .dispatched →
      late.queue.cards.lookup messageId = some later → later.state = .waiting →
      ∃ dispatch submission settled, row.content = .dispatch dispatch ∧
        card.consumedAs = some dispatch.clientMessageId ∧
        early.submissions.lookup dispatch.clientMessageId = some submission ∧
        submission.dispatchState ≠ .accepted ∧ submission.dispatchState ≠ .rejected ∧
        late.submissions.lookup dispatch.clientMessageId = some settled ∧
        settled.dispatchState = .rejected ∧
        agentJournalSubmissionProvenUnwritten settled.toHandOff) ∧
    (everyStep runtime (fun state row => !reopensDoubt runtime state row)
      (createJournalReducerState sessionId epoch) rows →
      ∀ before middle row after messageId attempt card prior later,
      rows = before ++ middle ++ row :: after →
      let early := replay runtime sessionId epoch before
      let state := replay runtime sessionId epoch (before ++ middle)
      let late := applyJournalRow runtime state row
      early.queue.cards.lookup messageId = some card → card.consumedAs = some attempt →
      ((∃ submission, early.submissions.lookup attempt = some submission ∧
          submission.dispatchState = .accepted) ∨
        refusedUnproven runtime sessionId epoch before attempt) →
      state.queue.cards.lookup messageId = some prior →
      late.queue.cards.lookup messageId = some later → later.state ≠ prior.state →
      later.state = .waiting ∨ later.state = .returned →
      ∃ dispatch, row.content = .dispatch dispatch ∧
        ∃ handedOff ∈ middle, ∃ write, handedOff.content = .submission write ∧
          write.queuedMessageId = some messageId ∧
          write.clientMessageId = dispatch.clientMessageId) := by
  constructor
  · intro before row after messageId card later hrows early late hcard hdispatched hlater
      hwaiting
    have hinvariant := handOffInvariant_replay runtime sessionId epoch before
    rw [hrows] at hrequeue
    have hrow : requeues early row = false := by simpa using (everyStep_at hrequeue).2
    have hmoved : later.state ≠ card.state := by
      rw [hwaiting, hdispatched]
      decide
    obtain ⟨hsettles⟩ := settlesCard_of_putBack runtime hinvariant hrow hcard hlater
      (Or.inl hwaiting) hmoved
    obtain ⟨settled, hsettled, hrejected, hproof⟩ := hsettles.waiting hdispatched hlater hwaiting
    have hopen := not_isSettled_of_applies hsettles.applies
    simp only [isSettled, or_eq_false_iff, decide_eq_false_iff_not] at hopen
    exact ⟨hsettles.dispatch, hsettles.submission, settled, hsettles.content,
      hsettles.consumedAs hinvariant, hsettles.stored, hopen.1, hopen.2, hsettled, hrejected,
      hproof⟩
  · intro hdoubt before middle row after messageId attempt card prior later hrows early state
      late hcard hconsumed hspent hprior hlater hmoved hback
    have hinvariant := handOffInvariant_replay runtime sessionId epoch (before ++ middle)
    rw [hrows] at hone hrequeue hdoubt
    obtain ⟨hmiddle, hrow⟩ := everyStep_at hrequeue
    have hclosed : reopensDoubt runtime state row = false := by
      simpa using (everyStep_at hdoubt).2
    obtain ⟨hsettles⟩ := settlesCard_of_putBack runtime hinvariant
      (by simpa using hrow) hprior hlater hback hmoved
    have hdispatch := hsettles.consumedAs hinvariant
    rw [append_assoc] at hone
    have hearly : Spent early attempt ∧ attempt ∈ before.filterMap submissionId := by
      rcases hspent with ⟨submission, hlookup, haccepted⟩ | hrefused
      · refine ⟨Or.inl ⟨submission, hlookup, by rw [haccepted]; rfl⟩, ?_⟩
        exact admitted_of_mem runtime sessionId epoch before
          (AList.lookup_isSome.mp (by rw [hlookup]; rfl))
      · have hbefore := (nodup_append.mp (filterMap_append ▸ hone)).1
        exact Spent.of_refusedUnproven runtime sessionId epoch hbefore hrefused
    obtain ⟨found, hfound, hattempt⟩ :=
      attemptAfter_replay runtime sessionId epoch hcard hconsumed middle hmiddle
    rw [hprior, Option.some.injEq] at hfound
    subst hfound
    rcases hattempt with hsame | hnone | ⟨handedOff, hmember, write, hcontent, hmessage, hown⟩
    · have hlate : Spent state attempt := by
        have hspentMiddle := spent_foldl runtime middle hearly.1
          fun row hrow => not_admitted_again hone hearly.2 row (mem_append_left _ hrow)
        rwa [← replay_append] at hspentMiddle
      obtain ⟨kept, hkept, hstate⟩ := hsettles.stays hinvariant hclosed hsame hlate
      rw [hlater, Option.some.injEq] at hkept
      subst hkept
      rcases hstate with hsameState | hwithdrawn
      · exact absurd hsameState hmoved
      · rw [hwithdrawn] at hback
        exact absurd hback (by simp)
    · rw [hnone] at hdispatch
      exact absurd hdispatch (by simp)
    · rw [hown, Option.some.injEq] at hdispatch
      exact ⟨hsettles.dispatch, hsettles.content, handedOff, hmember, write, hcontent, hmessage,
        hdispatch⟩

/-! ## A card handed off twice, and a refusal reopened -/

def queuedRow (seq : ℤ) : JournalRow Unit :=
  ⟨rowBase seq, .queue "m" (.queued ⟨⟨.user, none, ()⟩, 0, none, none, none, none, none, none⟩)⟩

def admittedRow (seq : ℤ) (clientMessageId : String) : JournalRow Unit :=
  ⟨rowBase seq, .submission
    ⟨clientMessageId, "", ⟨.user, none, ()⟩, true, some "m", none, none, none⟩⟩

def handedOverRow (seq : ℤ) : JournalRow Unit :=
  ⟨rowBase seq, .dispatch ⟨"a", .pending, none, none, none, none, none⟩⟩

def refusedRow (seq : ℤ) (clientMessageId : String) (neverReachedAgent : Bool) : JournalRow Unit :=
  ⟨rowBase seq, .dispatch ⟨clientMessageId, .rejected, none, none,
    some ⟨some (.known .notDelivered), neverReachedAgent⟩, none, none⟩⟩

def doubtfulRows : List (JournalRow Unit) :=
  [queuedRow 1, admittedRow 2 "a", handedOverRow 3, refusedRow 4 "a" false]

def handedOffCardOf (clientMessageId : String) : QueuedMessageRow Unit :=
  ⟨"m", 0, ⟨.user, none, ()⟩, "", .dispatched, none, none, none, some clientMessageId, none,
    none, none⟩

def waitingCard : QueuedMessageRow Unit :=
  ⟨"m", 0, ⟨.user, none, ()⟩, "", .waiting, none, none, none, none, none, none, none⟩

/-- Handed off again as `b` and withdrawn before any hand-over, `m` waits for
the answer of `b`. -/
theorem queued_message_sent_once_again :
    (∃ settled, (replay plainRuntime "session" "e" (doubtfulRows ++
        [admittedRow 5 "b", refusedRow 6 "b" false])).submissions.lookup "b" = some settled ∧
      settled.dispatchState = .rejected ∧
      agentJournalSubmissionProvenUnwritten settled.toHandOff) ∧
    ∃ handedOff ∈ [admittedRow 5 "b"], ∃ write, handedOff.content = .submission write ∧
      write.queuedMessageId = some "m" ∧ write.clientMessageId = "b" := by
  have honce := queued_message_sent_once plainRuntime "session" "e"
    (doubtfulRows ++ [admittedRow 5 "b", refusedRow 6 "b" false]) (by decide +kernel)
    (by decide +kernel)
  constructor
  · obtain ⟨dispatch, _, settled, hcontent, _, _, _, _, hsettled, hrejected, hproof⟩ :=
      honce.1 (doubtfulRows ++ [admittedRow 5 "b"]) (refusedRow 6 "b" false) [] "m"
        (handedOffCardOf "b") waitingCard rfl (by decide +kernel) rfl (by decide +kernel) rfl
    cases hcontent
    exact ⟨settled, hsettled, hrejected, hproof⟩
  · obtain ⟨dispatch, hcontent, handedOff, hmember, write, hwrite, hmessage, hown⟩ :=
      honce.2 (by decide +kernel) doubtfulRows [admittedRow 5 "b"] (refusedRow 6 "b" false) [] "m"
        "a" (handedOffCardOf "a") (handedOffCardOf "b") waitingCard rfl (by decide +kernel) rfl
        (Or.inr (by decide +kernel)) (by decide +kernel) (by decide +kernel) (by decide)
        (Or.inl rfl)
    cases hcontent
    exact ⟨handedOff, hmember, write, hwrite, hmessage, hown⟩

/-- `a` was handed over and refused without a proof; its own later dispatch row
makes `m` wait again. -/
theorem refused_in_doubt_waits_again :
    ((doubtfulRows ++ [refusedRow 5 "a" true]).filterMap submissionId).Nodup ∧
      everyStep plainRuntime (fun state row => !requeues state row)
        (createJournalReducerState "session" "e") (doubtfulRows ++ [refusedRow 5 "a" true]) ∧
      refusedUnproven plainRuntime "session" "e" doubtfulRows "a" ∧
      let early := replay plainRuntime "session" "e" doubtfulRows
      let late := applyJournalRow plainRuntime early (refusedRow 5 "a" true)
      (early.submissions.lookup "a").map (fun send =>
        (send.handoverRecorded, send.handedOverAt)) = some (true, some 3) ∧
      early.queue.cards.lookup "m" = some (handedOffCardOf "a") ∧
        late.queue.cards.lookup "m" = some waitingCard := by
  decide +kernel

end Wakii.SentOnce
