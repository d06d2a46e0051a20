import Wakii.Journal.StaleWrites

/-!
# Hand-offs of queued messages

A queued card is handed off as a submission and comes back only when that
submission is refused and proven undelivered.  An invariant ties every card
that is handed off to a submission that is not refused; each kind of row keeps
it, and what a row does to a card is read off the same cases.
-/

namespace Wakii.HandOffs

open OrderedCollections Wakii.DispatchSettlement Wakii.JournalRows OrderedMap
open Wakii.Reducer Wakii.StaleWrites

variable {P : Type}

/-! ## The invariant -/

def HandedOffAs (card : QueuedMessageRow P) (id : String) : Prop :=
  card.state = .dispatched ∧ card.consumedAs = some id

structure HandOffInvariant (state : JournalReducerState P) : Prop where
  keyed : KeyedCards state
  own : ∀ id submission, state.submissions.lookup id = some submission →
    submission.clientMessageId = id
  /-- The card a submission names is the one its admission named. -/
  family : ∀ id submission, state.submissions.lookup id = some submission →
    submission.queuedMessageId.isSome →
      (journalInputSourceFamily (state.inputs.sources.lookup id)).isSome
  /-- A card that is handed off is not refused. -/
  linked : ∀ messageId card id submission,
    state.queue.cards.lookup messageId = some card → HandedOffAs card id →
      state.submissions.lookup id = some submission →
        submission.queuedMessageId = some messageId → submission.dispatchState ≠ .rejected
  /-- A refusal that stays in doubt is a withdrawal no turn answered. -/
  doubtful : ∀ id submission, state.submissions.lookup id = some submission →
    submission.dispatchState = .rejected → submission.queuedMessageId.isSome →
      queuedHandOffOutcome submission.toHandOff = .inDoubt →
        withdrawnUnanswered submission.toHandOff

theorem handOffInvariant_create (sessionId epoch : String) :
    HandOffInvariant (createJournalReducerState sessionId epoch : JournalReducerState P) where
  keyed := keyedCards_replay ⟨fun _ _ => "", id, fun _ => none⟩ sessionId epoch []
  own id submission hlookup := absurd hlookup (by simp [createJournalReducerState])
  family id submission hlookup := absurd hlookup (by simp [createJournalReducerState])
  linked messageId card id submission hcard := absurd hcard (by simp [createJournalReducerState])
  doubtful id submission hlookup := absurd hlookup (by simp [createJournalReducerState])

variable {state next : JournalReducerState P}

theorem HandOffInvariant.congr (hinvariant : HandOffInvariant state)
    (hsubmissions : next.submissions = state.submissions)
    (hcards : ∀ messageId, next.queue.cards.lookup messageId = state.queue.cards.lookup messageId)
    (hsources : next.inputs.sources = state.inputs.sources) : HandOffInvariant next where
  keyed messageId card hcard := hinvariant.keyed messageId card (hcards messageId ▸ hcard)
  own := by
    rw [hsubmissions]
    exact hinvariant.own
  family := by
    rw [hsubmissions, hsources]
    exact hinvariant.family
  linked messageId card id submission hcard := by
    rw [hsubmissions]
    exact hinvariant.linked messageId card id submission (hcards messageId ▸ hcard)
  doubtful := by
    rw [hsubmissions]
    exact hinvariant.doubtful

/-! ## Provider echoes -/

/-- Submissions changed only by acceptance; queue, sources and refusals stay. -/
structure Accepts (state next : JournalReducerState P) : Prop where
  queue : next.queue = state.queue
  sources : next.inputs.sources = state.inputs.sources
  rejections : next.inputs.rejections = state.inputs.rejections
  submissions : ∀ id, next.submissions.lookup id = state.submissions.lookup id ∨
    ∃ row providerItemId submission, state.submissions.lookup id = some submission ∧
      journalDispatchRowApplies (some submission.dispatchState) ∧
      next.submissions.lookup id = some (acceptedSubmission row providerItemId submission)

theorem Accepts.of_sameLedger (hsame : SameLedger state next) : Accepts state next where
  queue := hsame.queue
  sources := by rw [hsame.inputs]
  rejections := by rw [hsame.inputs]
  submissions id := Or.inl (by rw [hsame.submissions])

variable {first second third : JournalReducerState P}

theorem Accepts.trans (hfirst : Accepts first second) (hsecond : Accepts second third) :
    Accepts first third where
  queue := hsecond.queue.trans hfirst.queue
  sources := hsecond.sources.trans hfirst.sources
  rejections := hsecond.rejections.trans hfirst.rejections
  submissions id := by
    rcases hsecond.submissions id with hsame | ⟨row, item, submission, hold, happlies, hnew⟩
    · rw [hsame]
      exact hfirst.submissions id
    · rcases hfirst.submissions id with hsame | ⟨_, _, _, _, _, haccepted⟩
      · exact Or.inr ⟨row, item, submission, hsame ▸ hold, happlies, hnew⟩
      · -- an accepted submission is not accepted again
        rw [haccepted] at hold
        cases hold
        exact absurd happlies (by simp [acceptedSubmission, journalDispatchRowApplies])

theorem acceptsRule : EchoRule (P := P) Accepts where
  toTimelineRule := sameLedgerRule.mono Accepts.of_sameLedger Accepts.trans
  echo _ _ := ⟨rfl, rfl, rfl, fun _ => Or.inl rfl⟩
  accept {state key _} row item hlookup happlies := by
    refine ⟨rfl, rfl, rfl, fun id => ?_⟩
    change (state.submissions.set key _).lookup id = _ ∨ _
    by_cases hid : id = key
    · subst hid
      exact Or.inr ⟨row, item, _, hlookup, happlies, lookup_set_self _ _ _⟩
    · exact Or.inl (lookup_set_ne _ _ hid)

theorem accepts_applyLifecycleBatch (runtime : JournalRuntime P)
    (state : JournalReducerState P) (row : JournalRowBase) (settlementId : String)
    (mutations : List (JournalLifecycleMutation P)) :
    Accepts state (applyLifecycleBatch runtime state row settlementId mutations) := by
  unfold applyLifecycleBatch
  split
  · exact Accepts.of_sameLedger (SameLedger.refl state)
  · have hfolded := acceptsRule.foldl_applyLifecycleMutation runtime state row mutations.zipIdx
    exact ⟨hfolded.queue, hfolded.sources, hfolded.rejections, hfolded.submissions⟩

theorem HandOffInvariant.accepts (hinvariant : HandOffInvariant state)
    (haccepts : Accepts state next) :
    HandOffInvariant next where
  keyed := hinvariant.keyed.of_queue haccepts.queue
  own id submission hlookup := by
    rcases haccepts.submissions id with hsame | ⟨row, item, old, hold, _, hnew⟩
    · exact hinvariant.own id submission (hsame ▸ hlookup)
    · rw [hnew] at hlookup
      cases hlookup
      exact hinvariant.own id old hold
  family id submission hlookup hqueued := by
    rw [haccepts.sources]
    rcases haccepts.submissions id with hsame | ⟨row, item, old, hold, _, hnew⟩
    · exact hinvariant.family id submission (hsame ▸ hlookup) hqueued
    · rw [hnew] at hlookup
      cases hlookup
      exact hinvariant.family id old hold hqueued
  linked messageId card id submission hcard hhanded hlookup hmessage := by
    rw [haccepts.queue] at hcard
    rcases haccepts.submissions id with hsame | ⟨row, item, old, hold, _, hnew⟩
    · exact hinvariant.linked messageId card id submission hcard hhanded (hsame ▸ hlookup) hmessage
    · rw [hnew] at hlookup
      cases hlookup
      simp [acceptedSubmission]
  doubtful id submission hlookup hrejected := by
    rcases haccepts.submissions id with hsame | ⟨row, item, old, hold, _, hnew⟩
    · exact hinvariant.doubtful id submission (hsame ▸ hlookup) hrejected
    · rw [hnew] at hlookup
      cases hlookup
      exact absurd hrejected (by simp [acceptedSubmission])

/-! ## Spending reported cards -/

theorem HandOffInvariant.spends (hinvariant : HandOffInvariant state)
    (hspends : SpendsReported state next) (hsubmissions : next.submissions = state.submissions)
    (hsources : next.inputs.sources = state.inputs.sources) : HandOffInvariant next where
  keyed := hspends.keyed
  own := by
    rw [hsubmissions]
    exact hinvariant.own
  family := by
    rw [hsubmissions, hsources]
    exact hinvariant.family
  linked messageId card id submission hcard hhanded hlookup := by
    rw [hsubmissions] at hlookup
    rcases hspends.cards messageId with hsame | ⟨prior, _, _, hspent⟩
    · exact hinvariant.linked messageId card id submission (hsame ▸ hcard) hhanded hlookup
    · rw [hspent] at hcard
      cases hcard
      exact absurd hhanded.1 (by simp)
  doubtful := by
    rw [hsubmissions]
    exact hinvariant.doubtful

theorem frame_spendReportedCommandCards (state : JournalReducerState P) :
    (spendReportedCommandCards state).submissions = state.submissions ∧
      (spendReportedCommandCards state).inputs = state.inputs := by
  obtain ⟨queue, hqueue⟩ := foldl_spendReportedCard_eq state.queue.returnedCommands.elems state
  unfold spendReportedCommandCards
  rw [hqueue]
  exact ⟨rfl, rfl⟩

variable {state : JournalReducerState P}

theorem HandOffInvariant.spendReportedCommandCards (hinvariant : HandOffInvariant state) :
    HandOffInvariant (Reducer.spendReportedCommandCards state) := by
  have hframe := frame_spendReportedCommandCards state
  exact hinvariant.spends (spendsReported_spendReportedCommandCards hinvariant.keyed) hframe.1
    (by rw [hframe.2])

/-! ## Unlinking -/

/-- Submissions changed only by unlinking withdrawals no turn answered. -/
structure Unlinks (state next : JournalReducerState P) : Prop where
  queue : next.queue = state.queue
  inputs : next.inputs = state.inputs
  submissions : ∀ id, next.submissions.lookup id = state.submissions.lookup id ∨
    ∃ submission, state.submissions.lookup id = some submission ∧
      next.submissions.lookup id = some { submission with queuedMessageId := none }

theorem Unlinks.trans (hfirst : Unlinks first second) (hsecond : Unlinks second third) :
    Unlinks first third where
  queue := hsecond.queue.trans hfirst.queue
  inputs := hsecond.inputs.trans hfirst.inputs
  submissions id := by
    rcases hsecond.submissions id with hsame | ⟨submission, hold, hnew⟩
    · rw [hsame]
      exact hfirst.submissions id
    · rcases hfirst.submissions id with hsame | ⟨prior, hprior, hunlinked⟩
      · exact Or.inr ⟨submission, hsame ▸ hold, hnew⟩
      · rw [hunlinked] at hold
        cases hold
        exact Or.inr ⟨prior, hprior, hnew⟩

theorem unlinksRule : UnlinkRule (P := P) Unlinks where
  toTimelineRule := sameLedgerRule.mono
    (fun hsame => ⟨hsame.queue, hsame.inputs, fun id => Or.inl (by rw [hsame.submissions])⟩)
    Unlinks.trans
  unlink {state key _} hlookup := by
    refine ⟨rfl, rfl, fun id => ?_⟩
    change (state.submissions.set key _).lookup id = _ ∨ _
    by_cases hid : id = key
    · subst hid
      exact Or.inr ⟨_, hlookup, lookup_set_self _ _ _⟩
    · exact Or.inl (lookup_set_ne _ _ hid)

variable {submission : AgentJournalSubmission P}

theorem unlinked_settleHandOffInDoubt {id : String}
    (hlookup : state.submissions.lookup id = some submission)
    (hrejected : submission.dispatchState = .rejected)
    (hdoubt : queuedHandOffOutcome submission.toHandOff = .inDoubt)
    (hwithdrawn : withdrawnUnanswered submission.toHandOff) :
    (settleHandOffInDoubt state id).submissions.lookup id =
      some { submission with queuedMessageId := none } := by
  have hinDoubt : queuedHandOffInDoubt submission.toHandOff := by
    simp [queuedHandOffInDoubt, hrejected, hdoubt]
  unfold settleHandOffInDoubt placeQueuedHandOffInDoubt
  simp only [hlookup, hinDoubt, hwithdrawn, if_true]
  exact lookup_set_self _ _ _

/-! ## Cards -/

theorem lookup_setCard_self (state : JournalReducerState P) (card : QueuedMessageRow P) :
    (setCard state card).queue.cards.lookup card.messageId = some card :=
  lookup_set_self _ _ _

variable {messageId : String}

theorem lookup_setCard_ne (state : JournalReducerState P) (card : QueuedMessageRow P)
    (hmessage : messageId ≠ card.messageId) :
    (setCard state card).queue.cards.lookup messageId = state.queue.cards.lookup messageId :=
  lookup_set_ne _ _ hmessage

theorem HandOffInvariant.setCard (hinvariant : HandOffInvariant state) (card : QueuedMessageRow P)
    (hcard : ∀ id submission, HandedOffAs card id → state.submissions.lookup id = some submission →
        submission.queuedMessageId = some card.messageId → submission.dispatchState ≠ .rejected) :
    HandOffInvariant (Reducer.setCard state card) where
  keyed := hinvariant.keyed.setCard card
  own := hinvariant.own
  family := hinvariant.family
  linked messageId found id submission hfound hhanded hlookup hmessage := by
    by_cases hself : messageId = card.messageId
    · subst hself
      rw [lookup_setCard_self] at hfound
      cases hfound
      exact hcard id submission hhanded hlookup hmessage
    · rw [lookup_setCard_ne state card hself] at hfound
      exact hinvariant.linked messageId found id submission hfound hhanded hlookup hmessage
  doubtful := hinvariant.doubtful

theorem messageId_settledHandOff (state : JournalReducerState P) (card : QueuedMessageRow P)
    (submission : AgentJournalSubmission P) :
    (settledHandOff state card submission).messageId = card.messageId := by
  unfold settledHandOff rejectedCardTransition
  split
  · rfl
  · split
    · rfl
    · rfl
    · split <;> rfl

variable {card : QueuedMessageRow P}

theorem settledHandOff_dispatched
    (hstays : (settledHandOff state card submission).state = .dispatched) :
    settledHandOff state card submission = card ∧ (submission.dispatchState = .rejected →
        queuedHandOffOutcome submission.toHandOff = .inDoubt) := by
  unfold settledHandOff rejectedCardTransition at hstays ⊢
  split
  · rename_i hrefused
    exact ⟨rfl, fun hrejected => absurd hrejected hrefused⟩
  · rename_i hrefused
    rw [if_neg hrefused] at hstays
    cases houtcome : queuedHandOffOutcome submission.toHandOff with
    | waiting =>
      rw [houtcome] at hstays
      exact absurd hstays (by simp)
    | inDoubt => exact ⟨rfl, fun _ => rfl⟩
    | returned =>
      rw [houtcome] at hstays
      dsimp only at hstays
      split at hstays
      · exact absurd hstays (by simp)
      · exact absurd hstays (by simp)

variable {runtime : JournalRuntime P}

/-- A card a row queues as handed off settles against its own attempt. -/
theorem queuedCardFromChange_handedOff {change : JournalQueuedChange P} {id : String}
    (hhanded : HandedOffAs (queuedCardFromChange runtime state messageId change) id)
    (hlookup : state.submissions.lookup id = some submission)
    (hrejected : submission.dispatchState = .rejected) :
    queuedHandOffOutcome submission.toHandOff = .inDoubt := by
  obtain ⟨hdispatched, hconsumed⟩ := hhanded
  unfold queuedCardFromChange at hdispatched hconsumed
  dsimp only at hdispatched hconsumed
  split at hdispatched
  · rename_i found hattempt
    rw [hattempt] at hconsumed
    dsimp only at hconsumed
    obtain ⟨hcard, hdoubt⟩ := settledHandOff_dispatched hdispatched
    rw [hcard] at hconsumed
    have hfound : state.submissions.lookup id = some found := by
      change Option.filter (fun x => decide (x ≠ "")) change.attempt = some id at hconsumed
      rw [hconsumed] at hattempt
      exact hattempt
    rw [hlookup] at hfound
    cases hfound
    exact hdoubt hrejected
  · rename_i hattempt
    rw [hattempt] at hconsumed
    dsimp only at hconsumed
    split at hdispatched
    · exfalso
      unfold returnedCard at hdispatched
      dsimp only at hdispatched
      split at hdispatched <;> exact absurd hdispatched (by simp)
    · rename_i hreturned
      rw [hreturned] at hconsumed
      dsimp only at hconsumed
      split at hdispatched
      · rename_i hsome
        rw [if_pos hsome] at hconsumed
        change Option.filter (fun x => decide (x ≠ "")) change.attempt = some id at hconsumed
        rw [hconsumed] at hattempt
        exact absurd (hlookup.symm.trans hattempt) (by simp)
      · exact absurd hdispatched (by simp)

theorem messageId_queuedCardFromChange (runtime : JournalRuntime P)
    (state : JournalReducerState P) (messageId : String) (change : JournalQueuedChange P) :
    (queuedCardFromChange runtime state messageId change).messageId = messageId := by
  unfold queuedCardFromChange
  dsimp only
  split
  · exact messageId_settledHandOff _ _ _
  · split
    · rfl
    · split <;> rfl

/-- A queued card, once the doubt of its attempt is settled. -/
theorem HandOffInvariant.applyQueuedChange
    (hinvariant : HandOffInvariant state) (runtime : JournalRuntime P) (messageId : String)
    (change : JournalQueuedChange P) :
    HandOffInvariant (Reducer.applyQueuedChange runtime state messageId change) := by
  generalize hcardEq : queuedCardFromChange runtime state messageId change = card
  have hrecovered := unlinksRule.settleRecovered (Reducer.setCard state card) messageId
    change.recovers
  have hattempt := unlinksRule.settleAttempt
    (settleRecovered (Reducer.setCard state card) messageId change.recovers) card.consumedAs
  have hboth := hrecovered.trans hattempt
  have hnext : Reducer.applyQueuedChange runtime state messageId change =
      settleAttempt (settleRecovered (Reducer.setCard state card) messageId change.recovers)
        card.consumedAs := by
    unfold Reducer.applyQueuedChange
    rw [hcardEq]
  rw [hnext]
  refine ⟨(hinvariant.keyed.setCard card).of_queue hboth.queue, ?_, ?_, ?_, ?_⟩
  · intro id submission hlookup
    rcases hboth.submissions id with hsame | ⟨prior, hprior, hnew⟩
    · exact hinvariant.own id submission (hsame ▸ hlookup)
    · rw [hnew] at hlookup
      cases hlookup
      exact hinvariant.own id prior hprior
  · intro id submission hlookup hqueued
    rw [hboth.inputs]
    rcases hboth.submissions id with hsame | ⟨prior, hprior, hnew⟩
    · exact hinvariant.family id submission (hsame ▸ hlookup) hqueued
    · rw [hnew] at hlookup
      cases hlookup
      exact absurd hqueued (by simp)
  · intro other found id submission hfound hhanded hlookup hmessage hrejected
    rw [hboth.queue] at hfound
    have hold : state.submissions.lookup id = some submission := by
      rcases hboth.submissions id with hsame | ⟨prior, hprior, hnew⟩
      · exact hsame ▸ hlookup
      · rw [hnew] at hlookup
        cases hlookup
        exact absurd hmessage (by simp)
    by_cases hself : other = card.messageId
    · subst hself
      rw [lookup_setCard_self] at hfound
      cases hfound
      -- the attempt's doubt was settled by this very row, which unlinked it
      have hdoubt := queuedCardFromChange_handedOff (hcardEq ▸ hhanded) hold hrejected
      have hwithdrawn := hinvariant.doubtful id submission hold hrejected
        (by rw [hmessage]; rfl) hdoubt
      rcases hrecovered.submissions id with hsame | ⟨prior, hprior, hunlinked⟩
      · have hmid : (settleRecovered (Reducer.setCard state card) messageId
            change.recovers).submissions.lookup id = some submission := hsame.trans hold
        have hsettled := unlinked_settleHandOffInDoubt hmid hrejected hdoubt hwithdrawn
        rw [hhanded.2] at hlookup
        change (settleHandOffInDoubt _ id).submissions.lookup id = some submission at hlookup
        rw [hsettled] at hlookup
        have hnone := congrArg AgentJournalSubmission.queuedMessageId (Option.some.inj hlookup)
        rw [hmessage] at hnone
        exact absurd hnone (by simp)
      · rcases hattempt.submissions id with hkept | ⟨later, hlater, hnew⟩
        · rw [hkept, hunlinked] at hlookup
          cases hlookup
          exact absurd hmessage (by simp)
        · rw [hnew] at hlookup
          cases hlookup
          exact absurd hmessage (by simp)
    · rw [lookup_setCard_ne state card hself] at hfound
      exact hinvariant.linked other found id submission hfound hhanded hold hmessage hrejected
  · intro id submission hlookup hrejected hqueued
    rcases hboth.submissions id with hsame | ⟨prior, hprior, hnew⟩
    · exact hinvariant.doubtful id submission (hsame ▸ hlookup) hrejected hqueued
    · rw [hnew] at hlookup
      cases hlookup
      exact absurd hqueued (by simp)

theorem HandOffInvariant.applyQueueRow
    (hinvariant : HandOffInvariant state) (runtime : JournalRuntime P) (messageId : String)
    (change : JournalQueueChange P) :
    HandOffInvariant (Reducer.applyQueueRow runtime state messageId change) := by
  have hkept : ∀ card, state.queue.cards.lookup messageId = some card →
      ∀ changed : QueuedMessageRow P, changed.messageId = card.messageId →
        (changed.state = .dispatched → card.state = .dispatched) →
          changed.consumedAs = card.consumedAs →
            HandOffInvariant (Reducer.setCard state changed) := by
    intro card hcard changed hid hstate hconsumed
    apply hinvariant.setCard
    intro id submission hhanded hlookup hmessage
    rw [hid, hinvariant.keyed messageId card hcard] at hmessage
    exact hinvariant.linked messageId card id submission hcard
      ⟨hstate hhanded.1, hconsumed ▸ hhanded.2⟩ hlookup hmessage
  unfold Reducer.applyQueueRow
  split
  · exact hinvariant.applyQueuedChange runtime messageId _
  · exact hinvariant
  · rename_i body card hcard
    exact hkept card hcard _ rfl id rfl
  · rename_i position card hcard
    exact hkept card hcard _ rfl id rfl
  · rename_i holdReason card hcard
    split
    · exact hkept card hcard _ rfl id rfl
    · exact hkept card hcard _ rfl id rfl
  · rename_i card hcard
    exact hkept card hcard _ rfl (fun h => absurd h (by simp)) rfl

/-! ## Submission rows -/

theorem frame_handOffCard (state : JournalReducerState P) (clientMessageId : String)
    (queuedMessageId : Option String) :
    (handOffCard state clientMessageId queuedMessageId).submissions = state.submissions ∧
      (handOffCard state clientMessageId queuedMessageId).inputs = state.inputs := by
  unfold handOffCard
  split <;> exact ⟨rfl, rfl⟩

/-- A hand-off sets its submission and its card together. -/
theorem HandOffInvariant.setSubmission
    (hinvariant : HandOffInvariant state) (row : JournalRowBase)
    (write : JournalSubmissionWrite P) {facts : JournalReducerState P}
    (hsubmissions : facts.submissions =
      state.submissions.set write.clientMessageId (newSubmission row write))
    (hqueue : facts.queue = state.queue) (hinputs : facts.inputs = state.inputs) :
    HandOffInvariant
      (recordSource (handOffCard facts write.clientMessageId write.queuedMessageId) write) := by
  have hframe := frame_handOffCard facts write.clientMessageId write.queuedMessageId
  have hlookup : ∀ id, (recordSource
      (handOffCard facts write.clientMessageId write.queuedMessageId) write).submissions.lookup
        id = (state.submissions.set write.clientMessageId
          (newSubmission row write)).lookup id := by
    intro id
    change (handOffCard facts _ _).submissions.lookup id = _
    rw [hframe.1, hsubmissions]
  have hsources : ∀ id, (recordSource
      (handOffCard facts write.clientMessageId write.queuedMessageId) write).inputs.sources.lookup
        id = (state.inputs.sources.set write.clientMessageId write).lookup id := by
    intro id
    change ((handOffCard facts _ _).inputs.sources.set _ _).lookup id = _
    rw [hframe.2, hinputs]
  have hfactsKeyed : KeyedCards facts := hinvariant.keyed.of_queue hqueue
  have hkeyed : KeyedCards (handOffCard facts write.clientMessageId write.queuedMessageId) := by
    unfold handOffCard
    split
    · exact hfactsKeyed
    · exact hfactsKeyed.setCard _
  refine ⟨hkeyed.of_queue rfl, ?_, ?_, ?_, ?_⟩
  · intro id submission hfound
    rw [hlookup] at hfound
    by_cases hid : id = write.clientMessageId
    · rw [hid, lookup_set_self] at hfound
      cases hfound
      exact hid.symm
    · rw [lookup_set_ne _ _ hid] at hfound
      exact hinvariant.own id submission hfound
  · intro id submission hfound hqueued
    rw [hlookup] at hfound
    rw [hsources]
    by_cases hid : id = write.clientMessageId
    · rw [hid, lookup_set_self] at hfound ⊢
      cases hfound
      exact hqueued
    · rw [lookup_set_ne _ _ hid] at hfound ⊢
      exact hinvariant.family id submission hfound hqueued
  · intro messageId card id submission hcard hhanded hfound hmessage
    rw [hlookup] at hfound
    by_cases hid : id = write.clientMessageId
    · rw [hid, lookup_set_self] at hfound
      cases hfound
      simp [newSubmission]
    · rw [lookup_set_ne _ _ hid] at hfound
      change (handOffCard facts _ _).queue.cards.lookup messageId = some card at hcard
      have hprior : state.queue.cards.lookup messageId = some card := by
        unfold handOffCard at hcard
        split at hcard
        · exact hqueue ▸ hcard
        · rename_i handed _
          by_cases hself : messageId = handed.messageId
          · subst hself
            have hself := lookup_setCard_self facts (handedOffCard handed write.clientMessageId)
            rw [show handed.messageId =
              (handedOffCard handed write.clientMessageId).messageId from rfl, hself] at hcard
            cases hcard
            exact absurd (Option.some.inj hhanded.2).symm hid
          · have hother := lookup_setCard_ne facts
              (handedOffCard handed write.clientMessageId) hself
            rw [hother] at hcard
            exact hqueue ▸ hcard
      exact hinvariant.linked messageId card id submission hprior hhanded hfound hmessage
  · intro id submission hfound hrejected
    rw [hlookup] at hfound
    by_cases hid : id = write.clientMessageId
    · rw [hid, lookup_set_self] at hfound
      cases hfound
      exact absurd hrejected (by simp [newSubmission])
    · rw [lookup_set_ne _ _ hid] at hfound
      exact hinvariant.doubtful id submission hfound hrejected

/-! ## Dispatch rows -/

theorem mem_items_placeItem (state : JournalReducerState P) (itemId other : String)
    (place : HandOffPlace) :
    other ∈ (placeItem state itemId place).items ↔ other ∈ state.items := by
  unfold placeItem
  split
  · rfl
  · rename_i item hlookup
    rw [mem_set]
    constructor
    · rintro (hself | hother)
      · rw [hself]
        exact AList.lookup_isSome.mp (by rw [hlookup]; rfl)
      · exact hother
    · exact Or.inr

theorem mem_items_placeDispatch (state : JournalReducerState P) (row : JournalRowBase)
    (dispatch : JournalDispatch) (settled : AgentJournalSubmission P) (other : String) :
    other ∈ (placeDispatch state row dispatch settled).items ↔ other ∈ state.items := by
  unfold placeDispatch
  cases dispatch.state with
  | pending =>
    unfold placeHandedOverMessage
    dsimp only
    split
    · rfl
    · split
      · rw [(aside_rememberPlace _ _ _).items, mem_items_placeItem]
      · rfl
  | rejected => exact mem_items_placeItem _ _ _ _
  | accepted =>
    dsimp only
    rw [(aside_recordAcceptance _ _ _).items, (aside_noteTurnAccepted _ _).items]
  | unknown => rfl
  | newer tag => rfl

theorem settledHandOff_congr (hitems : ∀ itemId, itemId ∈ next.items ↔ itemId ∈ state.items)
    (card : QueuedMessageRow P) (submission : AgentJournalSubmission P) :
    settledHandOff next card submission = settledHandOff state card submission := by
  have hreported : commandTurnReported next submission.clientMessageId =
      commandTurnReported state submission.clientMessageId := by
    unfold commandTurnReported
    exact decide_eq_decide.mpr (hitems _)
  unfold settledHandOff
  rw [hreported]

/-- What a dispatch row that reaches its submission does to the ledger.  The
submission is settled; its card, if still handed off as it, is settled too; and
a refusal in doubt unlinks a withdrawal or reads as sent. -/
structure DispatchEffect (runtime : JournalRuntime P) (row : JournalRowBase)
    (dispatch : JournalDispatch) (submission : AgentJournalSubmission P)
    (state next : JournalReducerState P) : Prop where
  sources : next.inputs.sources = state.inputs.sources
  others : ∀ id, id ≠ dispatch.clientMessageId →
    next.submissions.lookup id = state.submissions.lookup id
  unhanded : cardHandedOffAs state submission = none → next.queue = state.queue
  handed : ∀ card, cardHandedOffAs state submission = some card →
    next.queue = (Reducer.setCard state (settledHandOff state card
      (settleDispatch runtime row dispatch submission))).queue
  rejections : ∀ id, id ∈ state.inputs.rejections → id ∈ next.inputs.rejections
  settled : ∃ final, next.submissions.lookup dispatch.clientMessageId = some final ∧
    final.clientMessageId = submission.clientMessageId ∧
    (final.queuedMessageId = none ∨ final.queuedMessageId = submission.queuedMessageId) ∧
    (final.toHandOff = (settleDispatch runtime row dispatch submission).toHandOff ∧
        (dispatch.state = .rejected → final.queuedMessageId.isSome →
          queuedHandOffOutcome final.toHandOff = .inDoubt →
            withdrawnUnanswered final.toHandOff ∧ cardHandedOffAs state submission = none) ∨
      dispatch.state = .rejected ∧
        queuedHandOffOutcome (settleDispatch runtime row dispatch submission).toHandOff = .inDoubt ∧
        final.dispatchState = .unknown ∧ dispatch.clientMessageId ∈ next.inputs.rejections)

/-- The submission a dispatch row settled, after its card was settled. -/
theorem settleCard_effect {id : String}
    {settled : AgentJournalSubmission P} (hlookup : state.submissions.lookup id = some settled) :
    (settleCard state id).inputs = state.inputs ∧ (∀ other, other ≠ id →
        (settleCard state id).submissions.lookup other = state.submissions.lookup other) ∧
      (cardHandedOffAs state settled = none → (settleCard state id).queue = state.queue) ∧
      (∀ card, cardHandedOffAs state settled = some card → (settleCard state id).queue =
          (Reducer.setCard state (settledHandOff state card settled)).queue) ∧
      ∃ send, (settleCard state id).submissions.lookup id = some send ∧
        send.clientMessageId = settled.clientMessageId ∧
        send.toHandOff = settled.toHandOff ∧
        (send.queuedMessageId = none ∨ send.queuedMessageId = settled.queuedMessageId) ∧
        (settled.dispatchState = .rejected → send.queuedMessageId.isSome →
          queuedHandOffOutcome settled.toHandOff = .inDoubt →
            withdrawnUnanswered settled.toHandOff → cardHandedOffAs state settled = none) := by
  unfold settleCard
  simp only [hlookup]
  cases hcard : cardHandedOffAs state settled with
  | none =>
    refine ⟨rfl, fun _ _ => rfl, fun _ => rfl, fun card h => absurd h (by simp), settled,
      hlookup, rfl, rfl, Or.inr rfl, fun _ _ _ _ => rfl⟩
  | some card =>
    dsimp only
    have hcarded : (Reducer.setCard state
        (settledHandOff state card settled)).submissions.lookup id = some settled := hlookup
    have hunlinks := unlinksRule.settleHandOffInDoubt
      (Reducer.setCard state (settledHandOff state card settled)) id
    have hothers : ∀ other, other ≠ id →
        (settleHandOffInDoubt (Reducer.setCard state (settledHandOff state card settled))
          id).submissions.lookup other = state.submissions.lookup other := by
      intro other hother
      unfold settleHandOffInDoubt placeQueuedHandOffInDoubt
      simp only [hcarded]
      have hplaced := sameLedgerRule.restorePlace
        (normalizeHandOff (Reducer.setCard state (settledHandOff state card settled))
          settled.clientMessageId) settled.clientMessageId
      split
      · split
        · change ((restorePlace _ _).submissions.set id _).lookup other = _
          rw [hplaced.submissions]
          exact lookup_set_ne _ _ hother
        · rw [hplaced.submissions]
          rfl
      · rfl
    refine ⟨hunlinks.inputs, hothers, fun h => absurd h (by simp), ?_, ?_⟩
    · intro found hfound
      cases hfound
      exact hunlinks.queue
    · by_cases hunlinked : settled.dispatchState = .rejected ∧
          queuedHandOffOutcome settled.toHandOff = .inDoubt ∧ withdrawnUnanswered settled.toHandOff
      · have hnone := unlinked_settleHandOffInDoubt hcarded hunlinked.1 hunlinked.2.1 hunlinked.2.2
        exact ⟨_, hnone, rfl, rfl, Or.inl rfl, fun _ hsome => absurd hsome (by simp)⟩
      · rcases hunlinks.submissions id with hsame | ⟨prior, hprior, hnew⟩
        · exact ⟨settled, hsame.trans hcarded, rfl, rfl, Or.inr rfl,
            fun hrejected _ hdoubt hwithdrawn =>
              absurd ⟨hrejected, hdoubt, hwithdrawn⟩ hunlinked⟩
        · rw [hcarded] at hprior
          cases hprior
          exact ⟨_, hnew, rfl, rfl, Or.inl rfl, fun _ hsome => absurd hsome (by simp)⟩

variable {dispatch : JournalDispatch}

theorem dispatchApplies_eq (row : JournalRowBase)
    (hlookup : state.submissions.lookup dispatch.clientMessageId = some submission) :
    dispatchApplies state (⟨row, .dispatch dispatch⟩ : JournalRow P) =
      journalDispatchRowApplies (some submission.dispatchState) := by
  change journalDispatchRowApplies
    ((state.submissions.lookup dispatch.clientMessageId).map (·.dispatchState)) = _
  rw [hlookup]
  rfl

/-- What the fold of obligations does to the submission a dispatch row settled. -/
theorem foldRefusalInDoubt_effect {send : AgentJournalSubmission P}
    (hlookup : state.submissions.lookup dispatch.clientMessageId = some send) :
    (foldRefusalInDoubt state dispatch).queue = state.queue ∧
      (foldRefusalInDoubt state dispatch).inputs.sources = state.inputs.sources ∧
      (∀ other, other ≠ dispatch.clientMessageId →
        (foldRefusalInDoubt state dispatch).submissions.lookup other =
          state.submissions.lookup other) ∧
      (∀ id, id ∈ state.inputs.rejections →
        id ∈ (foldRefusalInDoubt state dispatch).inputs.rejections) ∧
      if refusedInDoubt state dispatch send then
        (foldRefusalInDoubt state dispatch).submissions.lookup dispatch.clientMessageId =
            some (foldQueuedHandOffInDoubt send) ∧
          dispatch.clientMessageId ∈ (foldRefusalInDoubt state dispatch).inputs.rejections
      else foldRefusalInDoubt state dispatch = state := by
  unfold foldRefusalInDoubt
  simp only [hlookup]
  cases hrefused : refusedInDoubt state dispatch send with
  | false => exact ⟨rfl, rfl, fun _ _ => rfl, fun _ hid => hid, rfl⟩
  | true =>
    refine ⟨rfl, rfl, ?_, ?_, ?_, ?_⟩
    · intro other hother
      exact lookup_set_ne _ _ hother
    · intro id hid
      exact mem_set.mpr (Or.inr hid)
    · exact lookup_set_self _ _ _
    · exact mem_set.mpr (Or.inl rfl)

/-- What a dispatch row that applies does to its submission's card. -/
theorem dispatchEffect_applyJournalRow (hinvariant : HandOffInvariant state)
    (runtime : JournalRuntime P) (row : JournalRowBase)
    (hlookup : state.submissions.lookup dispatch.clientMessageId = some submission)
    (happlies : journalDispatchRowApplies (some submission.dispatchState)) :
    DispatchEffect runtime row dispatch submission state
      (applyJournalRow runtime state ⟨row, .dispatch dispatch⟩) := by
  generalize hsettled : settleDispatch runtime row dispatch submission = settled
  have hstate : settled.dispatchState = dispatch.state := by rw [← hsettled]; rfl
  have hclient : settled.clientMessageId = submission.clientMessageId := by rw [← hsettled]; rfl
  have hmessage : settled.queuedMessageId = submission.queuedMessageId := by rw [← hsettled]; rfl
  have hfacts : applyJournalRowFacts runtime state ⟨row, .dispatch dispatch⟩ =
      placeDispatch (setSubmission (observeActivity state row) dispatch.clientMessageId settled)
        row dispatch settled := by
    change applyJournalDispatchRow runtime (observeActivity state row) row dispatch = _
    have hnow : (observeActivity state row).submissions.lookup dispatch.clientMessageId =
      some submission := hlookup
    unfold applyJournalDispatchRow
    simp only [hnow, happlies, if_true, hsettled]
  have hsame := sameLedgerRule.placeDispatch
    (setSubmission (observeActivity state row) dispatch.clientMessageId settled) row dispatch
    settled
  have hitems := mem_items_placeDispatch
    (setSubmission (observeActivity state row) dispatch.clientMessageId settled) row dispatch
    settled
  have hnext := (dispatchApplies_eq row hlookup).trans happlies
  unfold applyJournalRow
  dsimp only
  rw [hnext, hfacts]
  generalize placeDispatch (setSubmission (observeActivity state row) dispatch.clientMessageId
    settled) row dispatch settled = facts at hsame hitems
  have hfound : facts.submissions.lookup dispatch.clientMessageId = some settled := by
    rw [hsame.submissions]
    exact lookup_set_self _ _ _
  have hcards : cardHandedOffAs facts settled = cardHandedOffAs state submission := by
    unfold cardHandedOffAs
    rw [hsame.queue, hclient, hmessage]
    rfl
  obtain ⟨hinputs, hothers, hunhanded, hhanded, send, hsend, hsendClient, hsendHandOff,
    hsendMessage, hsendDoubt⟩ := settleCard_effect hfound
  have hfold := foldRefusalInDoubt_effect hsend
  change DispatchEffect runtime row dispatch submission state
    (afterRow (foldRefusalInDoubt (settleCard facts dispatch.clientMessageId) dispatch)
      ⟨row, .dispatch dispatch⟩)
  obtain ⟨hqueue, hsources, hkept, hrejections, hfinal⟩ := hfold
  rw [hinputs] at hsources hrejections
  rw [hsame.inputs] at hsources hrejections
  refine ⟨hsources, ?_, ?_, ?_, hrejections, ?_⟩
  · intro id hid
    calc _ = (settleCard facts dispatch.clientMessageId).submissions.lookup id := hkept id hid
      _ = facts.submissions.lookup id := hothers id hid
      _ = state.submissions.lookup id := by
          rw [hsame.submissions]
          exact lookup_set_ne _ _ hid
  · intro hnone
    calc _ = (settleCard facts dispatch.clientMessageId).queue := hqueue
      _ = facts.queue := hunhanded (hcards.trans hnone)
      _ = state.queue := hsame.queue
  · intro card hcard
    have hcongr : settledHandOff facts card settled = settledHandOff state card settled :=
      settledHandOff_congr hitems card settled
    rw [hsettled]
    calc _ = (settleCard facts dispatch.clientMessageId).queue := hqueue
      _ = (Reducer.setCard facts (settledHandOff facts card settled)).queue :=
          hhanded card (hcards.trans hcard)
      _ = (Reducer.setCard state (settledHandOff state card settled)).queue := by
          rw [hcongr]
          unfold Reducer.setCard
          rw [hsame.queue]
          rfl
  · rw [hmessage] at hsendMessage
    rw [hstate, hcards] at hsendDoubt
    have hwithdrawnNone : dispatch.state = .rejected → send.queuedMessageId.isSome →
        queuedHandOffOutcome send.toHandOff = .inDoubt →
          withdrawnUnanswered send.toHandOff → cardHandedOffAs state submission = none := by
      rw [hsendHandOff]
      exact hsendDoubt
    rw [hsettled]
    cases hrefused : refusedInDoubt (settleCard facts dispatch.clientMessageId) dispatch send with
    | true =>
      rw [hrefused, if_pos rfl] at hfinal
      simp only [refusedInDoubt, Bool.and_eq_true, decide_eq_true_eq] at hrefused
      refine ⟨foldQueuedHandOffInDoubt send, hfinal.1, ?_⟩
      unfold foldQueuedHandOffInDoubt
      cases hwithdrawn : withdrawnUnanswered send.toHandOff with
      | true =>
        exact ⟨hsendClient.trans hclient, hsendMessage, Or.inl ⟨hsendHandOff,
          fun hrejected hsome hdoubt =>
            ⟨hwithdrawn, hwithdrawnNone hrejected hsome hdoubt hwithdrawn⟩⟩⟩
      | false =>
        exact ⟨hsendClient.trans hclient, hsendMessage,
          Or.inr ⟨hrefused.1.1, hsendHandOff ▸ hrefused.2, rfl, hfinal.2⟩⟩
    | false =>
      rw [hrefused, if_neg (by simp)] at hfinal
      refine ⟨send, ?_, hsendClient.trans hclient, hsendMessage, Or.inl ⟨hsendHandOff, ?_⟩⟩
      · change (foldRefusalInDoubt _ dispatch).submissions.lookup _ = some send
        rw [hfinal]
        exact hsend
      · -- a queued message's refusal in doubt would have been folded
        intro hrejected hsome hdoubt
        have hqueued : submission.queuedMessageId.isSome := by
          rcases hsendMessage with hnone | hsame
          · rw [hnone] at hsome
            exact absurd hsome (by simp)
          · exact hsame ▸ hsome
        have hfamily := hinvariant.family _ submission hlookup hqueued
        have hheld : (settleCard facts dispatch.clientMessageId).inputs = state.inputs :=
          hinputs.trans hsame.inputs
        rw [← hheld] at hfamily
        simp [refusedInDoubt, hrejected, hfamily, hdoubt] at hrefused

theorem cardHandedOffAs_eq_some (hmessage : submission.queuedMessageId = some messageId)
    (hcard : state.queue.cards.lookup messageId = some card)
    (hhanded : HandedOffAs card submission.clientMessageId) :
    cardHandedOffAs state submission = some card := by
  unfold cardHandedOffAs
  rw [hmessage, Option.bind_some, hcard]
  simp [hhanded.1, hhanded.2]

theorem of_cardHandedOffAs (hkeyed : KeyedCards state)
    (hcard : cardHandedOffAs state submission = some card) :
    submission.queuedMessageId = some card.messageId ∧
      state.queue.cards.lookup card.messageId = some card ∧
        HandedOffAs card submission.clientMessageId := by
  unfold cardHandedOffAs at hcard
  simp only [Option.filter_eq_some_iff, Option.bind_eq_some_iff, Bool.and_eq_true,
    decide_eq_true_eq] at hcard
  obtain ⟨⟨messageId, hmessage, hlookup⟩, hhanded⟩ := hcard
  have hid := hkeyed messageId card hlookup
  exact ⟨hid ▸ hmessage, hid ▸ hlookup, hhanded⟩

theorem DispatchEffect.cards {row : JournalRowBase}
    (heffect : DispatchEffect runtime row dispatch submission state next) (messageId : String) :
    (next.queue.cards.lookup messageId = state.queue.cards.lookup messageId ∧
        ∀ card, cardHandedOffAs state submission = some card → card.messageId ≠ messageId) ∨
      ∃ card, cardHandedOffAs state submission = some card ∧ card.messageId = messageId ∧
        next.queue.cards.lookup messageId = some (settledHandOff state card
          (settleDispatch runtime row dispatch submission)) := by
  cases hcard : cardHandedOffAs state submission with
  | none => exact Or.inl ⟨by rw [heffect.unhanded hcard], fun card h => absurd h (by simp)⟩
  | some card =>
    rw [heffect.handed card hcard]
    by_cases hself : messageId = card.messageId
    · subst hself
      refine Or.inr ⟨card, rfl, rfl, ?_⟩
      rw [← messageId_settledHandOff state card]
      exact lookup_setCard_self _ _
    · refine Or.inl ⟨lookup_setCard_ne _ _ ?_, ?_⟩
      · rwa [messageId_settledHandOff]
      · rintro found hfound heq
        cases hfound
        exact hself heq.symm

/-- A dispatch's effect keeps cards and submissions in step. -/
theorem HandOffInvariant.applyDispatch {row : JournalRowBase} (hinvariant : HandOffInvariant state)
    (hlookup : state.submissions.lookup dispatch.clientMessageId = some submission)
    (hkeyed : KeyedCards next)
    (heffect : DispatchEffect runtime row dispatch submission state next) :
    HandOffInvariant next := by
  have hown := hinvariant.own _ submission hlookup
  obtain ⟨final, hfinal, hfinalClient, hfinalMessage, hfinalState⟩ := heffect.settled
  have hqueuedFinal : final.queuedMessageId.isSome →
      final.queuedMessageId = submission.queuedMessageId := by
    intro hsome
    rcases hfinalMessage with hnone | hsame
    · rw [hnone] at hsome
      exact absurd hsome (by simp)
    · exact hsame
  refine ⟨hkeyed, ?_, ?_, ?_, ?_⟩
  · intro id found hfound
    by_cases hid : id = dispatch.clientMessageId
    · rw [hid, hfinal] at hfound
      cases hfound
      rw [hfinalClient, hown, hid]
    · rw [heffect.others id hid] at hfound
      exact hinvariant.own id found hfound
  · intro id found hfound hqueued
    rw [heffect.sources]
    by_cases hid : id = dispatch.clientMessageId
    · rw [hid, hfinal] at hfound
      cases hfound
      rw [hid]
      exact hinvariant.family _ submission hlookup (hqueuedFinal hqueued ▸ hqueued)
    · rw [heffect.others id hid] at hfound
      exact hinvariant.family id found hfound hqueued
  · intro messageId card id found hcard hhanded hfound hmessage hrejected
    by_cases hid : id = dispatch.clientMessageId
    · rw [hid, hfinal] at hfound
      cases hfound
      rcases hfinalState with ⟨hsettled, hdoubtful⟩ | ⟨_, _, hunknown, _⟩
      · have hqueued : final.queuedMessageId.isSome := by rw [hmessage]; rfl
        have hstate : dispatch.state = .rejected := by
          rw [← hrejected, hsettled]
          rfl
        rcases heffect.cards messageId with ⟨hsame, hother⟩ | ⟨prior, hprior, _, hnew⟩
        · -- no card of this message is handed off as another submission
          rw [hsame] at hcard
          have hprior := cardHandedOffAs_eq_some ((hqueuedFinal hqueued) ▸ hmessage) hcard
            (by rw [hown, ← hid]; exact hhanded)
          exact hother card hprior (hinvariant.keyed messageId card hcard)
        · rw [hnew] at hcard
          cases hcard
          obtain ⟨_, hdoubt⟩ := settledHandOff_dispatched hhanded.1
          have hnone := (hdoubtful hstate hqueued (hsettled ▸ hdoubt hstate)).2
          rw [hprior] at hnone
          exact absurd hnone (by simp)
      · rw [hrejected] at hunknown
        exact absurd hunknown (by simp)
    · rw [heffect.others id hid] at hfound
      rcases heffect.cards messageId with ⟨hsame, _⟩ | ⟨prior, hprior, _, hnew⟩
      · exact hinvariant.linked messageId card id found (hsame ▸ hcard) hhanded hfound hmessage
          hrejected
      · rw [hnew] at hcard
        cases hcard
        obtain ⟨hsame, _⟩ := settledHandOff_dispatched hhanded.1
        have hpriorHanded := (of_cardHandedOffAs hinvariant.keyed hprior).2.2
        rw [hsame] at hhanded
        have hconsumed := hpriorHanded.2.symm.trans hhanded.2
        exact hid ((Option.some.inj hconsumed).symm.trans hown)
  · intro id found hfound hrejected hqueued hdoubt
    by_cases hid : id = dispatch.clientMessageId
    · rw [hid, hfinal] at hfound
      cases hfound
      rcases hfinalState with ⟨hsettled, hdoubtful⟩ | ⟨_, _, hunknown, _⟩
      · have hstate : dispatch.state = .rejected := by
          rw [← hrejected, hsettled]
          rfl
        exact (hdoubtful hstate hqueued hdoubt).1
      · rw [hrejected] at hunknown
        exact absurd hunknown (by simp)
    · rw [heffect.others id hid] at hfound
      exact hinvariant.doubtful id found hfound hrejected hqueued hdoubt

/-- A dispatch row that reaches no submission moves nothing: the card of a
submission that is settled is not handed off as it, or was accepted. -/
theorem ignored_dispatch (hinvariant : HandOffInvariant state)
    (runtime : JournalRuntime P) (row : JournalRowBase) (dispatch : JournalDispatch)
    (hignored : dispatchApplies state (⟨row, .dispatch dispatch⟩ : JournalRow P) = false) :
    let next := applyJournalRow runtime state ⟨row, .dispatch dispatch⟩
    next.submissions = state.submissions ∧ next.inputs = state.inputs ∧
      ∀ messageId, next.queue.cards.lookup messageId = state.queue.cards.lookup messageId := by
  have hfacts : applyJournalRowFacts runtime state ⟨row, .dispatch dispatch⟩ =
      observeActivity state row := by
    change applyJournalDispatchRow runtime (observeActivity state row) row dispatch = _
    unfold applyJournalDispatchRow
    split
    · rfl
    · rename_i submission hlookup
      have hsettled := (dispatchApplies_eq row hlookup).symm.trans hignored
      rw [hsettled]
      rfl
  have hcard : (settleCard (observeActivity state row) dispatch.clientMessageId).submissions =
        state.submissions ∧
      (settleCard (observeActivity state row) dispatch.clientMessageId).inputs = state.inputs ∧
      ∀ messageId, (settleCard (observeActivity state row)
        dispatch.clientMessageId).queue.cards.lookup messageId =
          state.queue.cards.lookup messageId := by
    unfold settleCard
    split
    · exact ⟨rfl, rfl, fun _ => rfl⟩
    · rename_i submission hlookup
      change state.submissions.lookup dispatch.clientMessageId = some submission at hlookup
      have hsettled := (dispatchApplies_eq row hlookup).symm.trans hignored
      split
      · exact ⟨rfl, rfl, fun _ => rfl⟩
      · rename_i card hcard
        obtain ⟨hmessage, hstored, hhanded⟩ := of_cardHandedOffAs hinvariant.keyed hcard
        rw [hinvariant.own _ _ hlookup] at hhanded
        have hrejected := hinvariant.linked _ card _ submission hstored hhanded hlookup hmessage
        have hkept : settledHandOff (observeActivity state row) card submission = card := by
          unfold settledHandOff
          exact if_pos hrejected
        have hdoubt : queuedHandOffInDoubt submission.toHandOff = false := by
          simp [queuedHandOffInDoubt, hrejected, hsettled]
        have hsame : settleHandOffInDoubt (Reducer.setCard (observeActivity state row) card)
            dispatch.clientMessageId = Reducer.setCard (observeActivity state row) card := by
          have hnow : (Reducer.setCard (observeActivity state row) card).submissions.lookup
            dispatch.clientMessageId = some submission := hlookup
          unfold settleHandOffInDoubt
          simp only [hnow, hdoubt]
          rfl
        rw [hkept, hsame]
        refine ⟨rfl, rfl, fun messageId => ?_⟩
        by_cases hself : messageId = card.messageId
        · rw [hself, lookup_setCard_self]
          exact hstored.symm
        · exact lookup_setCard_ne _ _ hself
  have hnext : applyJournalRow runtime state ⟨row, .dispatch dispatch⟩ =
      afterRow (settleCard (observeActivity state row) dispatch.clientMessageId)
        ⟨row, .dispatch dispatch⟩ := by
    unfold applyJournalRow
    dsimp only
    rw [hignored, hfacts]
    rfl
  intro next
  change applyJournalRow runtime state ⟨row, .dispatch dispatch⟩ = _ at hnext
  have hafter : next = _ := hnext
  rw [hafter]
  exact hcard

/-! ## Every row -/

theorem HandOffInvariant.applyJournalRow
    (hinvariant : HandOffInvariant state) (runtime : JournalRuntime P) (row : JournalRow P) :
    HandOffInvariant (Reducer.applyJournalRow runtime state row) := by
  have hkeyed := hinvariant.keyed.applyJournalRow runtime row
  obtain ⟨base, content⟩ := row
  have hobserved : HandOffInvariant (observeActivity state base) :=
    hinvariant.congr rfl (fun _ => rfl) rfl
  cases content with
  | epoch => exact hinvariant.congr rfl (fun _ => rfl) rfl
  | queue messageId change =>
    have hrow : HandOffInvariant (observeRow state base) := hinvariant.congr rfl (fun _ => rfl) rfl
    exact (hrow.applyQueueRow runtime messageId change).congr rfl (fun _ => rfl) rfl
  | item write =>
    have haccepts := acceptsRule.applyItemWrite runtime (observeActivity state base) base write
      write.executionOwner base.toAgentJournalProducerLinkage base.turnScope 0 base.ts
    exact (hobserved.accepts haccepts).spendReportedCommandCards.congr rfl (fun _ => rfl) rfl
  | tombstone tombstone =>
    have hsame := sameLedgerRule.applyTombstoneRow runtime (observeActivity state base) tombstone
    exact hobserved.congr hsame.submissions (fun _ => by
      change (applyTombstoneRow runtime (observeActivity state base) tombstone).queue.cards.lookup
        _ = _
      rw [hsame.queue]) (congrArg JournalInputObligations.sources hsame.inputs)
  | lifecycleBatch settlementId mutations =>
    have haccepts := accepts_applyLifecycleBatch runtime (observeActivity state base) base
      settlementId mutations
    exact (hobserved.accepts haccepts).spendReportedCommandCards.congr rfl (fun _ => rfl) rfl
  | submission write =>
    have hsame := sameLedgerRule.applyJournalSubmission runtime (observeActivity state base) base
      write
    exact (hobserved.setSubmission base write hsame.submissions hsame.queue
      hsame.inputs).congr rfl (fun _ => rfl) rfl
  | dispatch dispatch =>
    cases happlies : dispatchApplies state (⟨base, .dispatch dispatch⟩ : JournalRow P) with
    | true =>
      change journalDispatchRowApplies
        ((state.submissions.lookup dispatch.clientMessageId).map _) = true at happlies
      cases hlookup : state.submissions.lookup dispatch.clientMessageId with
      | none =>
        rw [hlookup] at happlies
        exact absurd happlies (by simp [journalDispatchRowApplies])
      | some submission =>
        rw [hlookup] at happlies
        exact hinvariant.applyDispatch hlookup hkeyed
          (dispatchEffect_applyJournalRow hinvariant runtime base hlookup happlies)
    | false =>
      obtain ⟨hsubmissions, hinputs, hcards⟩ :=
        ignored_dispatch hinvariant runtime base dispatch happlies
      exact hinvariant.congr hsubmissions hcards (congrArg JournalInputObligations.sources hinputs)

end Wakii.HandOffs
