import Wakii.Journal.Reducer

/-!
# What each fold leaves alone

The reducer's state is read in two halves: the timeline (items and tombstones)
and the ledger (submissions, queue and inputs).  Every row is folded by few kinds of
steps, so a relation that each kind keeps is kept by whole rows.
-/

namespace Wakii.Reducer

open OrderedCollections Wakii.DispatchSettlement Wakii.JournalRows

variable {P : Type}

structure SameTimeline (state next : JournalReducerState P) : Prop where
  items : next.items = state.items
  tombstones : next.tombstones = state.tombstones
  memory : next.appliedSettlementIds = state.appliedSettlementIds

structure SameLedger (state next : JournalReducerState P) : Prop where
  submissions : next.submissions = state.submissions
  queue : next.queue = state.queue
  inputs : next.inputs = state.inputs
  memory : next.appliedSettlementIds = state.appliedSettlementIds

/-- Timeline, ledger and last sequence stay. -/
structure Aside (state next : JournalReducerState P) : Prop
    extends SameTimeline state next, SameLedger state next where
  lastSequence : next.lastSequence = state.lastSequence

variable (runtime : JournalRuntime P) (state : JournalReducerState P)
  (submission : AgentJournalSubmission P) (row : JournalRowBase) (itemId : String)
  (place : HandOffPlace) (dispatch : JournalDispatch) (write : JournalItemWrite P)
  (clientMessageId : String) (sessionId epoch : String)

theorem SameTimeline.refl : SameTimeline state state := ⟨rfl, rfl, rfl⟩

theorem SameLedger.refl : SameLedger state state := ⟨rfl, rfl, rfl, rfl⟩

theorem SameLedger.trans {first second third : JournalReducerState P}
    (hfirst : SameLedger first second) (hsecond : SameLedger second third) :
    SameLedger first third :=
  ⟨hsecond.submissions.trans hfirst.submissions, hsecond.queue.trans hfirst.queue,
    hsecond.inputs.trans hfirst.inputs, hsecond.memory.trans hfirst.memory⟩

/-! ## Steps aside -/

theorem Aside.refl : Aside state state := ⟨⟨rfl, rfl, rfl⟩, rfl, rfl, rfl, rfl⟩

theorem aside_rememberPlace : Aside state (rememberPlace state submission place) := by
  unfold rememberPlace
  split
  · exact ⟨⟨rfl, rfl, rfl⟩, rfl, rfl, rfl, rfl⟩
  · exact Aside.refl state

theorem aside_noteTurnAccepted (acceptedSequence : Option ℤ) :
    Aside state (noteTurnAccepted state acceptedSequence) := by
  cases acceptedSequence with
  | none => exact Aside.refl state
  | some sequence => exact ⟨⟨rfl, rfl, rfl⟩, rfl, rfl, rfl, rfl⟩

theorem aside_recordAcceptance : Aside state (recordAcceptance state row dispatch) := by
  unfold recordAcceptance
  split
  · exact Aside.refl state
  · exact ⟨⟨rfl, rfl, rfl⟩, rfl, rfl, rfl, rfl⟩

theorem aside_declareEcho : Aside state (declareEcho state write) := by
  unfold declareEcho
  split
  · exact Aside.refl state
  · split
    · exact Aside.refl state
    · exact ⟨⟨rfl, rfl, rfl⟩, rfl, rfl, rfl, rfl⟩

theorem aside_resolveJournalItemId (body : AgentJournalItemBody P) :
    Aside state (resolveJournalItemId runtime state itemId body).1 := by
  unfold resolveJournalItemId
  split
  · exact Aside.refl state
  · split
    · exact Aside.refl state
    · exact ⟨⟨rfl, rfl, rfl⟩, rfl, rfl, rfl, rfl⟩

theorem aside_retire : Aside state (retireRewoundJournalSubmission runtime state itemId) := by
  unfold retireRewoundJournalSubmission
  split
  · exact ⟨⟨rfl, rfl, rfl⟩, rfl, rfl, rfl, rfl⟩
  · exact Aside.refl state

/-! ## Rules -/

section Rules

variable (R : JournalReducerState P → JournalReducerState P → Prop)

/-- Steps aside, and those of one item, keep the relation. -/
structure TimelineRule : Prop where
  trans {first second third : JournalReducerState P} :
    R first second → R second third → R first third
  aside {state next : JournalReducerState P} : Aside state next → R state next
  upsert (runtime : JournalRuntime P) (state : JournalReducerState P) (itemId : String)
    (revision : ℤ) (next : AgentJournalRenderItem P) (fences : ItemFences) :
    next.itemId = itemId → next.revision = revision →
      R state (upsertJournalItem runtime state itemId revision next fences)
  remove (state : JournalReducerState P) (itemId : String) (revision : ℤ) :
    R state (removeJournalItem state itemId revision)
  place (state : JournalReducerState P) (itemId : String) (place : HandOffPlace) :
    R state (placeItem state itemId place)

/-- So do the steps that accept a submission its provider echoes. -/
structure EchoRule : Prop extends TimelineRule R where
  echo (state : JournalReducerState P) (itemId : String) : R state (recordEcho state itemId)
  accept {state : JournalReducerState P} {key : String} {submission : AgentJournalSubmission P}
    (row : JournalRowBase) (providerItemId : String) :
    state.submissions.lookup key = some submission →
      journalDispatchRowApplies (some submission.dispatchState) →
      R state (setSubmission state key (acceptedSubmission row providerItemId submission))

/-- So do the steps that unlink a submission from its card. -/
structure UnlinkRule : Prop extends TimelineRule R where
  unlink {state : JournalReducerState P} {key : String} {submission : AgentJournalSubmission P} :
    state.submissions.lookup key = some submission →
      R state (setSubmission state key { submission with queuedMessageId := none })

/-- So do the steps by which a dispatch row settles its submission. -/
structure FactsRule : Prop extends EchoRule R where
  settle {state : JournalReducerState P} {submission : AgentJournalSubmission P}
    (runtime : JournalRuntime P) (row : JournalRowBase) (dispatch : JournalDispatch) :
    state.submissions.lookup dispatch.clientMessageId = some submission →
      journalDispatchRowApplies (some submission.dispatchState) →
      R state (setSubmission state dispatch.clientMessageId
        (settleDispatch runtime row dispatch submission))

variable {R}

section Timeline

variable (rule : TimelineRule R)
include rule

theorem TimelineRule.refl : R state state := rule.aside (Aside.refl state)

theorem TimelineRule.foldl {α : Type} {step : JournalReducerState P → α → JournalReducerState P}
    (hstep : ∀ state value, R state (step state value)) (values : List α)
    (state : JournalReducerState P) : R state (values.foldl step state) := by
  induction values generalizing state with
  | nil => exact rule.refl state
  | cons value rest ih => exact rule.trans (hstep state value) (ih (step state value))

theorem TimelineRule.restorePlace : R state (restorePlace state clientMessageId) := by
  unfold Reducer.restorePlace
  split
  · exact rule.place state _ _
  · exact rule.refl state

theorem TimelineRule.placeDispatch (settled : AgentJournalSubmission P) :
    R state (placeDispatch state row dispatch settled) := by
  unfold Reducer.placeDispatch
  cases dispatch.state with
  | pending =>
    dsimp only
    unfold placeHandedOverMessage
    dsimp only
    split
    · exact rule.refl state
    · split
      · exact rule.trans (rule.place state _ _) (rule.aside (aside_rememberPlace _ settled _))
      · exact rule.refl state
  | rejected => exact rule.place state _ _
  | accepted =>
    exact rule.trans (rule.aside (aside_noteTurnAccepted state settled.acceptedSequence))
      (rule.aside (aside_recordAcceptance _ row dispatch))
  | unknown => exact rule.refl state
  | newer tag => exact rule.refl state

theorem TimelineRule.applyTombstoneRow (tombstone : JournalTombstone) :
    R state (applyTombstoneRow runtime state tombstone) := by
  have hremoved := rule.remove state (resolveItemId state tombstone.itemId) tombstone.revision
  unfold Reducer.applyTombstoneRow
  split
  · exact rule.refl state
  · dsimp only
    split
    · exact rule.trans hremoved (rule.aside (aside_retire runtime _ tombstone.itemId))
    · exact hremoved

theorem TimelineRule.applyJournalSubmission (write : JournalSubmissionWrite P) :
    R (setSubmission state write.clientMessageId (newSubmission row write))
      (applyJournalSubmission runtime state row write) :=
  rule.upsert _ _ _ _ _ _ rfl rfl

end Timeline

theorem TimelineRule.mono {S : JournalReducerState P → JournalReducerState P → Prop}
    (rule : TimelineRule R) (hle : ∀ {state next}, R state next → S state next)
    (htrans : ∀ {first second third}, S first second → S second third → S first third) :
    TimelineRule S where
  trans := htrans
  aside haside := hle (rule.aside haside)
  upsert _ _ _ _ _ _ hid hrevision := hle (rule.upsert _ _ _ _ _ _ hid hrevision)
  remove _ _ _ := hle (rule.remove _ _ _)
  place _ _ _ := hle (rule.place _ _ _)

theorem sameLedgerRule : TimelineRule SameLedger (P := P) where
  trans := SameLedger.trans
  aside haside := haside.toSameLedger
  upsert runtime state itemId revision next fences _ _ := by
    unfold upsertJournalItem
    split
    · exact SameLedger.refl state
    · unfold writeItem
      cases state.items.lookup itemId <;> exact ⟨rfl, rfl, rfl, rfl⟩
  remove state itemId revision := by
    unfold removeJournalItem
    split
    · exact SameLedger.refl state
    · cases state.items.lookup itemId <;> exact ⟨rfl, rfl, rfl, rfl⟩
  place state itemId place := by
    unfold placeItem
    cases state.items.lookup itemId <;> exact ⟨rfl, rfl, rfl, rfl⟩

section Echo

variable (rule : EchoRule R)
include rule

theorem EchoRule.acceptUndeclaredEcho (resolvedItemId : String) :
    R state (acceptUndeclaredEcho state write resolvedItemId row) := by
  unfold Reducer.acceptUndeclaredEcho
  split
  · exact rule.refl state
  · unfold acceptSubmissionFromProviderItem
    split
    · exact rule.refl state
    · refine rule.trans (rule.echo state resolvedItemId) ?_
      dsimp only
      split
      · exact rule.refl _
      · rename_i key submission hinput
        split
        · rename_i happlies
          have hnoted := aside_noteTurnAccepted (recordEcho state resolvedItemId)
            submission.acceptedSequence
          have hlookup : (noteTurnAccepted (recordEcho state resolvedItemId)
              submission.acceptedSequence).submissions.lookup key = some submission := by
            rw [hnoted.submissions]
            simp only [inputForItem, Option.bind_eq_some_iff, Option.map_eq_some_iff] at hinput
            obtain ⟨found, _, entry, hentry, hpair⟩ := hinput
            cases hpair
            exact hentry
          exact rule.trans (rule.trans (rule.aside hnoted)
            (rule.accept row write.itemId hlookup happlies))
            (rule.aside ⟨⟨rfl, rfl, rfl⟩, rfl, rfl, rfl, rfl⟩)
        · exact rule.refl _

theorem EchoRule.applyItemWrite (executionOwner : Option ℤ)
    (producer : AgentJournalProducerLinkage) (turnScope : Option AgentJournalTurnScope)
    (sequenceIndex : ℕ) (observedAt : ℤ) :
    R state (applyItemWrite runtime state row write executionOwner producer turnScope sequenceIndex
      observedAt) := by
  unfold Reducer.applyItemWrite
  split
  · exact rule.refl state
  · have hresolved := rule.trans (rule.aside (aside_declareEcho state write))
      (rule.aside (aside_resolveJournalItemId runtime (declareEcho state write) write.itemId
        write.body))
    exact rule.trans (rule.trans hresolved (rule.acceptUndeclaredEcho _ row write _))
      (rule.upsert _ _ _ _ _ _ rfl rfl)

theorem EchoRule.foldl_applyLifecycleMutation (indexed : List (JournalLifecycleMutation P × ℕ)) :
    R state (indexed.foldl (applyLifecycleMutation runtime row) state) := by
  refine rule.foldl (fun state value => ?_) indexed state
  obtain ⟨mutation, sequenceIndex⟩ := value
  cases mutation with
  | item write linkage turnScope observedAt =>
    exact rule.applyItemWrite runtime state row write _ _ _ _ _
  | tombstone itemId revision => exact rule.remove state _ revision

end Echo

section Unlink

variable (rule : UnlinkRule R)
include rule

theorem UnlinkRule.settleHandOffInDoubt : R state (settleHandOffInDoubt state clientMessageId) := by
  unfold Reducer.settleHandOffInDoubt
  split
  · exact rule.refl state
  · rename_i submission hlookup
    split
    · have hnormalized : Aside state (normalizeHandOff state submission.clientMessageId) :=
        ⟨⟨rfl, rfl, rfl⟩, rfl, rfl, rfl, rfl⟩
      have hplaced := rule.trans (rule.aside hnormalized)
        (rule.restorePlace _ submission.clientMessageId)
      unfold placeQueuedHandOffInDoubt
      dsimp only
      split
      · refine rule.trans hplaced (rule.unlink ?_)
        rw [(sameLedgerRule.restorePlace _ _).submissions]
        exact hlookup
      · exact hplaced
    · exact rule.refl state

theorem UnlinkRule.settleRecovered (messageId : String) (recovers : Option String) :
    R state (settleRecovered state messageId recovers) := by
  unfold Reducer.settleRecovered
  split
  · exact rule.refl state
  · split
    · exact rule.settleHandOffInDoubt state _
    · exact rule.refl state

theorem UnlinkRule.settleAttempt (attempt : Option String) :
    R state (settleAttempt state attempt) := by
  cases attempt with
  | none => exact rule.refl state
  | some id => exact rule.settleHandOffInDoubt state id

/-- What also sets cards folds the queue's side of a row. -/
theorem UnlinkRule.foldJournalQueueRow (hcard : ∀ state card, R state (setCard state card))
    (row : JournalRow P) : R state (foldJournalQueueRow runtime state row) := by
  have hspend : R state (spendReportedCommandCards state) := by
    refine rule.foldl (fun state messageId => ?_) _ state
    unfold spendReportedCard
    split
    · exact rule.refl state
    · split
      · exact hcard state _
      · exact rule.refl state
  unfold Reducer.foldJournalQueueRow
  cases row.content with
  | epoch => exact rule.refl state
  | tombstone tombstone => exact rule.refl state
  | item write => exact hspend
  | lifecycleBatch settlementId mutations => exact hspend
  | submission write =>
    dsimp only
    unfold handOffCard
    split
    · exact rule.refl state
    · exact hcard state _
  | dispatch dispatch =>
    dsimp only
    unfold settleCard
    split
    · exact rule.refl state
    · split
      · exact rule.refl state
      · exact rule.trans (hcard state _) (rule.settleHandOffInDoubt _ _)
  | queue messageId change =>
    dsimp only
    unfold applyQueueRow
    split
    · exact rule.trans (rule.trans (hcard state _) (rule.settleRecovered _ _ _))
        (rule.settleAttempt _ _)
    · exact rule.refl state
    all_goals exact hcard state _

end Unlink

/-- What also takes new submissions and batches folds the facts of a row. -/
theorem FactsRule.applyJournalRowFacts (rule : FactsRule R) (row : JournalRow P)
    (hsubmit : ∀ write, row.content = .submission write → ∀ state,
      R state (setSubmission state write.clientMessageId (newSubmission row.base write)))
    (hremember : ∀ settlementId mutations, row.content = .lifecycleBatch settlementId mutations →
      ∀ state, R state (rememberAppliedSettlementId state settlementId)) :
    R (observeRow state row.base) (applyJournalRowFacts runtime state row) := by
  have hactive : R (observeRow state row.base) (observeActivity state row.base) :=
    rule.aside ⟨⟨rfl, rfl, rfl⟩, rfl, rfl, rfl, rfl⟩
  unfold Reducer.applyJournalRowFacts
  cases hcontent : row.content with
  | epoch => exact rule.aside ⟨⟨rfl, rfl, rfl⟩, rfl, rfl, rfl, rfl⟩
  | queue messageId change => exact rule.refl _
  | item write => exact rule.trans hactive (rule.applyItemWrite runtime _ row.base write _ _ _ _ _)
  | tombstone tombstone => exact rule.trans hactive (rule.applyTombstoneRow runtime _ tombstone)
  | lifecycleBatch settlementId mutations =>
    refine rule.trans hactive ?_
    dsimp only
    unfold applyLifecycleBatch
    split
    · exact rule.refl _
    · exact rule.trans (rule.foldl_applyLifecycleMutation runtime _ row.base _)
        (hremember settlementId mutations hcontent _)
  | submission write =>
    exact rule.trans (rule.trans hactive (hsubmit write hcontent _))
      (rule.applyJournalSubmission runtime _ row.base write)
  | dispatch dispatch =>
    refine rule.trans hactive ?_
    dsimp only
    unfold applyJournalDispatchRow
    split
    · exact rule.refl _
    · rename_i submission hlookup
      split
      · rename_i happlies
        exact rule.trans (rule.settle runtime row.base dispatch hlookup happlies)
          (rule.placeDispatch _ row.base dispatch _)
      · exact rule.refl _

end Rules

theorem spendReportedCard_eq (messageId : String) :
    ∃ queue, spendReportedCard state messageId = { state with queue := queue } := by
  unfold spendReportedCard
  split
  · exact ⟨state.queue, rfl⟩
  · split
    · exact ⟨_, rfl⟩
    · exact ⟨state.queue, rfl⟩

theorem foldl_spendReportedCard_eq (ids : List String) (state : JournalReducerState P) :
    ∃ queue, ids.foldl spendReportedCard state = { state with queue := queue } := by
  induction ids generalizing state with
  | nil => exact ⟨state.queue, rfl⟩
  | cons id rest ih =>
    obtain ⟨spent, hspent⟩ := spendReportedCard_eq state id
    obtain ⟨queue, hqueue⟩ := ih { state with queue := spent }
    exact ⟨queue, by rw [List.foldl_cons, hspent, hqueue]⟩

theorem obligations_frame (row : JournalRow P) (applies : Bool) :
    SameTimeline state (foldJournalInputObligations state row applies) ∧
      (foldJournalInputObligations state row applies).queue = state.queue ∧
      (foldJournalInputObligations state row applies).lastSequence = state.lastSequence := by
  unfold foldJournalInputObligations
  split
  · exact ⟨⟨rfl, rfl, rfl⟩, rfl, rfl⟩
  · split
    · unfold foldRefusalInDoubt
      split
      · exact ⟨⟨rfl, rfl, rfl⟩, rfl, rfl⟩
      · split <;> exact ⟨⟨rfl, rfl, rfl⟩, rfl, rfl⟩
    · exact ⟨⟨rfl, rfl, rfl⟩, rfl, rfl⟩
  · exact ⟨⟨rfl, rfl, rfl⟩, rfl, rfl⟩

/-! ## The queue through the facts of a row -/

theorem sameQueueRule :
    TimelineRule fun state next : JournalReducerState P => next.queue = state.queue :=
  sameLedgerRule.mono SameLedger.queue fun hfirst hsecond => hsecond.trans hfirst

theorem queueFactsRule :
    FactsRule fun state next : JournalReducerState P => next.queue = state.queue where
  toTimelineRule := sameQueueRule
  echo _ _ := rfl
  accept _ _ _ _ := rfl
  settle _ _ _ _ _ := rfl

theorem queueUnlinkRule :
    UnlinkRule fun state next : JournalReducerState P => next.queue = state.queue where
  toTimelineRule := sameQueueRule
  unlink _ := rfl

theorem queue_applyJournalRowFacts (row : JournalRow P) :
    (applyJournalRowFacts runtime state row).queue = state.queue :=
  queueFactsRule.applyJournalRowFacts runtime state row (fun _ _ _ => rfl) fun _ _ _ _ => rfl

/-! ## Cards stand under their own ids -/

def KeyedCards (state : JournalReducerState P) : Prop :=
  ∀ messageId card, state.queue.cards.lookup messageId = some card → card.messageId = messageId

theorem KeyedCards.of_queue {state next : JournalReducerState P} (hkeyed : KeyedCards state)
    (hqueue : next.queue = state.queue) : KeyedCards next := by
  intro messageId card hcard
  rw [hqueue] at hcard
  exact hkeyed messageId card hcard

variable {state : JournalReducerState P}

theorem KeyedCards.setCard (hkeyed : KeyedCards state) (card : QueuedMessageRow P) :
    KeyedCards (setCard state card) := by
  intro messageId found hfound
  change (state.queue.cards.set card.messageId card).lookup messageId = some found at hfound
  by_cases hmessage : messageId = card.messageId
  · rw [hmessage, OrderedMap.lookup_set_self] at hfound
    cases hfound
    exact hmessage.symm
  · rw [OrderedMap.lookup_set_ne _ _ hmessage] at hfound
    exact hkeyed messageId found hfound

theorem KeyedCards.spendReportedCard (hkeyed : KeyedCards state) (messageId : String) :
    KeyedCards (spendReportedCard state messageId) := by
  unfold Reducer.spendReportedCard
  split
  · exact hkeyed
  · split
    · exact hkeyed.setCard _
    · exact hkeyed

theorem keyedCardsRule :
    UnlinkRule fun state next : JournalReducerState P => KeyedCards state → KeyedCards next where
  toTimelineRule := sameQueueRule.mono (fun hqueue hkeyed => hkeyed.of_queue hqueue)
    fun hfirst hsecond hkeyed => hsecond (hfirst hkeyed)
  unlink _ hkeyed := hkeyed.of_queue rfl

theorem KeyedCards.foldJournalQueueRow (hkeyed : KeyedCards state) (runtime : JournalRuntime P)
    (row : JournalRow P) :
    KeyedCards (foldJournalQueueRow runtime state row) :=
  keyedCardsRule.foldJournalQueueRow runtime state (fun _ card hkeyed => hkeyed.setCard card) row
    hkeyed

theorem KeyedCards.applyJournalRow (hkeyed : KeyedCards state) (runtime : JournalRuntime P)
    (row : JournalRow P) :
    KeyedCards (applyJournalRow runtime state row) := by
  have hfacts := hkeyed.of_queue (queue_applyJournalRowFacts runtime state row)
  exact (hfacts.foldJournalQueueRow runtime row).of_queue (obligations_frame _ row _).2.1

theorem replay_append (before after : List (JournalRow P)) :
    replay runtime sessionId epoch (before ++ after) =
      after.foldl (applyJournalRow runtime) (replay runtime sessionId epoch before) :=
  List.foldl_append

theorem replay_concat (rows : List (JournalRow P)) (row : JournalRow P) :
    replay runtime sessionId epoch (rows ++ [row]) =
      applyJournalRow runtime (replay runtime sessionId epoch rows) row :=
  replay_append runtime sessionId epoch rows [row]

theorem keyedCards_replay
    (rows : List (JournalRow P)) : KeyedCards (replay runtime sessionId epoch rows) := by
  induction rows using List.reverseRecOn with
  | nil =>
    intro messageId card hcard
    exact absurd hcard (by simp [replay, createJournalReducerState])
  | append_singleton rows row ih =>
    rw [replay_concat]
    exact ih.applyJournalRow runtime row

end Wakii.Reducer
