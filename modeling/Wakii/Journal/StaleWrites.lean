import Mathlib
import Wakii.Journal.ReducerFrames
import Wakii.Library.RevisionRegister

/-!
# Stale writes

Every item id is a revision register: it is written and removed only at a
revision it has not seen.  Settled submissions keep their state, and a batch
that is still remembered changes nothing.
-/

namespace Wakii.StaleWrites

open List AList OrderedCollections Wakii.DispatchSettlement Wakii.JournalRows OrderedMap
open Wakii.Reducer

variable {P : Type}

/-! ## Items as revision registers -/

def itemRegister (state : JournalReducerState P) (itemId : String) : Register ℤ :=
  match state.items.lookup itemId with
  | some item => .live item.revision
  | none =>
    match state.tombstones.lookup itemId with
    | some revision => .removed revision
    | none => .vacant

def Apart (state : JournalReducerState P) : Prop :=
  ∀ itemId, itemId ∈ state.items → itemId ∉ state.tombstones

/-- A step of the timeline: every register advances, and none becomes both. -/
structure TimelineStep (state next : JournalReducerState P) : Prop where
  apart : Apart state → Apart next
  advances : ∀ itemId, (itemRegister state itemId).Advances (itemRegister next itemId)

/-- A step of the timeline that leaves the memory of applied batches alone. -/
structure QuietStep (state next : JournalReducerState P) : Prop
    extends TimelineStep state next where
  memory : next.appliedSettlementIds = state.appliedSettlementIds

variable {first second third : JournalReducerState P}

theorem TimelineStep.trans
    (hfirst : TimelineStep first second) (hsecond : TimelineStep second third) :
    TimelineStep first third where
  apart hapart := hsecond.apart (hfirst.apart hapart)
  advances itemId := (hfirst.advances itemId).trans (hsecond.advances itemId)

variable {state next : JournalReducerState P}

theorem QuietStep.of_same (hsame : SameTimeline state next) : QuietStep state next where
  apart hapart := by
    unfold Apart
    rw [hsame.items, hsame.tombstones]
    exact hapart
  advances itemId := by
    have heq : itemRegister next itemId = itemRegister state itemId := by
      unfold itemRegister
      rw [hsame.items, hsame.tombstones]
    rw [heq]
    exact Register.Advances.refl _
  memory := hsame.memory

theorem QuietStep.refl (state : JournalReducerState P) : QuietStep state state :=
  QuietStep.of_same (SameTimeline.refl state)

theorem QuietStep.trans (hfirst : QuietStep first second) (hsecond : QuietStep second third) :
    QuietStep first third :=
  ⟨hfirst.toTimelineStep.trans hsecond.toTimelineStep, hsecond.memory.trans hfirst.memory⟩

variable {itemId : String} {state : JournalReducerState P}

theorem revision_lt_of_not_stale {revision : ℤ}
    (hfresh : ¬ journalItemRevisionIsStale state itemId revision) :
    (itemRegister state itemId).revision < revision := by
  simp only [journalItemRevisionIsStale, Bool.or_eq_true, not_or] at hfresh
  obtain ⟨htombstone, hitem⟩ := hfresh
  unfold itemRegister
  cases hlookup : state.items.lookup itemId with
  | some item =>
    simp only [hlookup, decide_eq_true_eq, not_le] at hitem
    exact WithBot.coe_lt_coe.mpr hitem
  | none =>
    cases hremoved : state.tombstones.lookup itemId with
    | some removal =>
      simp only [hremoved, decide_eq_true_eq, not_le] at htombstone
      exact WithBot.coe_lt_coe.mpr htombstone
    | none => exact WithBot.bot_lt_coe revision

/-- A write that leaves its id live at a newer revision, and no other id moved. -/
theorem QuietStep.of_write (item : AgentJournalRenderItem P)
    (hlater : (itemRegister state itemId).revision < item.revision)
    (hitems : next.items = state.items.set itemId item)
    (htombstones : next.tombstones = state.tombstones.erase itemId)
    (hmemory : next.appliedSettlementIds = state.appliedSettlementIds) :
    QuietStep state next where
  memory := hmemory
  apart hapart other := by
    rw [hitems, htombstones, OrderedMap.mem_set, mem_erase]
    rintro (rfl | hother) ⟨hne, hremoved⟩
    · exact hne rfl
    · exact hapart other hother hremoved
  advances other := by
    by_cases hother : other = itemId
    · subst hother
      have hlive : itemRegister next other = .live item.revision := by
        unfold itemRegister
        rw [hitems, lookup_set_self]
      rw [hlive]
      exact Register.advances_live hlater
    · have hsame : itemRegister next other = itemRegister state other := by
        unfold itemRegister
        rw [hitems, htombstones, lookup_set_ne _ _ hother, lookup_erase_ne hother]
      rw [hsame]
      exact Register.Advances.refl _

theorem QuietStep.of_removal
    {revision : ℤ} (hlater : (itemRegister state itemId).revision < revision)
    (hitems : next.items = state.items.erase itemId)
    (htombstones : next.tombstones = state.tombstones.set itemId revision)
    (hmemory : next.appliedSettlementIds = state.appliedSettlementIds) :
    QuietStep state next where
  memory := hmemory
  apart hapart other := by
    rw [hitems, htombstones, OrderedMap.mem_set, mem_erase]
    rintro ⟨hne, hother⟩ (hself | hremoved)
    · exact hne hself
    · exact hapart other hother hremoved
  advances other := by
    by_cases hother : other = itemId
    · subst hother
      have hremoved : itemRegister next other = .removed revision := by
        unfold itemRegister
        rw [hitems, htombstones, lookup_erase, lookup_set_self]
      rw [hremoved]
      exact Register.advances_removed hlater
    · have hsame : itemRegister next other = itemRegister state other := by
        unfold itemRegister
        rw [hitems, htombstones, lookup_erase_ne hother, lookup_set_ne _ _ hother]
      rw [hsame]
      exact Register.Advances.refl _

variable {item : AgentJournalRenderItem P}

theorem QuietStep.of_place (placed : AgentJournalRenderItem P)
    (hlookup : state.items.lookup itemId = some item) (hrevision : placed.revision = item.revision)
    (hitems : next.items = state.items.set itemId placed)
    (htombstones : next.tombstones = state.tombstones)
    (hmemory : next.appliedSettlementIds = state.appliedSettlementIds) :
    QuietStep state next where
  memory := hmemory
  apart hapart other := by
    rw [hitems, htombstones, OrderedMap.mem_set]
    rintro (rfl | hother)
    · exact hapart other (lookup_isSome.mp (by rw [hlookup]; rfl))
    · exact hapart other hother
  advances other := by
    have hsame : itemRegister next other = itemRegister state other := by
      unfold itemRegister
      rw [hitems, htombstones]
      by_cases hother : other = itemId
      · rw [hother, lookup_set_self, hlookup]
        exact congrArg Register.live hrevision
      · rw [lookup_set_ne _ _ hother]
    rw [hsame]
    exact Register.Advances.refl _

variable (runtime : JournalRuntime P) (sessionId epoch : String) (rows : List (JournalRow P))

theorem quietStepRule : TimelineRule (P := P) QuietStep where
  trans := QuietStep.trans
  aside haside := .of_same haside.toSameTimeline
  upsert runtime state itemId revision next fences _ hrevision := by
    unfold upsertJournalItem
    split
    · exact QuietStep.refl state
    · rename_i hfresh
      have hlater := revision_lt_of_not_stale hfresh
      rw [← hrevision] at hlater
      unfold writeItem
      dsimp only
      cases state.items.lookup itemId with
      | none => exact QuietStep.of_write next hlater rfl rfl rfl
      | some existing =>
        exact QuietStep.of_write (revisedItem runtime itemId existing next) hlater rfl rfl rfl
  remove state itemId revision := by
    unfold removeJournalItem
    split
    · exact QuietStep.refl state
    · rename_i hfresh
      have hlater := revision_lt_of_not_stale hfresh
      cases state.items.lookup itemId with
      | none => exact QuietStep.of_removal hlater rfl rfl rfl
      | some existing => exact QuietStep.of_removal hlater rfl rfl rfl
  place state itemId place := by
    unfold placeItem
    split
    · exact QuietStep.refl state
    · rename_i item hlookup
      exact QuietStep.of_place (placedItem item place) hlookup rfl rfl rfl rfl

theorem quietStepFactsRule : FactsRule (P := P) QuietStep where
  toTimelineRule := quietStepRule
  echo _ _ := .of_same ⟨rfl, rfl, rfl⟩
  accept _ _ _ _ := .of_same ⟨rfl, rfl, rfl⟩
  settle _ _ _ _ _ := .of_same ⟨rfl, rfl, rfl⟩

theorem quietStepUnlinkRule : UnlinkRule (P := P) QuietStep where
  toTimelineRule := quietStepRule
  unlink _ := .of_same ⟨rfl, rfl, rfl⟩

/-! ## Every row steps the timeline -/

theorem quietStep_applyJournalRowFacts (state : JournalReducerState P) (row : JournalRow P)
    (hbatch : ∀ settlementId mutations, row.content ≠ .lifecycleBatch settlementId mutations) :
    QuietStep state (applyJournalRowFacts runtime state row) := by
  have hobserved : QuietStep state (observeRow state row.base) := .of_same ⟨rfl, rfl, rfl⟩
  exact hobserved.trans (quietStepFactsRule.applyJournalRowFacts runtime state row
    (fun _ _ _ => .of_same ⟨rfl, rfl, rfl⟩)
    fun settlementId mutations hcontent => absurd hcontent (hbatch settlementId mutations))

theorem timelineStepRule : FactsRule (P := P) TimelineStep where
  toTimelineRule := quietStepRule.mono QuietStep.toTimelineStep TimelineStep.trans
  echo state itemId := (quietStepFactsRule.echo state itemId).toTimelineStep
  accept row item hlookup happlies :=
    (quietStepFactsRule.accept row item hlookup happlies).toTimelineStep
  settle runtime row dispatch hlookup happlies :=
    (quietStepFactsRule.settle runtime row dispatch hlookup happlies).toTimelineStep

theorem timelineStep_applyJournalRowFacts (state : JournalReducerState P) (row : JournalRow P) :
    TimelineStep state (applyJournalRowFacts runtime state row) := by
  have hobserved : QuietStep state (observeRow state row.base) := .of_same ⟨rfl, rfl, rfl⟩
  exact hobserved.toTimelineStep.trans (timelineStepRule.applyJournalRowFacts runtime state row
    (fun _ _ _ => ⟨fun hapart => hapart, fun _ => Register.Advances.refl _⟩)
    fun _ _ _ _ => ⟨fun hapart => hapart, fun _ => Register.Advances.refl _⟩)

theorem quietStep_afterFacts (state : JournalReducerState P) (row : JournalRow P) (applies : Bool) :
    QuietStep state (afterRow
      (foldJournalInputObligations (foldJournalQueueRow runtime state row) row applies) row) := by
  have hqueued := quietStepUnlinkRule.foldJournalQueueRow runtime state
    (fun _ _ => .of_same ⟨rfl, rfl, rfl⟩) row
  have hobliged := (obligations_frame (foldJournalQueueRow runtime state row) row applies).1
  exact hqueued.trans (QuietStep.of_same ⟨hobliged.items, hobliged.tombstones, hobliged.memory⟩)

theorem timelineStep_applyJournalRow (state : JournalReducerState P) (row : JournalRow P) :
    TimelineStep state (applyJournalRow runtime state row) :=
  (timelineStep_applyJournalRowFacts runtime state row).trans
    (quietStep_afterFacts runtime _ row (dispatchApplies state row)).toTimelineStep

theorem timelineStep_foldl (state : JournalReducerState P) :
    TimelineStep state (rows.foldl (applyJournalRow runtime) state) := by
  induction rows generalizing state with
  | nil => exact (QuietStep.refl state).toTimelineStep
  | cons row rest ih =>
    exact (timelineStep_applyJournalRow runtime state row).trans
      (ih (applyJournalRow runtime state row))

theorem timelineStep_replay (before after : List (JournalRow P)) :
    TimelineStep (replay runtime sessionId epoch before)
      (replay runtime sessionId epoch (before ++ after)) := by
  rw [replay_append]
  exact timelineStep_foldl runtime after _

theorem apart_replay : Apart (replay runtime sessionId epoch rows) := by
  have hempty : Apart (replay runtime sessionId epoch ([] : List (JournalRow P))) := by
    intro itemId hlive
    exact absurd hlive (notMem_empty itemId)
  exact (timelineStep_replay runtime sessionId epoch [] rows).apart hempty

/-! ## Settled submissions -/

def isSettled (dispatchState : AgentJournalDispatchState) : Bool :=
  dispatchState = .accepted || dispatchState = .rejected

theorem not_isSettled_of_applies {dispatchState : AgentJournalDispatchState}
    (happlies : journalDispatchRowApplies (some dispatchState)) :
    isSettled dispatchState = false := by
  cases dispatchState <;> first | rfl | exact absurd happlies (by decide)

def KeepsSettled (id : String) (state next : JournalReducerState P) : Prop :=
  ∀ submission, state.submissions.lookup id = some submission → isSettled submission.dispatchState →
      ∃ kept, next.submissions.lookup id = some kept ∧ kept.dispatchState = submission.dispatchState

theorem KeepsSettled.of_submissions {id : String}
    (hsame : next.submissions = state.submissions) : KeepsSettled id state next := by
  intro submission hlookup _
  exact ⟨submission, hsame ▸ hlookup, rfl⟩

theorem KeepsSettled.trans {id : String}
    (hfirst : KeepsSettled id first second) (hsecond : KeepsSettled id second third) :
    KeepsSettled id first third := by
  intro submission hlookup hsettled
  obtain ⟨kept, hkept, hstate⟩ := hfirst submission hlookup hsettled
  obtain ⟨last, hlast, hlastState⟩ := hsecond kept hkept (by rw [hstate]; exact hsettled)
  exact ⟨last, hlast, hlastState.trans hstate⟩

theorem keepsSettled_setSubmission (id : String) {key : String} {old : AgentJournalSubmission P}
    (new : AgentJournalSubmission P) (hold : state.submissions.lookup key = some old)
    (hkeeps : isSettled old.dispatchState → new.dispatchState = old.dispatchState) :
    KeepsSettled id state (setSubmission state key new) := by
  intro submission hlookup hsettled
  by_cases hid : id = key
  · subst hid
    rw [hold] at hlookup
    cases hlookup
    exact ⟨new, lookup_set_self _ _ _, hkeeps hsettled⟩
  · refine ⟨submission, ?_, rfl⟩
    calc (state.submissions.set key new).lookup id
        = state.submissions.lookup id := lookup_set_ne _ _ hid
      _ = some submission := hlookup

section

variable (id : String)

theorem keepsSettledRule : TimelineRule (P := P) (KeepsSettled id) :=
  sameLedgerRule.mono (fun hsame => .of_submissions hsame.submissions) KeepsSettled.trans

theorem keepsSettledFactsRule : FactsRule (P := P) (KeepsSettled id) where
  toTimelineRule := keepsSettledRule id
  echo _ _ := .of_submissions rfl
  accept _ _ hlookup happlies := keepsSettled_setSubmission id _ hlookup fun hsettled => by
    rw [not_isSettled_of_applies happlies] at hsettled
    cases hsettled
  settle _ _ _ hlookup happlies := keepsSettled_setSubmission id _ hlookup fun hsettled => by
    rw [not_isSettled_of_applies happlies] at hsettled
    cases hsettled

theorem keepsSettledUnlinkRule : UnlinkRule (P := P) (KeepsSettled id) where
  toTimelineRule := keepsSettledRule id
  unlink hlookup := keepsSettled_setSubmission id _ hlookup fun _ => rfl

/-- A settled submission keeps its state through every row but its own. -/
theorem keepsSettled_applyJournalRow (state : JournalReducerState P) (row : JournalRow P)
    (hown : ∀ write, row.content = .submission write → write.clientMessageId ≠ id) :
    KeepsSettled id state (applyJournalRow runtime state row) := by
  intro submission hlookup hsettled
  have hfacts := (keepsSettledFactsRule id).applyJournalRowFacts runtime state row
    (fun write hcontent _ submission hlookup _ => ⟨submission,
      (lookup_set_ne _ _ (hown write hcontent).symm).trans hlookup, rfl⟩)
    fun _ _ _ _ => .of_submissions rfl
  have hqueued := hfacts.trans ((keepsSettledUnlinkRule id).foldJournalQueueRow runtime
    (applyJournalRowFacts runtime state row) (fun _ _ => .of_submissions rfl) row)
  obtain ⟨kept, hkept, hstate⟩ := hqueued submission hlookup hsettled
  -- obligations touch only the submission of a dispatch row that applied
  have hobliged : (foldJournalInputObligations
      (foldJournalQueueRow runtime (applyJournalRowFacts runtime state row) row) row
      (dispatchApplies state row)).submissions.lookup id = some kept := by
    unfold foldJournalInputObligations
    split
    · exact hkept
    · rename_i dispatch hcontent
      split
      · rename_i happlies
        have hne : id ≠ dispatch.clientMessageId := by
          rintro rfl
          simp only [dispatchApplies, hcontent, hlookup, Option.map_some] at happlies
          rw [not_isSettled_of_applies happlies] at hsettled
          exact absurd hsettled (by decide)
        unfold foldRefusalInDoubt
        split
        · exact hkept
        · split
          · exact (lookup_set_ne _ _ hne).trans hkept
          · exact hkept
      · exact hkept
    · exact hkept
  exact ⟨kept, hobliged, hstate⟩

theorem keepsSettled_foldl (state : JournalReducerState P)
    (hown : ∀ row ∈ rows, ∀ write, row.content = .submission write → write.clientMessageId ≠ id) :
    KeepsSettled id state (rows.foldl (applyJournalRow runtime) state) := by
  induction rows generalizing state with
  | nil => exact KeepsSettled.of_submissions rfl
  | cons row rest ih =>
    have hrow := keepsSettled_applyJournalRow runtime id state row (hown row mem_cons_self)
    have hrest := ih (applyJournalRow runtime state row)
      fun later hlater => hown later (mem_cons_of_mem row hlater)
    exact hrow.trans hrest

end

/-! ## The memory of applied batches -/

def lastApplied (applied : List String) : List String :=
  applied.drop (applied.length - maxJournalAppliedSettlementIds)

/-- The batches a log applies, in order: one still remembered is not applied. -/
def rememberBatch (applied : List String) (row : JournalRow P) : List String :=
  match row.content with
  | .lifecycleBatch settlementId _ =>
    if settlementId ∈ lastApplied applied then applied else applied ++ [settlementId]
  | _ => applied

def appliedSettlements (rows : List (JournalRow P)) : List String :=
  rows.foldl rememberBatch []

theorem elems_dropOldest (rounds : ℕ) (ids : OrderedSet String)
    (hrounds : ids.elems.length - maxJournalAppliedSettlementIds ≤ rounds) :
    (dropOldest rounds ids).elems = lastApplied ids.elems := by
  induction rounds generalizing ids with
  | zero =>
    have hfits : ids.elems.length - maxJournalAppliedSettlementIds = 0 := by omega
    rw [lastApplied, hfits, drop_zero]
    rfl
  | succ rounds ih =>
    unfold dropOldest
    split
    · rename_i hfull
      cases helems : ids.elems with
      | nil =>
        rw [helems] at hfull
        exact absurd hfull (by simp)
      | cons oldest rest =>
        have herase : (ids.erase oldest).elems = rest := by
          rw [OrderedSet.elems_erase, helems, erase_cons_head]
        have hlength : ids.elems.length = rest.length + 1 := by
          rw [helems, length_cons]
        have hdrop : ids.elems.length - maxJournalAppliedSettlementIds =
            rest.length - maxJournalAppliedSettlementIds + 1 := by omega
        have hrest := ih (ids.erase oldest) (by rw [herase]; omega)
        calc (dropOldest rounds (ids.erase oldest)).elems
            = lastApplied rest := by rw [hrest, herase]
          _ = lastApplied (oldest :: rest) := by
              rw [lastApplied, lastApplied, ← helems, hdrop, helems, drop_succ_cons]
    · rename_i hfits
      have hnone : ids.elems.length - maxJournalAppliedSettlementIds = 0 := by omega
      rw [lastApplied, hnone, drop_zero]

theorem lastApplied_concat (applied : List String) (settlementId : String) :
    lastApplied (lastApplied applied ++ [settlementId]) =
      lastApplied (applied ++ [settlementId]) := by
  unfold lastApplied
  generalize maxJournalAppliedSettlementIds = limit
  have hlength : (applied.drop (applied.length - limit) ++ [settlementId]).length =
      applied.length - (applied.length - limit) + 1 := by
    rw [length_append, length_drop, length_singleton]
  have hdrop : applied.length - limit + (applied.length - (applied.length - limit) + 1 - limit) =
        applied.length + 1 - limit := by omega
  rw [hlength, ← drop_append_of_le_length (by omega), drop_drop, hdrop,
    length_append, length_singleton]

/-- The memory is the last batches the log applied. -/
theorem memory_replay : (replay runtime sessionId epoch rows).appliedSettlementIds.elems =
      lastApplied (appliedSettlements rows) := by
  induction rows using List.reverseRecOn with
  | nil => exact drop_nil.symm
  | append_singleton rows row ih =>
    generalize hstate : replay runtime sessionId epoch rows = state at ih
    have happlied : appliedSettlements (rows ++ [row]) =
        rememberBatch (appliedSettlements rows) row := foldl_append
    rw [replay_concat, hstate, happlied]
    have hafter : (applyJournalRow runtime state row).appliedSettlementIds =
        (applyJournalRowFacts runtime state row).appliedSettlementIds :=
      (quietStep_afterFacts runtime _ row (dispatchApplies state row)).memory
    rw [hafter]
    by_cases hbatch : ∃ settlementId mutations, row.content = .lifecycleBatch settlementId mutations
    · obtain ⟨settlementId, mutations, hcontent⟩ := hbatch
      have hmember : settlementId ∈ state.appliedSettlementIds ↔
          settlementId ∈ lastApplied (appliedSettlements rows) := by
        rw [← ih, OrderedSet.mem_elems]
      have hfacts : applyJournalRowFacts runtime state row =
          applyLifecycleBatch runtime (observeActivity state row.base) row.base settlementId
            mutations := by
        simp only [applyJournalRowFacts, hcontent]
      simp only [rememberBatch, hcontent]
      rw [hfacts, applyLifecycleBatch]
      split
      · rename_i hremembered
        rw [if_pos (hmember.mp hremembered)]
        exact ih
      · rename_i hfresh
        rw [if_neg (mt hmember.mpr hfresh)]
        have hfolded := (quietStepFactsRule.foldl_applyLifecycleMutation runtime
          (observeActivity state row.base) row.base mutations.zipIdx).memory
        rw [rememberAppliedSettlementId, elems_dropOldest _ _ (by omega), hfolded,
          OrderedSet.elems_add_of_not_mem hfresh]
        change lastApplied (state.appliedSettlementIds.elems ++ [settlementId]) = _
        rw [ih, lastApplied_concat]
    · push Not at hbatch
      have hquiet := (quietStep_applyJournalRowFacts runtime state row hbatch).memory
      rw [hquiet, ih]
      unfold rememberBatch
      split
      · rename_i settlementId mutations hcontent
        exact absurd hcontent (hbatch settlementId mutations)
      · rfl

/-! ## A remembered batch -/

def isReportedCommand (state : JournalReducerState P) (card : QueuedMessageRow P) : Bool :=
  isReturnedCommand card && (card.consumedAs.map (commandTurnReported state)).getD false

/-- The cards of one state in another, reported commands spent or not. -/
structure SpendsReported (state next : JournalReducerState P) : Prop where
  items : next.items = state.items
  keyed : KeyedCards next
  keys : next.queue.cards.keys = state.queue.cards.keys
  cards : ∀ messageId, next.queue.cards.lookup messageId = state.queue.cards.lookup messageId ∨
    ∃ card, state.queue.cards.lookup messageId = some card ∧ isReportedCommand state card ∧
      next.queue.cards.lookup messageId = some { card with state := .withdrawn }

theorem isReportedCommand_congr (hitems : next.items = state.items) (card : QueuedMessageRow P) :
    isReportedCommand next card = isReportedCommand state card := by
  have hreported : commandTurnReported next = commandTurnReported state := by
    funext clientMessageId
    unfold commandTurnReported
    rw [hitems]
  rw [isReportedCommand, isReportedCommand, hreported]

theorem SpendsReported.trans
    (hfirst : SpendsReported first second) (hsecond : SpendsReported second third) :
    SpendsReported first third where
  items := hsecond.items.trans hfirst.items
  keyed := hsecond.keyed
  keys := hsecond.keys.trans hfirst.keys
  cards messageId := by
    rcases hsecond.cards messageId with hsame | ⟨card, hcard, hreported, hspent⟩
    · rw [hsame]
      exact hfirst.cards messageId
    · rw [isReportedCommand_congr hfirst.items] at hreported
      rcases hfirst.cards messageId with hsame | ⟨prior, hprior, hpriorReported, hwithdrawn⟩
      · exact Or.inr ⟨card, hsame ▸ hcard, hreported, hspent⟩
      · -- a withdrawn card is no longer a returned command
        rw [hwithdrawn] at hcard
        cases hcard
        exact absurd hreported (by simp [isReportedCommand, isReturnedCommand])

theorem spendsReported_spendReportedCard (hkeyed : KeyedCards state) (messageId : String) :
    SpendsReported state (spendReportedCard state messageId) := by
  have hsame : SpendsReported state state := ⟨rfl, hkeyed, rfl, fun _ => Or.inl rfl⟩
  have hspentKeyed := hkeyed.spendReportedCard messageId
  unfold spendReportedCard at hspentKeyed ⊢
  split
  · exact hsame
  · rename_i card hcard
    have hid := hkeyed messageId card hcard
    split
    · rename_i hreported
      rw [hcard] at hspentKeyed
      simp only [hreported, if_true] at hspentKeyed
      have hmember : card.messageId ∈ state.queue.cards :=
        lookup_isSome.mp (by rw [hid, hcard]; rfl)
      refine ⟨rfl, hspentKeyed, keys_set_of_mem _ hmember, fun other => ?_⟩
      by_cases hother : other = messageId
      · subst hother
        refine Or.inr ⟨card, hcard, hreported, ?_⟩
        change (state.queue.cards.set card.messageId _).lookup other = _
        rw [hid]
        exact lookup_set_self _ _ _
      · refine Or.inl ?_
        change (state.queue.cards.set card.messageId _).lookup other = _
        rw [hid]
        exact lookup_set_ne _ _ hother
    · exact hsame

theorem spendsReported_spendReportedCommandCards (hkeyed : KeyedCards state) :
    SpendsReported state (spendReportedCommandCards state) := by
  have hfold : ∀ (ids : List String) (state : JournalReducerState P), KeyedCards state →
      SpendsReported state (ids.foldl spendReportedCard state) := by
    intro ids
    induction ids with
    | nil => intro state hstate; exact ⟨rfl, hstate, rfl, fun _ => Or.inl rfl⟩
    | cons id rest ih =>
      intro state hstate
      have hfirst := spendsReported_spendReportedCard hstate id
      exact hfirst.trans (ih _ hfirst.keyed)
  exact hfold _ state hkeyed

/-- What a batch that is still remembered leaves unchanged. -/
structure LeavesUnchanged (state next : JournalReducerState P) : Prop where
  items : next.items = state.items
  tombstones : next.tombstones = state.tombstones
  aliases : next.aliases = state.aliases
  itemEchoes : next.itemEchoes = state.itemEchoes
  inputs : next.inputs = state.inputs
  submissions : next.submissions = state.submissions
  receipts : next.receipts = state.receipts

theorem remembered_batch (hkeyed : KeyedCards state) (row : JournalRowBase) {settlementId : String}
    (mutations : List (JournalLifecycleMutation P))
    (hremembered : settlementId ∈ state.appliedSettlementIds) :
    LeavesUnchanged state
        (applyJournalRow runtime state ⟨row, .lifecycleBatch settlementId mutations⟩) ∧
      SpendsReported state
        (applyJournalRow runtime state ⟨row, .lifecycleBatch settlementId mutations⟩) := by
  have hfacts : applyJournalRowFacts runtime state
      ⟨row, .lifecycleBatch settlementId mutations⟩ = observeActivity state row := by
    change applyLifecycleBatch runtime (observeActivity state row) row settlementId mutations = _
    exact if_pos hremembered
  have hactive : KeyedCards (observeActivity state row) := hkeyed.of_queue rfl
  have hspent := spendsReported_spendReportedCommandCards hactive
  obtain ⟨queue, hqueue⟩ := foldl_spendReportedCard_eq
    (observeActivity state row).queue.returnedCommands.elems (observeActivity state row)
  have hqueued : spendReportedCommandCards (observeActivity state row) =
      { observeActivity state row with queue := queue } := hqueue
  have hnext : ∃ order, applyJournalRow runtime state
      ⟨row, .lifecycleBatch settlementId mutations⟩ =
        { spendReportedCommandCards (observeActivity state row) with inputOrder := order } := by
    unfold applyJournalRow
    rw [hfacts]
    exact ⟨_, rfl⟩
  obtain ⟨order, hnext⟩ := hnext
  rw [hnext]
  constructor
  · rw [hqueued]
    exact ⟨rfl, rfl, rfl, rfl, rfl, rfl, rfl⟩
  · exact ⟨hspent.items, hspent.keyed.of_queue rfl, hspent.keys, hspent.cards⟩

/-! ## Over every log -/

def greatestRevision (state : JournalReducerState P) (itemId : String) : WithBot ℤ :=
  max (((state.items.lookup itemId).map (·.revision)).elim ⊥ WithBot.some)
    ((state.tombstones.lookup itemId).elim ⊥ WithBot.some)

theorem greatestRevision_eq (hapart : Apart state) (itemId : String) :
    greatestRevision state itemId = (itemRegister state itemId).revision := by
  unfold greatestRevision itemRegister
  cases hitem : state.items.lookup itemId with
  | none =>
    rw [Option.map_none, Option.elim_none, max_eq_right bot_le]
    cases state.tombstones.lookup itemId with
    | none => rfl
    | some removal => rfl
  | some item =>
    have hlive : itemId ∈ state.items := lookup_isSome.mp (by rw [hitem]; rfl)
    have hnone : state.tombstones.lookup itemId = none := lookup_eq_none.mpr (hapart itemId hlive)
    rw [hnone, Option.elim_none, max_eq_left bot_le]
    rfl

theorem removed_lt_revived {early late : JournalReducerState P} (hapart : Apart early)
    (hstep : TimelineStep early late) {itemId : String} {removal : ℤ}
    (hremoved : early.tombstones.lookup itemId = some removal)
    (hlive : late.items.lookup itemId = some item) : removal < item.revision := by
  have hgone : early.items.lookup itemId = none := by
    by_contra hitem
    have hmember : itemId ∈ early.items := lookup_isSome.mp (Option.isSome_iff_ne_none.mpr hitem)
    exact hapart itemId hmember (lookup_isSome.mp (by rw [hremoved]; rfl))
  have hadvances := hstep.advances itemId
  have hearly : itemRegister early itemId = .removed removal := by
    simp only [itemRegister, hgone, hremoved]
  have hlate : itemRegister late itemId = .live item.revision := by
    simp only [itemRegister, hlive]
  rw [hearly, hlate] at hadvances
  exact hadvances.lt_of_removed_of_live

/-- Stale writes have no effect and nothing is resurrected, at any two points
`before` and `before ++ after` of any log of rows. -/
theorem stale_writes_ignored (runtime : JournalRuntime P) (sessionId epoch : String)
    (before after : List (JournalRow P)) :
    let early := replay runtime sessionId epoch before
    let late := replay runtime sessionId epoch (before ++ after)
    (∀ itemId, ¬ (itemId ∈ late.items ∧ itemId ∈ late.tombstones)) ∧
    (∀ itemId, greatestRevision early itemId ≤ greatestRevision late itemId) ∧
    (∀ itemId removal item, early.tombstones.lookup itemId = some removal →
      late.items.lookup itemId = some item → removal < item.revision) ∧
    (∀ id submission, early.submissions.lookup id = some submission →
      isSettled submission.dispatchState →
      (∀ row ∈ after, ∀ write, row.content = .submission write → write.clientMessageId ≠ id) →
      ∃ kept, late.submissions.lookup id = some kept ∧
        kept.dispatchState = submission.dispatchState) ∧
    (∀ row settlementId mutations,
      settlementId ∈ lastApplied (appliedSettlements (before ++ after)) →
      let next := applyJournalRow runtime late ⟨row, .lifecycleBatch settlementId mutations⟩
      LeavesUnchanged late next ∧ SpendsReported late next) := by
  intro early late
  have hearly : Apart early := apart_replay runtime sessionId epoch before
  have hlate : Apart late := apart_replay runtime sessionId epoch (before ++ after)
  have hstep : TimelineStep early late := timelineStep_replay runtime sessionId epoch before after
  refine ⟨?_, ?_, ?_, ?_, ?_⟩
  · intro itemId hboth
    exact hlate itemId hboth.1 hboth.2
  · intro itemId
    rw [greatestRevision_eq hearly, greatestRevision_eq hlate]
    exact (hstep.advances itemId).revision_le
  · intro itemId removal item
    exact removed_lt_revived hearly hstep
  · intro id submission hlookup hsettled hown
    have hkeeps := keepsSettled_foldl runtime after id early hown
    rw [← replay_append] at hkeeps
    exact hkeeps submission hlookup hsettled
  · intro row settlementId mutations happlied
    apply remembered_batch runtime (keyedCards_replay runtime sessionId epoch (before ++ after))
    rw [← OrderedSet.mem_elems, memory_replay]
    exact happlied

/-! ## The card a remembered batch spends -/

def plainRuntime : JournalRuntime Unit := ⟨fun _ _ => "", id, fun _ => none⟩

def rowBase (seq : ℤ) : JournalRowBase :=
  ⟨{}, "e", seq, 1, seq, false, none⟩

/-- A batch, a command turn, and the card of that command's restated refusal. -/
def restatedCommandRows : List (JournalRow Unit) :=
  [⟨rowBase 1, .lifecycleBatch "s" [.item ⟨"orca:note", 1, .other "diff" (), none, none, none⟩
      {} none none]⟩,
    ⟨rowBase 2, .item ⟨"orca:command-turn%3Aa", 1, .turn ⟨"compact:a", .completed, none, ()⟩,
      none, none, none⟩⟩,
    ⟨rowBase 3, .queue "m" (.queued
      ⟨⟨.user, some "compact", ()⟩, 0, none, none, none, some "a", none, some ⟨none, none⟩⟩)⟩]

/-- The batch `s` is remembered, and folding it again withdraws the card `m`. -/
theorem remembered_batch_moves_card : "s" ∈ lastApplied (appliedSettlements restatedCommandRows) ∧
      let state := replay plainRuntime "session" "e" restatedCommandRows
      let next := applyJournalRow plainRuntime state ⟨rowBase 4, .lifecycleBatch "s"
        [.item ⟨"orca:note", 1, .other "diff" (), none, none, none⟩ {} none none]⟩
      (state.queue.cards.lookup "m").map (·.state) = some .returned ∧
        (next.queue.cards.lookup "m").map (·.state) = some .withdrawn := by
  decide +kernel

end Wakii.StaleWrites
