import Mathlib.Algebra.BigOperators.Group.List.Basic
import Wakii.Daemon.StreamBackpressure

/-!
# What a refresh of back-pressure leaves

A refresh counts what each session has left over all clients.  After it only
sessions above their low mark are paused, and only while there is pressure.
-/

namespace Wakii.StreamBackpressure

open List OrderedCollections OrderedMap OrderedSet

variable {C S : Type*} [DecidableEq S]

/-! ## Counts -/

def amountOf (amounts : OrderedMap S ℕ) (sessionId : S) : ℕ := (amounts.lookup sessionId).getD 0

/-- What queued text counts for; the text of a background session does not. -/
def queuedShare (callbacks : Callbacks C S) (clientId : C) (sessionId : S) (chars : ℕ) : ℕ :=
  if callbacks.ownsSession clientId sessionId then
    if callbacks.isDroppable sessionId then 0 else 2 * chars
  else 0

def bytesShare (callbacks : Callbacks C S) (clientId : C) (sessionId : S) (bytes : ℕ) : ℕ :=
  if callbacks.ownsSession clientId sessionId then bytes else 0

def shareOf (callbacks : Callbacks C S) (sessionId : S) (client : C × ClientBacklog S) : ℕ :=
  queuedShare callbacks client.1 sessionId (amountOf client.2.queuedChars sessionId) +
    bytesShare callbacks client.1 sessionId (amountOf client.2.queuedMetadataBytes sessionId) +
    bytesShare callbacks client.1 sessionId (amountOf client.2.pendingWriteBytes sessionId)

def backlog (callbacks : Callbacks C S) (clients : OrderedMap C (ClientBacklog S))
    (sessionId : S) : ℕ :=
  (clients.pairs.map (shareOf callbacks sessionId)).sum

def Accounts (sessionId : S) (client : ClientBacklog S) : Prop :=
  sessionId ∈ client.queuedChars ∨ sessionId ∈ client.queuedMetadataBytes ∨
    sessionId ∈ client.pendingWriteBytes

variable (callbacks : Callbacks C S) (clientId : C) (sessionId : S) (counts : Counts S)
  (entry : S × ℕ)

theorem bytesOf_charge (charged sessionId : S) (bytes : ℕ) :
    (counts.charge callbacks clientId charged bytes).bytesOf sessionId = counts.bytesOf sessionId +
      if charged = sessionId then bytesShare callbacks clientId sessionId bytes else 0 := by
  rw [Counts.charge, Counts.bytesOf, bytesShare]
  by_cases hsame : charged = sessionId
  · subst hsame
    by_cases howns : callbacks.ownsSession clientId charged
    · rw [if_pos howns, if_pos rfl, if_pos howns, lookup_set_self]
      rfl
    · rw [if_neg howns, if_pos rfl, if_neg howns]
      rfl
  · by_cases howns : callbacks.ownsSession clientId charged
    · rw [if_pos howns, if_neg hsame, lookup_set_ne _ _ (Ne.symm hsame)]
      rfl
    · rw [if_neg howns, if_neg hsame]
      rfl

theorem bytesOf_countBytes :
    (countBytes callbacks clientId counts entry).bytesOf sessionId = counts.bytesOf sessionId +
      if entry.1 = sessionId then bytesShare callbacks clientId sessionId entry.2 else 0 :=
  bytesOf_charge callbacks clientId (counts.account entry.1) entry.1 sessionId entry.2

theorem bytesOf_countQueued :
    (countQueued callbacks clientId counts entry).bytesOf sessionId = counts.bytesOf sessionId +
      if entry.1 = sessionId then queuedShare callbacks clientId sessionId entry.2 else 0 := by
  rw [countQueued]
  by_cases hdroppable : callbacks.isDroppable entry.1
  · rw [if_pos hdroppable]
    by_cases hsame : entry.1 = sessionId
    · rw [← hsame, if_pos rfl, queuedShare, if_pos hdroppable, ite_self]
      rfl
    · rw [if_neg hsame]
      rfl
  · rw [if_neg hdroppable, bytesOf_charge]
    by_cases hsame : entry.1 = sessionId
    · rw [← hsame, if_pos rfl, if_pos rfl, queuedShare, if_neg hdroppable]
      rfl
    · rw [if_neg hsame, if_neg hsame]
      rfl

theorem bytesOf_foldl {count : Counts S → S × ℕ → Counts S} {sessionId : S} {amount : ℕ → ℕ}
    (hcount : ∀ counts entry, (count counts entry).bytesOf sessionId =
      counts.bytesOf sessionId + if entry.1 = sessionId then amount entry.2 else 0)
    (hzero : amount 0 = 0) (amounts : OrderedMap S ℕ) (counts : Counts S) :
    (amounts.pairs.foldl count counts).bytesOf sessionId =
      counts.bytesOf sessionId + amount (amountOf amounts sessionId) := by
  have hsum (entries : List (S × ℕ)) : ∀ counts : Counts S,
      (entries.foldl count counts).bytesOf sessionId = counts.bytesOf sessionId +
        (entries.map fun entry => if entry.1 = sessionId then amount entry.2 else 0).sum := by
    induction entries with
    | nil => exact fun counts => rfl
    | cons entry entries ih =>
      intro counts
      rw [foldl_cons, ih, hcount, map_cons, sum_cons, Nat.add_assoc]
  rw [hsum, sum_pairs_single, amountOf]
  cases amounts.lookup sessionId with
  | none => exact congrArg _ hzero.symm
  | some bytes => rfl

theorem bytesOf_countClient (client : C × ClientBacklog S) :
    (countClient callbacks counts client).bytesOf sessionId =
      counts.bytesOf sessionId + shareOf callbacks sessionId client := by
  have hzero : queuedShare callbacks client.1 sessionId 0 = 0 := by
    rw [queuedShare, Nat.mul_zero, ite_self, ite_self]
  have hnone : bytesShare callbacks client.1 sessionId 0 = 0 := ite_self 0
  rw [countClient, bytesOf_foldl (bytesOf_countBytes callbacks client.1 sessionId) hnone,
    bytesOf_foldl (bytesOf_countBytes callbacks client.1 sessionId) hnone,
    bytesOf_foldl (bytesOf_countQueued callbacks client.1 sessionId) hzero, shareOf]
  omega

theorem bytesOf_countClients (clients : OrderedMap C (ClientBacklog S)) (sessionId : S) :
    (countClients callbacks clients).bytesOf sessionId = backlog callbacks clients sessionId := by
  have hsum (entries : List (C × ClientBacklog S)) : ∀ counts : Counts S,
      (entries.foldl (countClient callbacks) counts).bytesOf sessionId =
        counts.bytesOf sessionId + (entries.map (shareOf callbacks sessionId)).sum := by
    induction entries with
    | nil => exact fun counts => rfl
    | cons client entries ih =>
      intro counts
      rw [foldl_cons, ih, bytesOf_countClient, map_cons, sum_cons, Nat.add_assoc]
  rw [countClients, hsum, backlog]
  exact Nat.zero_add _

/-! ## What is accounted -/

theorem mem_accounted_countBytes :
    sessionId ∈ (countBytes callbacks clientId counts entry).accountedSessions ↔
      sessionId = entry.1 ∨ sessionId ∈ counts.accountedSessions :=
  mem_add

theorem mem_accounted_countQueued :
    sessionId ∈ (countQueued callbacks clientId counts entry).accountedSessions ↔
      sessionId = entry.1 ∨ sessionId ∈ counts.accountedSessions := by
  rw [countQueued]
  split_ifs
  · exact mem_add
  · exact mem_add

omit [DecidableEq S] in
theorem mem_accounted_foldl {count : Counts S → S × ℕ → Counts S} {sessionId : S}
    (hcount : ∀ counts entry, sessionId ∈ (count counts entry).accountedSessions ↔
      sessionId = entry.1 ∨ sessionId ∈ counts.accountedSessions)
    (amounts : OrderedMap S ℕ) (counts : Counts S) :
    sessionId ∈ (amounts.pairs.foldl count counts).accountedSessions ↔
      sessionId ∈ amounts ∨ sessionId ∈ counts.accountedSessions := by
  rw [AList.mem_keys, ← map_fst_pairs]
  generalize amounts.pairs = entries
  induction entries generalizing counts with
  | nil => simp
  | cons entry entries ih =>
    rw [foldl_cons, ih, hcount, map_cons, mem_cons]
    tauto

theorem mem_accounted_countClient (client : C × ClientBacklog S) :
    sessionId ∈ (countClient callbacks counts client).accountedSessions ↔
      Accounts sessionId client.2 ∨ sessionId ∈ counts.accountedSessions := by
  rw [countClient, mem_accounted_foldl (mem_accounted_countBytes callbacks client.1 sessionId),
    mem_accounted_foldl (mem_accounted_countBytes callbacks client.1 sessionId),
    mem_accounted_foldl (mem_accounted_countQueued callbacks client.1 sessionId), Accounts]
  tauto

theorem mem_accounted_countClients [DecidableEq C] (clients : OrderedMap C (ClientBacklog S))
    (sessionId : S) :
    sessionId ∈ (countClients callbacks clients).accountedSessions ↔
      ∃ clientId client, clients.lookup clientId = some client ∧ Accounts sessionId client := by
  have hmem (entries : List (C × ClientBacklog S)) : ∀ counts : Counts S,
      sessionId ∈ (entries.foldl (countClient callbacks) counts).accountedSessions ↔
        (∃ client ∈ entries, Accounts sessionId client.2) ∨
          sessionId ∈ counts.accountedSessions := by
    induction entries with
    | nil => simp
    | cons client entries ih =>
      intro counts
      rw [foldl_cons, ih, mem_accounted_countClient, exists_mem_cons_iff, or_left_comm, or_assoc]
  rw [countClients, hmem]
  constructor
  · rintro (⟨⟨clientId, client⟩, hclient, haccounts⟩ | hnone)
    · exact ⟨clientId, client, mem_pairs.mp hclient, haccounts⟩
    · exact absurd hnone (not_mem_empty _)
  · rintro ⟨clientId, client, hclient, haccounts⟩
    exact Or.inl ⟨(clientId, client), mem_pairs.mpr hclient, haccounts⟩

/-! ## Calls -/

def lastCall (calls : List (S × Bool)) (sessionId : S) : Option Bool :=
  (calls.reverse.find? fun call => call.1 = sessionId).map Prod.snd

theorem lastCall_append (calls : List (S × Bool)) (told sessionId : S) (paused : Bool) :
    lastCall (calls ++ [(told, paused)]) sessionId =
      if told = sessionId then some paused else lastCall calls sessionId := by
  rw [lastCall, reverse_append, reverse_singleton, singleton_append, find?_cons]
  by_cases hsame : told = sessionId
  · simp [hsame]
  · simp [hsame, lastCall]

/-- A session counts as paused just where the last call for it said so. -/
def Told (backpressure : DaemonStreamBackpressure C S) : Prop :=
  ∀ sessionId, sessionId ∈ backpressure.pausedSessions ↔
    lastCall backpressure.setPausedCalls sessionId = some true

/-- From one state to another only pauses change, and no session released from a stall is
paused. -/
structure Pauses (before after : DaemonStreamBackpressure C S) : Prop where
  clients : after.clients = before.clients
  records : after.records = before.records
  pressured : after.pressured = before.pressured
  stallReleased : after.stallReleasedSessions = before.stallReleasedSessions
  told : Told before → Told after
  calls : ∃ calls, after.setPausedCalls = before.setPausedCalls ++ calls ∧
    ∀ sessionId, (sessionId, true) ∈ calls → sessionId ∉ before.stallReleasedSessions
  paused : ∀ sessionId ∈ after.pausedSessions,
    sessionId ∈ before.pausedSessions ∨ sessionId ∉ before.stallReleasedSessions

namespace Pauses

variable {before between after : DaemonStreamBackpressure C S}

variable (backpressure : DaemonStreamBackpressure C S)

theorem refl : Pauses backpressure backpressure := ⟨rfl, rfl, rfl, rfl, id,
    ⟨[], (append_nil _).symm, fun _ hcall => absurd hcall not_mem_nil⟩,
    fun _ => Or.inl⟩

theorem trans (hfirst : Pauses before between) (hsecond : Pauses between after) :
    Pauses before after where
  clients := hsecond.clients.trans hfirst.clients
  records := hsecond.records.trans hfirst.records
  pressured := hsecond.pressured.trans hfirst.pressured
  stallReleased := hsecond.stallReleased.trans hfirst.stallReleased
  told htold := hsecond.told (hfirst.told htold)
  calls := by
    obtain ⟨calls, hcalls, hpaused⟩ := hfirst.calls
    obtain ⟨later, hlater, hpausedLater⟩ := hsecond.calls
    refine ⟨calls ++ later, by rw [hlater, hcalls, append_assoc], fun sessionId hcall => ?_⟩
    rcases mem_append.mp hcall with hcall | hcall
    · exact hpaused sessionId hcall
    · rw [← hfirst.stallReleased]
      exact hpausedLater sessionId hcall
  paused sessionId hpaused := by
    rcases hsecond.paused sessionId hpaused with hbetween | hnot
    · exact hfirst.paused sessionId hbetween
    · rw [← hfirst.stallReleased]
      exact Or.inr hnot

theorem setPaused {sessionId : S} {paused : Bool}
    (hpaused : paused = true → sessionId ∉ backpressure.stallReleasedSessions) :
    Pauses backpressure (backpressure.setPaused sessionId paused) where
  clients := rfl
  records := rfl
  pressured := rfl
  stallReleased := rfl
  told htold other := by
    rw [DaemonStreamBackpressure.setPaused, lastCall_append]
    dsimp only
    by_cases hsame : sessionId = other
    · subst hsame
      rw [if_pos rfl]
      cases paused with
      | true => simp
      | false => simp
    · rw [if_neg hsame, ← htold other]
      cases paused with
      | true => simp [Ne.symm hsame]
      | false => simp [Ne.symm hsame]
  calls := by
    refine ⟨[(sessionId, paused)], rfl, fun other hcall => ?_⟩
    rw [mem_singleton, Prod.mk.injEq] at hcall
    rw [hcall.1]
    exact hpaused hcall.2.symm
  paused other hother := by
    cases paused with
    | true =>
      rcases mem_add.mp hother with rfl | hother
      · exact Or.inr (hpaused rfl)
      · exact Or.inl hother
    | false => exact Or.inl (mem_erase.mp hother).2

theorem resumeSession (counts : Counts S) (backpressure : DaemonStreamBackpressure C S)
    (sessionId : S) :
    Pauses backpressure (DaemonStreamBackpressure.resumeSession counts backpressure sessionId) := by
  rw [DaemonStreamBackpressure.resumeSession]
  split_ifs
  · exact setPaused backpressure fun h => absurd h Bool.false_ne_true
  · exact refl backpressure

theorem pauseSession (entry : S × ℕ) :
    Pauses backpressure (DaemonStreamBackpressure.pauseSession backpressure entry) := by
  rw [DaemonStreamBackpressure.pauseSession]
  split_ifs with hpause
  · exact setPaused backpressure fun _ => hpause.2
  · exact refl backpressure

omit [DecidableEq S] in
theorem foldl [DecidableEq S] {E : Type*}
    {f : DaemonStreamBackpressure C S → E → DaemonStreamBackpressure C S}
    (hf : ∀ backpressure entry, Pauses backpressure (f backpressure entry)) (entries : List E)
    (backpressure : DaemonStreamBackpressure C S) :
    Pauses backpressure (entries.foldl f backpressure) :=
  List.foldlRecOn entries f (refl backpressure) fun between hbetween entry _ =>
    hbetween.trans (hf between entry)

end Pauses

/-! ## Refreshing -/

section Refreshing

open DaemonStreamBackpressure

theorem mem_paused_foldl_resumeSession (counts : Counts S) (sessions : List S)
    (backpressure : DaemonStreamBackpressure C S) {sessionId : S}
    (hpaused : sessionId ∈ (sessions.foldl (resumeSession counts) backpressure).pausedSessions) :
    sessionId ∈ backpressure.pausedSessions ∧ (sessionId ∈ sessions →
      backpressure.pressured = true ∧ sessionLowWaterBytes < counts.bytesOf sessionId) := by
  induction sessions generalizing backpressure with
  | nil => exact ⟨hpaused, fun hmem => absurd hmem not_mem_nil⟩
  | cons first sessions ih =>
    obtain ⟨hmem, hlater⟩ := ih _ hpaused
    have hpressured := (Pauses.resumeSession counts backpressure first).pressured
    rw [hpressured] at hlater
    by_cases hresumed : (!backpressure.pressured || counts.bytesOf first ≤
        sessionLowWaterBytes) = true
    · rw [resumeSession, if_pos hresumed] at hmem
      obtain ⟨hne, hmem⟩ := mem_erase.mp hmem
      exact ⟨hmem, fun hin => hlater ((mem_cons.mp hin).resolve_left hne)⟩
    · rw [resumeSession, if_neg hresumed] at hmem
      refine ⟨hmem, fun hin => ?_⟩
      rcases mem_cons.mp hin with rfl | hin
      · simpa using hresumed
      · exact hlater hin

theorem mem_paused_foldl_pauseSession (entries : List (S × ℕ))
    (backpressure : DaemonStreamBackpressure C S) {sessionId : S}
    (hpaused : sessionId ∈ (entries.foldl pauseSession backpressure).pausedSessions) :
    sessionId ∈ backpressure.pausedSessions ∨
      ∃ bytes, (sessionId, bytes) ∈ entries ∧ sessionHighWaterBytes ≤ bytes := by
  induction entries generalizing backpressure with
  | nil => exact Or.inl hpaused
  | cons entry entries ih =>
    rcases ih _ hpaused with hmem | ⟨bytes, hmem, hbytes⟩
    · rw [pauseSession] at hmem
      split_ifs at hmem with hhigh
      · rcases mem_add.mp hmem with rfl | hmem
        · exact Or.inr ⟨entry.2, mem_cons_self, hhigh.1⟩
        · exact Or.inl hmem
      · exact Or.inl hmem
    · exact Or.inr ⟨bytes, mem_cons_of_mem _ hmem, hbytes⟩

theorem foldl_endStallRelease (counts : Counts S) (sessions : List S)
    (backpressure : DaemonStreamBackpressure C S) :
    ∃ stallReleased, sessions.foldl (endStallRelease counts) backpressure =
      { backpressure with stallReleasedSessions := stallReleased } ∧
      ∀ sessionId, sessionId ∈ stallReleased ↔ sessionId ∈ backpressure.stallReleasedSessions ∧
        (sessionId ∈ sessions → sessionId ∈ counts.accountedSessions) := by
  induction sessions generalizing backpressure with
  | nil => exact ⟨_, rfl, fun sessionId => by simp⟩
  | cons first sessions ih =>
    obtain ⟨stallReleased, hfold, hmem⟩ := ih (endStallRelease counts backpressure first)
    rw [foldl_cons]
    by_cases haccounted : first ∈ counts.accountedSessions
    · rw [endStallRelease, if_pos haccounted] at hfold hmem ⊢
      refine ⟨stallReleased, hfold, fun sessionId => (hmem sessionId).trans ?_⟩
      refine and_congr_right fun _ => ⟨fun hlater hin => ?_, fun hall hin => hall
        (mem_cons_of_mem _ hin)⟩
      rcases mem_cons.mp hin with rfl | hin
      · exact haccounted
      · exact hlater hin
    · rw [endStallRelease, if_neg haccounted] at hfold hmem ⊢
      refine ⟨stallReleased, hfold, fun sessionId => (hmem sessionId).trans ?_⟩
      rw [mem_erase]
      constructor
      · rintro ⟨⟨hne, hin⟩, hlater⟩
        exact ⟨hin, fun hmem => hlater ((mem_cons.mp hmem).resolve_left hne)⟩
      · rintro ⟨hin, hall⟩
        refine ⟨⟨?_, hin⟩, fun hmem => hall (mem_cons_of_mem _ hmem)⟩
        rintro rfl
        exact haccounted (hall mem_cons_self)

variable [DecidableEq C]

structure Refreshed (callbacks : Callbacks C S) (before after : DaemonStreamBackpressure C S) :
    Prop where
  clients : after.clients = before.clients
  records : after.records = before.records
  told : Told before → Told after
  calls : ∃ calls, after.setPausedCalls = before.setPausedCalls ++ calls ∧
    ∀ sessionId, (sessionId, true) ∈ calls → sessionId ∉ before.stallReleasedSessions
  paused : ∀ sessionId ∈ after.pausedSessions, after.pressured = true ∧
    sessionLowWaterBytes < backlog callbacks after.clients sessionId
  unpaused : ∀ sessionId ∈ after.pausedSessions,
    sessionId ∈ before.pausedSessions ∨ sessionId ∉ before.stallReleasedSessions
  stallReleased : ∀ sessionId, sessionId ∈ after.stallReleasedSessions ↔
    sessionId ∈ before.stallReleasedSessions ∧ ∃ clientId client,
      before.clients.lookup clientId = some client ∧ Accounts sessionId client

/-- A refresh pauses exactly what is over its limits. -/
theorem refreshed (callbacks : Callbacks C S) (backpressure : DaemonStreamBackpressure C S) :
    Refreshed callbacks backpressure (backpressure.refresh callbacks) := by
  let counts := countClients callbacks backpressure.clients
  let pressed := backpressure.setPressured counts.total
  let resumed := pressed.pausedSessions.elems.foldl (resumeSession counts) pressed
  let paused :=
    if resumed.pressured then counts.bytesBySession.pairs.foldl pauseSession resumed else resumed
  have hresumed : Pauses pressed resumed := Pauses.foldl (Pauses.resumeSession counts) _ pressed
  have hpaused : Pauses resumed paused := by
    change Pauses resumed (if resumed.pressured then _ else resumed)
    split_ifs
    · exact Pauses.foldl Pauses.pauseSession _ resumed
    · exact Pauses.refl resumed
  have hpauses := hresumed.trans hpaused
  obtain ⟨stallReleased, hfold, hstall⟩ :=
    foldl_endStallRelease counts paused.stallReleasedSessions.elems paused
  have hrefresh : backpressure.refresh callbacks =
      { paused with stallReleasedSessions := stallReleased } := hfold
  rw [hrefresh]
  refine ⟨hpauses.clients, hpauses.records, hpauses.told, hpauses.calls, fun sessionId hin => ?_,
    hpauses.paused, fun sessionId => ?_⟩
  · have hclients : paused.clients = backpressure.clients := hpauses.clients
    dsimp only at hin ⊢
    rw [hclients, ← bytesOf_countClients]
    by_cases hpressure : resumed.pressured = true
    · refine ⟨hpaused.pressured.trans hpressure, ?_⟩
      have hfolded : paused = counts.bytesBySession.pairs.foldl pauseSession resumed :=
        if_pos hpressure
      rw [hfolded] at hin
      rcases mem_paused_foldl_pauseSession _ resumed hin with hstayed | ⟨bytes, hbytes, hhigh⟩
      · obtain ⟨hmem, hshare⟩ := mem_paused_foldl_resumeSession counts _ pressed hstayed
        exact (hshare hmem).2
      · have hlookup : counts.bytesOf sessionId = bytes := by
          rw [Counts.bytesOf, mem_pairs.mp hbytes]
          rfl
        rw [sessionHighWaterBytes] at hhigh
        change sessionLowWaterBytes < counts.bytesOf sessionId
        rw [hlookup, sessionLowWaterBytes]
        omega
    · have hfolded : paused = resumed := if_neg hpressure
      rw [hfolded] at hin
      obtain ⟨hmem, hshare⟩ := mem_paused_foldl_resumeSession counts _ pressed hin
      exact absurd (hresumed.pressured.trans (hshare hmem).1) hpressure
  · have hsame : paused.stallReleasedSessions = backpressure.stallReleasedSessions :=
      hpauses.stallReleased
    rw [hstall, hsame, ← mem_accounted_countClients callbacks]
    exact and_congr_right fun hin => ⟨fun hall => hall hin, fun haccounted _ => haccounted⟩

end Refreshing

end Wakii.StreamBackpressure
