import Mathlib.Data.List.Infix
import Wakii.Daemon.BackpressureRefresh

/-!
# Runs of back-pressure

The pending bytes of a client are the bytes of its writes that are not
completed; a session is paused where the last call said so, and only while its
share is above the low mark.
-/

namespace Wakii.StreamBackpressure

open List OrderedCollections OrderedMap AList OrderedSet

variable {C S : Type*} [DecidableEq C] [DecidableEq S]

/-! ## Writes -/

/-- The bytes of a client's writes for a session that are not completed, but for those of a
client cleared since. -/
def bytesInFlight (writes : List (SocketWrite C S)) (clientId : C) (sessionId : S) : ℕ :=
  ((writes.filter fun write =>
    write.clientId = clientId ∧ write.sessionId = sessionId ∧ write.cleared = false).map
      (·.bytes)).sum

def DaemonStreamBackpressure.pendingBytes (backpressure : DaemonStreamBackpressure C S)
    (clientId : C) (sessionId : S) : ℕ :=
  match backpressure.clients.lookup clientId with
  | none => 0
  | some client => amountOf client.pendingWriteBytes sessionId

/-- The records and the writes that are not completed know of each other. -/
structure Accounting (backpressure : DaemonStreamBackpressure C S)
    (writes : List (SocketWrite C S)) : Prop where
  pending : ∀ clientId sessionId,
    backpressure.pendingBytes clientId sessionId = bytesInFlight writes clientId sessionId
  records : ∀ clientId client, backpressure.clients.lookup clientId = some client →
    client.record < backpressure.records
  written : ∀ write ∈ writes, write.record < backpressure.records ∧ 0 < write.bytes
  current : ∀ write ∈ writes, write.cleared = false ↔ ∃ client,
    backpressure.clients.lookup write.clientId = some client ∧ client.record = write.record

namespace Accounting

variable {backpressure : DaemonStreamBackpressure C S} {writes : List (SocketWrite C S)}

theorem congr {after : DaemonStreamBackpressure C S} (haccounting : Accounting backpressure writes)
    (hclients : after.clients = backpressure.clients)
    (hrecords : after.records = backpressure.records) : Accounting after writes where
  pending clientId sessionId := by
    rw [← haccounting.pending, DaemonStreamBackpressure.pendingBytes,
      DaemonStreamBackpressure.pendingBytes, hclients]
  records clientId client hclient := by
    rw [hclients] at hclient
    rw [hrecords]
    exact haccounting.records clientId client hclient
  written write hwrite := by
    rw [hrecords]
    exact haccounting.written write hwrite
  current write hwrite := by
    rw [hclients]
    exact haccounting.current write hwrite

theorem refresh (haccounting : Accounting backpressure writes) (callbacks : Callbacks C S) :
    Accounting (backpressure.refresh callbacks) writes :=
  haccounting.congr (refreshed callbacks backpressure).clients
    (refreshed callbacks backpressure).records

end Accounting

theorem bytesInFlight_cons (write : SocketWrite C S) (writes : List (SocketWrite C S))
    (clientId : C) (sessionId : S) :
    bytesInFlight (write :: writes) clientId sessionId =
      (if write.clientId = clientId ∧ write.sessionId = sessionId ∧ write.cleared = false
        then write.bytes else 0) + bytesInFlight writes clientId sessionId := by
  rw [bytesInFlight, filter_cons]
  split_ifs with hfits hsame hsame
  · rfl
  · exact absurd (of_decide_eq_true hfits) hsame
  · exact absurd (decide_eq_true hsame) hfits
  · rw [Nat.zero_add, bytesInFlight]

theorem bytesInFlight_perm {writes later : List (SocketWrite C S)} (hperm : writes.Perm later)
    (clientId : C) (sessionId : S) :
    bytesInFlight writes clientId sessionId = bytesInFlight later clientId sessionId :=
  ((hperm.filter _).map _).sum_nat

theorem bytes_le_bytesInFlight {writes : List (SocketWrite C S)} {write : SocketWrite C S}
    (hwrite : write ∈ writes) (hcleared : write.cleared = false) :
    write.bytes ≤ bytesInFlight writes write.clientId write.sessionId := by
  obtain ⟨done, later, rfl⟩ := append_of_mem hwrite
  rw [bytesInFlight_perm perm_middle, bytesInFlight_cons, if_pos ⟨rfl, rfl, hcleared⟩]
  exact Nat.le_add_right _ _

theorem pendingBytes_of_lookup {backpressure : DaemonStreamBackpressure C S} {clientId : C}
    {client : ClientBacklog S} (hclient : backpressure.clients.lookup clientId = some client)
    (sessionId : S) :
    backpressure.pendingBytes clientId sessionId = amountOf client.pendingWriteBytes sessionId := by
  rw [DaemonStreamBackpressure.pendingBytes, hclient]

namespace Accounting

variable {backpressure : DaemonStreamBackpressure C S} {writes : List (SocketWrite C S)}

/-- What a client's record becomes, with the writes that are then not completed. -/
structure Change (backpressure : DaemonStreamBackpressure C S) (writes : List (SocketWrite C S))
    (clientId : C) (client : ClientBacklog S) (later : List (SocketWrite C S)) : Prop where
  record : ∃ prior, backpressure.clients.lookup clientId = some prior ∧ client.record = prior.record
  pending : ∀ sessionId,
    amountOf client.pendingWriteBytes sessionId = bytesInFlight later clientId sessionId
  others : ∀ other ≠ clientId, ∀ sessionId,
    bytesInFlight later other sessionId = bytesInFlight writes other sessionId
  written : ∀ write ∈ later, write ∈ writes ∨ write.clientId = clientId ∧
    write.record = client.record ∧ 0 < write.bytes ∧ write.cleared = false

section

variable (haccounting : Accounting backpressure writes) {clientId : C} {client : ClientBacklog S}
  {later : List (SocketWrite C S)} (hchange : Change backpressure writes clientId client later)
include haccounting hchange

theorem set :
    Accounting { backpressure with clients := backpressure.clients.set clientId client } later := by
  obtain ⟨prior, hprior, hrecord⟩ := hchange.record
  refine ⟨fun other sessionId => ?_, fun other stored hstored => ?_, fun write hwrite => ?_,
    fun write hwrite => ?_⟩
  · by_cases hsame : other = clientId
    · subst hsame
      rw [pendingBytes_of_lookup (lookup_set_self _ _ _), hchange.pending]
    · rw [hchange.others other hsame, ← haccounting.pending,
        DaemonStreamBackpressure.pendingBytes, DaemonStreamBackpressure.pendingBytes]
      dsimp only
      rw [lookup_set_ne _ _ hsame]
  · by_cases hsame : other = clientId
    · subst hsame
      rw [lookup_set_self] at hstored
      rw [← Option.some.inj hstored, hrecord]
      exact haccounting.records other prior hprior
    · rw [lookup_set_ne _ _ hsame] at hstored
      exact haccounting.records other stored hstored
  · rcases hchange.written write hwrite with hold | ⟨-, hnew, hbytes, -⟩
    · exact haccounting.written write hold
    · rw [hnew, hrecord]
      exact ⟨haccounting.records clientId prior hprior, hbytes⟩
  · rcases hchange.written write hwrite with hold | ⟨hclient, hnew, -, hcleared⟩
    · rw [haccounting.current write hold]
      by_cases hsame : write.clientId = clientId
      · rw [hsame, hprior, lookup_set_self]
        simp [hrecord]
      · rw [lookup_set_ne _ _ hsame]
    · rw [hclient, lookup_set_self]
      exact ⟨fun _ => ⟨client, rfl, hnew.symm⟩, fun _ => hcleared⟩

theorem erase (hempty : client.pendingWriteBytes.keys = []) :
    Accounting { backpressure with clients := backpressure.clients.erase clientId } later := by
  have hstored := haccounting.set hchange
  have hnone (sessionId : S) : bytesInFlight later clientId sessionId = 0 := by
    have hnone : client.pendingWriteBytes = ∅ := AList.ext (map_eq_nil_iff.mp hempty)
    rw [← hchange.pending, hnone]
    rfl
  have herased : (backpressure.clients.erase clientId).lookup clientId = none := lookup_erase _ _
  refine ⟨fun other sessionId => ?_, fun other stored hother => ?_, hstored.written,
    fun write hwrite => ?_⟩
  · by_cases hsame : other = clientId
    · subst hsame
      rw [hnone, DaemonStreamBackpressure.pendingBytes, herased]
    · rw [hchange.others other hsame, ← haccounting.pending,
        DaemonStreamBackpressure.pendingBytes, DaemonStreamBackpressure.pendingBytes]
      dsimp only
      rw [lookup_erase_ne hsame]
  · by_cases hsame : other = clientId
    · subst hsame
      rw [herased] at hother
      exact absurd hother.symm (Option.some_ne_none _)
    · rw [lookup_erase_ne hsame] at hother
      exact haccounting.records other stored hother
  · by_cases hsame : write.clientId = clientId
    · have hcleared : write.cleared ≠ false := fun hcleared => by
        have hbytes := bytes_le_bytesInFlight hwrite hcleared
        rw [hsame, hnone] at hbytes
        exact absurd (hstored.written write hwrite).2 (Nat.not_lt.mpr hbytes)
      rw [hsame, herased]
      exact ⟨fun h => absurd h hcleared, fun ⟨_, h, _⟩ => by cases h⟩
    · rw [lookup_erase_ne hsame, hstored.current write hwrite, lookup_set_ne _ _ hsame]

theorem pruneClient : Accounting (backpressure.pruneClient clientId client) later := by
  rw [DaemonStreamBackpressure.pruneClient]
  split_ifs with hempty
  · exact haccounting.erase hchange hempty.2.2
  · exact haccounting.set hchange

end

theorem getOrCreateClient (haccounting : Accounting backpressure writes) (clientId : C) :
    Accounting (backpressure.getOrCreateClient clientId).2 writes ∧
      (backpressure.getOrCreateClient clientId).2.clients.lookup clientId =
        some (backpressure.getOrCreateClient clientId).1 := by
  rw [DaemonStreamBackpressure.getOrCreateClient]
  cases hclient : backpressure.clients.lookup clientId with
  | some client => exact ⟨haccounting, hclient⟩
  | none =>
    refine ⟨⟨fun other sessionId => ?_, fun other stored hstored => ?_, fun write hwrite => ?_,
      fun write hwrite => ?_⟩, lookup_set_self _ _ _⟩
    · rw [← haccounting.pending, DaemonStreamBackpressure.pendingBytes,
        DaemonStreamBackpressure.pendingBytes]
      dsimp only
      by_cases hsame : other = clientId
      · rw [hsame, lookup_set_self, hclient]
        rfl
      · rw [lookup_set_ne _ _ hsame]
    · dsimp only at hstored ⊢
      by_cases hsame : other = clientId
      · rw [hsame, lookup_set_self] at hstored
        rw [← Option.some.inj hstored]
        exact Nat.lt_succ_self _
      · rw [lookup_set_ne _ _ hsame] at hstored
        exact Nat.lt_succ_of_lt (haccounting.records other stored hstored)
    · obtain ⟨hrecord, hbytes⟩ := haccounting.written write hwrite
      exact ⟨Nat.lt_succ_of_lt hrecord, hbytes⟩
    · rw [haccounting.current write hwrite]
      dsimp only
      by_cases hsame : write.clientId = clientId
      · -- no write of this client is counted in the new record
        have hnew : backpressure.records ≠ write.record := (haccounting.written write hwrite).1.ne'
        rw [hsame, hclient, lookup_set_self]
        simp [hnew]
      · rw [lookup_set_ne _ _ hsame]

theorem setQueued (haccounting : Accounting backpressure writes) (callbacks : Callbacks C S)
    (clientId : C) (queuedChars queuedMetadataBytes : OrderedMap S ℕ) :
    Accounting (backpressure.setQueued callbacks clientId queuedChars queuedMetadataBytes)
      writes := by
  obtain ⟨hmade, hclient⟩ := haccounting.getOrCreateClient clientId
  have hchange : Change (backpressure.getOrCreateClient clientId).2 writes clientId
      { (backpressure.getOrCreateClient clientId).1 with
        queuedChars := queuedChars
        queuedMetadataBytes := queuedMetadataBytes } writes := by
    refine ⟨⟨_, hclient, rfl⟩, fun sessionId => ?_, fun _ _ _ => rfl, fun _ => Or.inl⟩
    rw [← hmade.pending, pendingBytes_of_lookup hclient]
  exact (hmade.pruneClient hchange).refresh callbacks

theorem amountOf_set (amounts : OrderedMap S ℕ) (sessionId other : S) (amount : ℕ) :
    amountOf (amounts.set sessionId amount) other =
      if other = sessionId then amount else amountOf amounts other := by
  rw [amountOf, amountOf]
  by_cases hsame : other = sessionId
  · rw [hsame, if_pos rfl, lookup_set_self]
    rfl
  · rw [if_neg hsame, lookup_set_ne _ _ hsame]

theorem amountOf_takeBack (amounts : OrderedMap S ℕ) (sessionId other : S) (bytes : ℕ) :
    amountOf (if bytes < (amounts.lookup sessionId).getD 0 then
        amounts.set sessionId ((amounts.lookup sessionId).getD 0 - bytes)
      else amounts.erase sessionId) other =
      if other = sessionId then amountOf amounts sessionId - bytes else amountOf amounts other := by
  split_ifs with hless hsame hsame
  · rw [hsame, amountOf_set, if_pos rfl, amountOf]
  · rw [amountOf_set, if_neg hsame]
  · rw [hsame, amountOf, lookup_erase, amountOf]
    exact (Nat.sub_eq_zero_of_le (Nat.le_of_not_lt hless)).symm
  · rw [amountOf, lookup_erase_ne hsame, amountOf]

theorem write (haccounting : Accounting backpressure writes) (callbacks : Callbacks C S)
    (clientId : C) (sessionId : S) {bytes : ℕ} (hbytes : 0 < bytes) :
    Accounting (backpressure.write callbacks clientId sessionId bytes).2
      (writes ++ [⟨clientId, (backpressure.write callbacks clientId sessionId bytes).1.record,
        sessionId, bytes, false⟩]) := by
  obtain ⟨hmade, hclient⟩ := haccounting.getOrCreateClient clientId
  have hlast (other : C) (otherSession : S) (record : ℕ) :
      bytesInFlight (writes ++ [⟨clientId, record, sessionId, bytes, false⟩]) other otherSession =
        (if clientId = other ∧ sessionId = otherSession then bytes else 0) +
          bytesInFlight writes other otherSession := by
    rw [bytesInFlight_perm perm_append_comm, singleton_append, bytesInFlight_cons]
    simp
  have hchange : Change (backpressure.getOrCreateClient clientId).2 writes clientId
      (backpressure.write callbacks clientId sessionId bytes).1
      (writes ++ [⟨clientId, (backpressure.write callbacks clientId sessionId bytes).1.record,
        sessionId, bytes, false⟩]) := by
    refine ⟨⟨_, hclient, rfl⟩, fun other => ?_, fun other hother otherSession => ?_,
      fun write hwrite => ?_⟩
    · have hpending : (backpressure.write callbacks clientId sessionId bytes).1.pendingWriteBytes =
          (backpressure.getOrCreateClient clientId).1.pendingWriteBytes.set sessionId
            (amountOf (backpressure.getOrCreateClient clientId).1.pendingWriteBytes sessionId +
              bytes) := rfl
      rw [hlast, ← hmade.pending, pendingBytes_of_lookup hclient, hpending, amountOf_set]
      by_cases hsame : other = sessionId
      · rw [if_pos hsame, if_pos ⟨rfl, hsame.symm⟩, hsame, Nat.add_comm]
      · rw [if_neg hsame, if_neg fun h => hsame h.2.symm, Nat.zero_add]
    · rw [hlast, if_neg fun h => hother h.1.symm, Nat.zero_add]
    · rcases mem_append.mp hwrite with hold | hnew
      · exact Or.inl hold
      · rw [mem_singleton.mp hnew]
        exact Or.inr ⟨rfl, rfl, hbytes, rfl⟩
  exact (hmade.set hchange).refresh callbacks

variable {later : List (SocketWrite C S)} {write : SocketWrite C S}

theorem dropWrite (haccounting : Accounting backpressure writes)
    (hperm : writes.Perm (write :: later)) (hcleared : write.cleared = true) :
    Accounting backpressure later where
  pending clientId sessionId := by
    rw [haccounting.pending, bytesInFlight_perm hperm, bytesInFlight_cons,
      if_neg fun h => Bool.false_ne_true (h.2.2.symm.trans hcleared), Nat.zero_add]
  records := haccounting.records
  written other hother := haccounting.written other (hperm.mem_iff.mpr (mem_cons_of_mem _ hother))
  current other hother := haccounting.current other (hperm.mem_iff.mpr (mem_cons_of_mem _ hother))

theorem completeWrite (haccounting : Accounting backpressure writes) (callbacks : Callbacks C S)
    {client : ClientBacklog S} (hperm : writes.Perm (write :: later))
    (hcleared : write.cleared = false)
    (hclient : backpressure.clients.lookup write.clientId = some client) :
    Accounting (backpressure.completeWrite callbacks write.clientId client write.sessionId
      write.bytes) later := by
  have hbytes (clientId : C) (sessionId : S) : bytesInFlight writes clientId sessionId =
      (if write.clientId = clientId ∧ write.sessionId = sessionId then write.bytes else 0) +
        bytesInFlight later clientId sessionId := by
    rw [bytesInFlight_perm hperm, bytesInFlight_cons]
    simp [hcleared]
  have hpending (sessionId : S) : amountOf client.pendingWriteBytes sessionId =
      (if write.sessionId = sessionId then write.bytes else 0) +
        bytesInFlight later write.clientId sessionId := by
    rw [← pendingBytes_of_lookup hclient, haccounting.pending, hbytes]
    simp
  have hchange : Change backpressure writes write.clientId
      { client with
        pendingWriteBytes :=
          if write.bytes < (client.pendingWriteBytes.lookup write.sessionId).getD 0 then
            client.pendingWriteBytes.set write.sessionId
              ((client.pendingWriteBytes.lookup write.sessionId).getD 0 - write.bytes)
          else client.pendingWriteBytes.erase write.sessionId } later := by
    refine ⟨⟨client, hclient, rfl⟩, fun sessionId => ?_, fun other hother sessionId => ?_,
      fun other hother => ?_⟩
    · have htaken := amountOf_takeBack client.pendingWriteBytes write.sessionId sessionId
        write.bytes
      refine htaken.trans ?_
      by_cases hsame : sessionId = write.sessionId
      · rw [if_pos hsame, hpending, if_pos rfl, Nat.add_sub_cancel_left, hsame]
      · rw [if_neg hsame, hpending, if_neg (Ne.symm hsame), Nat.zero_add]
    · rw [hbytes, if_neg fun h => hother h.1.symm, Nat.zero_add]
    · exact Or.inl (hperm.mem_iff.mpr (mem_cons_of_mem _ hother))
  exact (haccounting.pruneClient hchange).refresh callbacks

theorem complete {world : World C S} (haccounting : Accounting world.backpressure world.writes)
    (callbacks : Callbacks C S) {index : ℕ} (hwrite : world.writes[index]? = some write) :
    Accounting (world.complete callbacks index write).backpressure
      (world.complete callbacks index write).writes := by
  obtain ⟨hlt, hat⟩ := List.getElem?_eq_some_iff.mp hwrite
  have hperm : world.writes.Perm (write :: world.writes.eraseIdx index) := by
    rw [← hat]
    exact (getElem_cons_eraseIdx_perm hlt).symm
  have hmem : write ∈ world.writes := mem_of_getElem? hwrite
  have hcurrent := haccounting.current write hmem
  rw [World.complete]
  cases hclient : world.backpressure.clients.lookup write.clientId with
  | none =>
    rw [hclient] at hcurrent
    have hcleared : write.cleared = true := by
      by_contra hnot
      obtain ⟨_, hnone, _⟩ := hcurrent.mp (Bool.eq_false_iff.mpr hnot)
      cases hnone
    exact haccounting.dropWrite hperm hcleared
  | some client =>
    rw [hclient] at hcurrent
    dsimp only
    split_ifs with hrecord
    · exact haccounting.completeWrite callbacks hperm (hcurrent.mpr ⟨client, rfl, hrecord⟩) hclient
    · have hcleared : write.cleared = true := by
        by_contra hnot
        obtain ⟨stored, hstored, hsame⟩ := hcurrent.mp (Bool.eq_false_iff.mpr hnot)
        rw [← Option.some.inj hstored] at hsame
        exact hrecord hsame
      exact haccounting.dropWrite hperm hcleared

/-- Cleared clients take their charges along. -/
theorem clearClients (haccounting : Accounting backpressure writes)
    {after : DaemonStreamBackpressure C S} {cleared : C → Prop} [DecidablePred cleared]
    (hrecords : after.records = backpressure.records)
    (hclients : ∀ clientId, after.clients.lookup clientId =
      if cleared clientId then none else backpressure.clients.lookup clientId) :
    Accounting after (writes.map fun write =>
      if cleared write.clientId then { write with cleared := true } else write) := by
  have hmarked {write marked : SocketWrite C S} (hmark : (if cleared write.clientId then
      { write with cleared := true } else write) = marked) :
      marked.clientId = write.clientId ∧ marked.record = write.record ∧
        marked.sessionId = write.sessionId ∧ marked.bytes = write.bytes ∧
        (marked.cleared = false ↔ write.cleared = false ∧ ¬ cleared write.clientId) := by
    subst hmark
    split_ifs with hcleared
    · simp [hcleared]
    · simp [hcleared]
  have hbytes (clientId : C) (sessionId : S) : bytesInFlight (writes.map fun write =>
      if cleared write.clientId then { write with cleared := true } else write) clientId sessionId =
        if cleared clientId then 0 else bytesInFlight writes clientId sessionId := by
    clear haccounting
    induction writes with
    | nil => exact (ite_self 0).symm
    | cons write writes ih =>
      obtain ⟨hclient, -, hsession, hsame, hcleared⟩ := @hmarked write _ rfl
      rw [map_cons, bytesInFlight_cons, ih, bytesInFlight_cons]
      simp only [hclient, hsession, hsame, hcleared]
      by_cases hgone : cleared clientId
      · rw [if_pos hgone, if_pos hgone, if_neg]
        rintro ⟨hof, -, -, hnot⟩
        exact hnot (hof ▸ hgone)
      · rw [if_neg hgone, if_neg hgone]
        congr 1
        by_cases hof : write.clientId = clientId
        · simp [hof, hgone]
        · simp [hof]
  refine ⟨fun clientId sessionId => ?_, fun clientId client hclient => ?_, fun marked hin => ?_,
    fun marked hin => ?_⟩
  · rw [hbytes, ← haccounting.pending, DaemonStreamBackpressure.pendingBytes, hclients,
      DaemonStreamBackpressure.pendingBytes]
    split_ifs
    · rfl
    · rfl
  · rw [hclients] at hclient
    rw [hrecords]
    split_ifs at hclient
    · exact haccounting.records clientId client hclient
  · obtain ⟨write, hwrite, hmark⟩ := mem_map.mp hin
    obtain ⟨-, hrecord, -, hsame, -⟩ := hmarked hmark
    rw [hrecord, hsame, hrecords]
    exact haccounting.written write hwrite
  · obtain ⟨write, hwrite, hmark⟩ := mem_map.mp hin
    obtain ⟨hclient, hrecord, -, -, hcleared⟩ := hmarked hmark
    rw [hcleared, hclient, hrecord, hclients, haccounting.current write hwrite]
    by_cases hgone : cleared write.clientId
    · rw [if_pos hgone]
      exact ⟨fun h => absurd hgone h.2, fun ⟨_, h, _⟩ => by cases h⟩
    · rw [if_neg hgone]
      exact and_iff_left hgone

end Accounting

/-! ## Steps -/

/-- What a call does before it refreshes. -/
structure Prepares (before after : DaemonStreamBackpressure C S) : Prop where
  told : Told before → Told after
  calls : ∃ calls, after.setPausedCalls = before.setPausedCalls ++ calls ∧
    ∀ sessionId, (sessionId, true) ∉ calls
  stallReleased : ∀ sessionId ∈ before.stallReleasedSessions,
    sessionId ∈ after.stallReleasedSessions ∨ after.clients = ∅
  apart : (∀ sessionId ∈ before.stallReleasedSessions, sessionId ∉ before.pausedSessions) →
    ∀ sessionId ∈ after.stallReleasedSessions, sessionId ∉ after.pausedSessions

omit [DecidableEq C] in
theorem Prepares.of_clients {before after : DaemonStreamBackpressure C S}
    (hpaused : after.pausedSessions = before.pausedSessions)
    (hstall : after.stallReleasedSessions = before.stallReleasedSessions)
    (hcalls : after.setPausedCalls = before.setPausedCalls) : Prepares before after where
  told htold sessionId := by
    rw [hpaused, hcalls]
    exact htold sessionId
  calls := ⟨[], by rw [hcalls, append_nil], fun _ => not_mem_nil⟩
  stallReleased sessionId hin := by
    rw [hstall]
    exact Or.inl hin
  apart hapart := by
    rw [hpaused, hstall]
    exact hapart

theorem prepares_getOrCreateClient (backpressure : DaemonStreamBackpressure C S) (clientId : C)
    (clients : OrderedMap C (ClientBacklog S)) :
    Prepares backpressure
      { (backpressure.getOrCreateClient clientId).2 with clients := clients } := by
  rw [DaemonStreamBackpressure.getOrCreateClient]
  cases backpressure.clients.lookup clientId with
  | none => exact .of_clients rfl rfl rfl
  | some client => exact .of_clients rfl rfl rfl

omit [DecidableEq C] in
theorem prepares_release (backpressure : DaemonStreamBackpressure C S) (sessionId : S) :
    Prepares backpressure
      (let released := { backpressure with
          stallReleasedSessions := backpressure.stallReleasedSessions.add sessionId }
        if sessionId ∈ released.pausedSessions then released.setPaused sessionId false
        else released) := by
  dsimp only
  split_ifs with hpaused
  · have hreleased := @Pauses.setPaused _ _ _ { backpressure with
      stallReleasedSessions := backpressure.stallReleasedSessions.add sessionId }
      sessionId false fun h => absurd h Bool.false_ne_true
    refine ⟨hreleased.told, ⟨[(sessionId, false)], rfl, fun other => by simp⟩,
      fun other hin => Or.inl (mem_add.mpr (Or.inr hin)), fun hapart other hin => ?_⟩
    intro hother
    obtain ⟨hne, hmem⟩ := mem_erase.mp hother
    exact hapart other ((mem_add.mp hin).resolve_left hne) hmem
  · refine ⟨id, ⟨[], (append_nil _).symm, fun _ => not_mem_nil⟩,
      fun other hin => Or.inl (mem_add.mpr (Or.inr hin)), fun hapart other hin => ?_⟩
    rcases mem_add.mp hin with rfl | hin
    · exact hpaused
    · exact hapart other hin

/-- A call changes nothing of the sessions, or prepares a refresh and makes it. -/
theorem step_backpressure (world : World C S) (callbacks : Callbacks C S) (call : Call C S) :
    ((world.step callbacks call).backpressure = world.backpressure ∧
      (world.step callbacks call).callbacks = world.callbacks) ∨
      ∃ prepared, Prepares world.backpressure prepared ∧
        (world.step callbacks call).backpressure = prepared.refresh callbacks ∧
        (world.step callbacks call).callbacks = callbacks := by
  cases call with
  | setQueued clientId queuedChars queuedMetadataBytes =>
    exact Or.inr ⟨_, prepares_getOrCreateClient world.backpressure clientId _, rfl, rfl⟩
  | write clientId sessionId lineBytes =>
    exact Or.inr ⟨_, prepares_getOrCreateClient world.backpressure clientId _, rfl, rfl⟩
  | complete index =>
    rw [World.step]
    cases world.writes[index]? with
    | none => exact Or.inl ⟨rfl, rfl⟩
    | some write =>
      dsimp only
      rw [World.complete]
      cases world.backpressure.clients.lookup write.clientId with
      | none => exact Or.inl ⟨rfl, rfl⟩
      | some client =>
        dsimp only
        split_ifs
        · refine Or.inr ⟨_, ?_, rfl, rfl⟩
          exact .of_clients rfl rfl rfl
        · exact Or.inl ⟨rfl, rfl⟩
  | releaseStalledSession sessionId =>
    exact Or.inr ⟨_, prepares_release world.backpressure sessionId, rfl, rfl⟩
  | clear clientId =>
    cases clientId with
    | none =>
      refine Or.inr ⟨{ world.backpressure with clients := ∅, stallReleasedSessions := ∅ },
        ⟨id, ⟨[], (append_nil _).symm, fun _ => not_mem_nil⟩,
          fun _ _ => Or.inr rfl, fun _ sessionId hin => ?_⟩, rfl, rfl⟩
      exact absurd hin (not_mem_empty sessionId)
    | some clientId =>
      refine Or.inr ⟨_, ?_, rfl, rfl⟩
      exact .of_clients rfl rfl rfl
  | refresh => exact Or.inr ⟨_, .of_clients rfl rfl rfl, rfl, rfl⟩

variable {world : World C S}

/-- Every call keeps the charges accounted for. -/
theorem Accounting.step (haccounting : Accounting world.backpressure world.writes)
    (callbacks : Callbacks C S) (call : Call C S) :
    Accounting (world.step callbacks call).backpressure (world.step callbacks call).writes := by
  cases call with
  | setQueued clientId queuedChars queuedMetadataBytes =>
    exact haccounting.setQueued callbacks clientId queuedChars queuedMetadataBytes
  | write clientId sessionId lineBytes =>
    exact haccounting.write callbacks clientId sessionId (Nat.add_pos_right _ (by decide))
  | complete index =>
    rw [World.step]
    cases hwrite : world.writes[index]? with
    | none => exact haccounting
    | some write => exact haccounting.complete callbacks hwrite
  | releaseStalledSession sessionId =>
    refine Accounting.refresh ?_ callbacks
    dsimp only
    split_ifs
    · exact haccounting.congr rfl rfl
    · exact haccounting.congr rfl rfl
  | clear clientId =>
    cases clientId with
    | none =>
      have hcleared := @clearClients _ _ _ _ _ _ haccounting
        { world.backpressure with clients := ∅, stallReleasedSessions := ∅ }
        (fun other => (none : Option C) = none ∨ none = some other) _ rfl
        fun other => by
          rw [if_pos (Or.inl rfl)]
          exact lookup_empty other
      exact hcleared.refresh callbacks
    | some clientId =>
      have hcleared := @clearClients _ _ _ _ _ _ haccounting
        { world.backpressure with clients := world.backpressure.clients.erase clientId }
        (fun other => some clientId = none ∨ some clientId = some other) _ rfl
        fun other => by
          by_cases hsame : other = clientId
          · rw [if_pos (Or.inr (congrArg some hsame.symm)), hsame]
            exact lookup_erase clientId world.backpressure.clients
          · rw [if_neg (by simp [Ne.symm hsame])]
            exact lookup_erase_ne hsame
      exact hcleared.refresh callbacks
  | refresh => exact haccounting.refresh callbacks

/-! ## Runs -/

structure Ok (world : World C S) : Prop where
  accounting : Accounting world.backpressure world.writes
  told : Told world.backpressure
  paused : ∀ sessionId ∈ world.backpressure.pausedSessions, world.backpressure.pressured = true ∧
      sessionLowWaterBytes < backlog world.callbacks world.backpressure.clients sessionId
  apart : ∀ sessionId ∈ world.backpressure.stallReleasedSessions,
    sessionId ∉ world.backpressure.pausedSessions

theorem Ok.start (callbacks : Callbacks C S) : Ok (World.start callbacks) where
  accounting := by
    refine ⟨fun _ _ => rfl, fun clientId client hclient => ?_, fun _ h => absurd h not_mem_nil,
      fun _ h => absurd h not_mem_nil⟩
    exact absurd hclient.symm (Option.some_ne_none client)
  told sessionId := ⟨fun h => absurd h (not_mem_empty sessionId), fun h => (by cases h)⟩
  paused sessionId h := absurd h (not_mem_empty sessionId)
  apart sessionId h := absurd h (not_mem_empty sessionId)

theorem Ok.step (hok : Ok world) (callbacks : Callbacks C S) (call : Call C S) :
    Ok (world.step callbacks call) := by
  have haccounting := hok.accounting.step callbacks call
  rcases step_backpressure world callbacks call with
    ⟨hsame, hcallbacks⟩ | ⟨prepared, hprepares, hrefresh, hcallbacks⟩
  · refine ⟨haccounting, ?_, ?_, ?_⟩
    · rw [hsame]
      exact hok.told
    · rw [hsame, hcallbacks]
      exact hok.paused
    · rw [hsame]
      exact hok.apart
  · have hrefreshed := refreshed callbacks prepared
    refine ⟨haccounting, ?_, ?_, ?_⟩
    · rw [hrefresh]
      exact hrefreshed.told (hprepares.told hok.told)
    · rw [hrefresh, hcallbacks]
      exact hrefreshed.paused
    · rw [hrefresh]
      intro sessionId hstall hpaused
      have hbefore := ((hrefreshed.stallReleased sessionId).mp hstall).1
      rcases hrefreshed.unpaused sessionId hpaused with hstayed | hnot
      · exact hprepares.apart hok.apart sessionId hbefore hstayed
      · exact hnot hbefore

theorem Ok.run (hok : Ok world) (calls : List (Callbacks C S × Call C S)) : Ok (world.run calls) :=
  List.foldlRecOn calls _ hok fun _ hstep call _ => hstep.step call.1 call.2

/-- Something of a session is queued, or written for a client not cleared since. -/
def World.Holds (world : World C S) (sessionId : S) : Prop :=
  (∃ clientId client, world.backpressure.clients.lookup clientId = some client ∧
    (0 < amountOf client.queuedChars sessionId ∨
      0 < amountOf client.queuedMetadataBytes sessionId)) ∨
    ∃ write ∈ world.writes, write.sessionId = sessionId ∧ write.cleared = false

variable {sessionId : S}

omit [DecidableEq C] in
theorem mem_of_amountOf_pos {amounts : OrderedMap S ℕ} (hpos : 0 < amountOf amounts sessionId) :
    sessionId ∈ amounts := by
  by_contra hnone
  rw [amountOf, lookup_eq_none.mpr hnone] at hpos
  exact absurd hpos (Nat.lt_irrefl 0)

theorem exists_accounts_of_holds (haccounting : Accounting world.backpressure world.writes)
    (hholds : world.Holds sessionId) :
    ∃ clientId client, world.backpressure.clients.lookup clientId = some client ∧
      Accounts sessionId client := by
  rcases hholds with ⟨clientId, client, hclient, hchars | hbytes⟩ | ⟨write, hwrite, rfl, hcleared⟩
  · exact ⟨clientId, client, hclient, Or.inl (mem_of_amountOf_pos hchars)⟩
  · exact ⟨clientId, client, hclient, Or.inr (Or.inl (mem_of_amountOf_pos hbytes))⟩
  · obtain ⟨client, hclient, -⟩ := (haccounting.current write hwrite).mp hcleared
    have hpending := haccounting.pending write.clientId write.sessionId
    rw [pendingBytes_of_lookup hclient] at hpending
    have hpos : 0 < amountOf client.pendingWriteBytes write.sessionId := by
      rw [hpending]
      exact (haccounting.written write hwrite).2.trans_le (bytes_le_bytesInFlight hwrite hcleared)
    exact ⟨write.clientId, client, hclient, Or.inr (Or.inr (mem_of_amountOf_pos hpos))⟩

/-- A session that stays released over some calls, without a call that pauses it. -/
structure StaysReleased (before after : DaemonStreamBackpressure C S) (sessionId : S) : Prop where
  released : sessionId ∈ after.stallReleasedSessions
  calls : ∃ calls, after.setPausedCalls = before.setPausedCalls ++ calls ∧ (sessionId, true) ∉ calls

section

variable {world : World C S} (hok : Ok world) {sessionId : S}
  (hstall : sessionId ∈ world.backpressure.stallReleasedSessions)
include hok hstall

theorem stays_released (callbacks : Callbacks C S)
    (call : Call C S) (hholds : (world.step callbacks call).Holds sessionId) :
    StaysReleased world.backpressure (world.step callbacks call).backpressure sessionId := by
  obtain ⟨clientId, client, hclient, haccounts⟩ :=
    exists_accounts_of_holds (hok.accounting.step callbacks call) hholds
  rcases step_backpressure world callbacks call with
    ⟨hsame, -⟩ | ⟨prepared, hprepares, hrefresh, -⟩
  · rw [hsame]
    exact ⟨hstall, [], (append_nil _).symm, not_mem_nil⟩
  · have hrefreshed := refreshed callbacks prepared
    rw [hrefresh, hrefreshed.clients] at hclient
    have hprepared : sessionId ∈ prepared.stallReleasedSessions := by
      refine (hprepares.stallReleased sessionId hstall).resolve_right fun hempty => ?_
      rw [hempty] at hclient
      exact absurd hclient.symm (Option.some_ne_none client)
    obtain ⟨calls, hcalls, hquiet⟩ := hprepares.calls
    obtain ⟨later, hlater, hpaused⟩ := hrefreshed.calls
    rw [hrefresh]
    refine ⟨(hrefreshed.stallReleased sessionId).mpr ⟨hprepared, clientId, client, hclient,
      haccounts⟩, calls ++ later, by rw [hlater, hcalls, append_assoc], fun hcall => ?_⟩
    rcases mem_append.mp hcall with hcall | hcall
    · exact hquiet sessionId hcall
    · exact hpaused sessionId hcall hprepared

theorem stays_released_run (calls : List (Callbacks C S × Call C S))
    (hholds : ∀ first, first <+: calls → first ≠ [] → (world.run first).Holds sessionId) :
    StaysReleased world.backpressure (world.run calls).backpressure sessionId := by
  induction calls using List.reverseRecOn with
  | nil => exact ⟨hstall, [], (append_nil _).symm, not_mem_nil⟩
  | append_singleton calls call ih =>
    have hbefore := ih fun first hfirst => hholds first (hfirst.trans (prefix_append _ _))
    have hrun : world.run (calls ++ [call]) = (world.run calls).step call.1 call.2 := by
      rw [World.run, foldl_append]
      rfl
    have hafter := hholds (calls ++ [call]) (prefix_refl _) (by simp)
    rw [hrun] at hafter ⊢
    have hstep := stays_released (hok.run calls) hbefore.released call.1 call.2 hafter
    obtain ⟨told, htold, hquiet⟩ := hbefore.calls
    obtain ⟨later, hlater, hquietLater⟩ := hstep.calls
    refine ⟨hstep.released, told ++ later, by rw [hlater, htold, append_assoc], ?_⟩
    rw [mem_append, not_or]
    exact ⟨hquiet, hquietLater⟩

end

/-- The release of a stalled session counts as long as the session holds anything. -/
theorem released_of_holds (hok : Ok world) (callbacks : Callbacks C S)
    (hholds : world.Holds sessionId) : sessionId ∈ (world.step callbacks
      (.releaseStalledSession sessionId)).backpressure.stallReleasedSessions := by
  obtain ⟨clientId, client, hclient, haccounts⟩ := exists_accounts_of_holds hok.accounting hholds
  refine ((refreshed callbacks _).stallReleased sessionId).mpr
    ⟨?_, clientId, client, ?_, haccounts⟩
  · dsimp only
    split_ifs <;> exact mem_add.mpr (Or.inl rfl)
  · dsimp only
    split_ifs <;> exact hclient

theorem backlog_eq_zero {callbacks : Callbacks C S} {clients : OrderedMap C (ClientBacklog S)}
    (hempty : ∀ clientId client, clients.lookup clientId = some client →
      amountOf client.queuedChars sessionId = 0 ∧
        amountOf client.queuedMetadataBytes sessionId = 0 ∧
        amountOf client.pendingWriteBytes sessionId = 0) :
    backlog callbacks clients sessionId = 0 := by
  refine sum_eq_zero fun share hshare => ?_
  obtain ⟨⟨clientId, client⟩, hclient, rfl⟩ := mem_map.mp hshare
  obtain ⟨hchars, hmetadata, hpending⟩ := hempty clientId client (mem_pairs.mp hclient)
  simp [shareOf, queuedShare, bytesShare, hchars, hmetadata, hpending]

/-- After every run the pending bytes are those of the writes not completed, a session is paused
where the last call said so and only above its low mark under pressure, one that holds
anything is released from a stall when asked, one released from a stall is not paused while a
client not cleared has anything of it, and none is paused once nothing is left. -/
theorem backpressure_run (callbacks : Callbacks C S) (calls : List (Callbacks C S × Call C S)) :
    let world := (World.start callbacks).run calls
    (∀ clientId sessionId, world.backpressure.pendingBytes clientId sessionId =
      bytesInFlight world.writes clientId sessionId) ∧
      (∀ write ∈ world.writes, write.cleared = false ↔ ∃ client,
        world.backpressure.clients.lookup write.clientId = some client ∧
          client.record = write.record) ∧
      (∀ sessionId, sessionId ∈ world.backpressure.pausedSessions ↔
        lastCall world.backpressure.setPausedCalls sessionId = some true) ∧
      (∀ sessionId ∈ world.backpressure.pausedSessions, world.backpressure.pressured = true ∧
        sessionLowWaterBytes < backlog world.callbacks world.backpressure.clients sessionId) ∧
      (∀ callbacks sessionId, world.Holds sessionId → sessionId ∈ (world.step callbacks
        (.releaseStalledSession sessionId)).backpressure.stallReleasedSessions) ∧
      (∀ sessionId ∈ world.backpressure.stallReleasedSessions, ∀ later,
        (∀ first, first <+: later → first ≠ [] → (world.run first).Holds sessionId) →
          sessionId ∉ (world.run later).backpressure.pausedSessions ∧
            ∃ told, (world.run later).backpressure.setPausedCalls =
              world.backpressure.setPausedCalls ++ told ∧ (sessionId, true) ∉ told) ∧
      ((∀ clientId client, world.backpressure.clients.lookup clientId = some client →
          ∀ sessionId, amountOf client.queuedChars sessionId = 0 ∧
            amountOf client.queuedMetadataBytes sessionId = 0) →
        (∀ write ∈ world.writes, write.cleared = true) →
          world.backpressure.pausedSessions = ∅) := by
  intro world
  have hok : Ok world := (Ok.start callbacks).run calls
  refine ⟨hok.accounting.pending, hok.accounting.current, hok.told, hok.paused,
    fun callbacks sessionId => released_of_holds hok callbacks,
    fun sessionId hstall later hholds => ?_, fun hqueues hwrites => ?_⟩
  · have hstays := stays_released_run hok hstall later hholds
    exact ⟨(hok.run later).apart sessionId hstays.released, hstays.calls⟩
  · refine OrderedSet.ext (eq_nil_iff_forall_not_mem.mpr fun sessionId hpaused => ?_)
    have hshare := (hok.paused sessionId hpaused).2
    rw [backlog_eq_zero fun clientId client hclient => ?_] at hshare
    · exact absurd hshare (Nat.not_lt_zero _)
    · obtain ⟨hchars, hmetadata⟩ := hqueues clientId client hclient sessionId
      refine ⟨hchars, hmetadata, ?_⟩
      rw [← pendingBytes_of_lookup hclient, hok.accounting.pending, bytesInFlight,
        filter_eq_nil_iff.mpr fun write hwrite => by simp [hwrites write hwrite]]
      rfl

def allOwned : Callbacks ℕ ℕ := ⟨fun _ => false, fun _ _ => true⟩

def completedWrite : List (Callbacks ℕ ℕ × Call ℕ ℕ) :=
  [(allOwned, .write 0 7 (5 * 1024 * 1024)), (allOwned, .complete 0)]

theorem backpressure_run_completedWrite :
    ((World.start allOwned).run completedWrite).backpressure.pausedSessions = ∅ := by
  refine (backpressure_run allOwned completedWrite).2.2.2.2.2.2 (fun clientId client hclient => ?_)
    (by decide +kernel)
  have hnone : ((World.start allOwned).run completedWrite).backpressure.clients.keys = [] := by
    decide +kernel
  have hkey : clientId ∈ ((World.start allOwned).run completedWrite).backpressure.clients :=
    lookup_isSome.mp (Option.isSome_of_mem hclient)
  rw [AList.mem_keys, hnone] at hkey
  exact absurd hkey not_mem_nil

def stalledWrite : List (Callbacks ℕ ℕ × Call ℕ ℕ) :=
  [(allOwned, .write 0 7 100), (allOwned, .releaseStalledSession 7)]

def laterWrite : List (Callbacks ℕ ℕ × Call ℕ ℕ) :=
  [(allOwned, .clear (some 0)), (allOwned, .write 1 7 (5 * 1024 * 1024))]

/-- The write of a cleared client, though not completed, does not keep a session released. -/
theorem stalledWrite_paused : ¬ ∀ (calls later : List (Callbacks ℕ ℕ × Call ℕ ℕ)) (sessionId : ℕ),
      sessionId ∈ ((World.start allOwned).run calls).backpressure.stallReleasedSessions →
        (∀ first, first <+: later → ∃ write ∈ (((World.start allOwned).run calls).run first).writes,
            write.sessionId = sessionId) →
          sessionId ∉ (((World.start allOwned).run calls).run
            later).backpressure.pausedSessions := by
  intro hclaim
  refine absurd (hclaim stalledWrite laterWrite 7 (by decide +kernel) fun first hfirst => ?_)
    (by decide +kernel)
  have hfirsts : ∀ first ∈ laterWrite.inits,
      ∃ write ∈ (((World.start allOwned).run stalledWrite).run first).writes,
        write.sessionId = 7 := by
    decide +kernel
  exact hfirsts first ((mem_inits first laterWrite).mpr hfirst)

end Wakii.StreamBackpressure
