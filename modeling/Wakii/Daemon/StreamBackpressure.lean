import Wakii.Library.OrderedMap

/-!
# Stream back-pressure

Held strings and socket writes are counted together.  Once too much is held a
session whose own share is large is paused, until its share or the whole is
small again.  A session released from a stall is not paused while it has
anything left.
-/

namespace Wakii.StreamBackpressure

open OrderedCollections

variable {C S : Type*} [DecidableEq C] [DecidableEq S]

def highWaterBytes : ℕ := 4 * 1024 * 1024
def lowWaterBytes : ℕ := 1024 * 1024
def sessionHighWaterBytes : ℕ := 64 * 1024
def sessionLowWaterBytes : ℕ := 32 * 1024

/-- What callbacks, requests and queue objects cost without any payload. -/
def streamEntryOverheadBytes : ℕ := 256

/-- A client's record; two records of one client are told apart by number. -/
structure ClientBacklog (S : Type*) where
  record : ℕ
  queuedChars : OrderedMap S ℕ
  queuedMetadataBytes : OrderedMap S ℕ
  pendingWriteBytes : OrderedMap S ℕ

structure Callbacks (C S : Type*) where
  isDroppable : S → Bool
  ownsSession : C → S → Bool

structure DaemonStreamBackpressure (C S : Type*) where
  clients : OrderedMap C (ClientBacklog S)
  pausedSessions : OrderedSet S
  stallReleasedSessions : OrderedSet S
  pressured : Bool
  records : ℕ
  setPausedCalls : List (S × Bool)

/-! ## Counting -/

structure Counts (S : Type*) where
  bytesBySession : OrderedMap S ℕ
  accountedSessions : OrderedSet S
  total : ℕ

def Counts.bytesOf (counts : Counts S) (sessionId : S) : ℕ :=
  (counts.bytesBySession.lookup sessionId).getD 0

def Counts.account (counts : Counts S) (sessionId : S) : Counts S :=
  { counts with accountedSessions := counts.accountedSessions.add sessionId }

def Counts.charge (callbacks : Callbacks C S) (clientId : C) (counts : Counts S) (sessionId : S)
    (bytes : ℕ) : Counts S :=
  { counts with
    total := counts.total + bytes
    bytesBySession :=
      if callbacks.ownsSession clientId sessionId then
        counts.bytesBySession.set sessionId (counts.bytesOf sessionId + bytes)
      else counts.bytesBySession }

def countQueued (callbacks : Callbacks C S) (clientId : C) (counts : Counts S) (entry : S × ℕ) :
    Counts S :=
  let counts := counts.account entry.1
  if callbacks.isDroppable entry.1 then counts
  else counts.charge callbacks clientId entry.1 (2 * entry.2)

def countBytes (callbacks : Callbacks C S) (clientId : C) (counts : Counts S) (entry : S × ℕ) :
    Counts S :=
  (counts.account entry.1).charge callbacks clientId entry.1 entry.2

def countClient (callbacks : Callbacks C S) (counts : Counts S) (client : C × ClientBacklog S) :
    Counts S :=
  let counts := client.2.queuedChars.pairs.foldl (countQueued callbacks client.1) counts
  let counts := client.2.queuedMetadataBytes.pairs.foldl (countBytes callbacks client.1) counts
  client.2.pendingWriteBytes.pairs.foldl (countBytes callbacks client.1) counts

def countClients (callbacks : Callbacks C S) (clients : OrderedMap C (ClientBacklog S)) :
    Counts S :=
  clients.pairs.foldl (countClient callbacks) ⟨∅, ∅, 0⟩

/-! ## Pausing -/

namespace DaemonStreamBackpressure

def setPaused (backpressure : DaemonStreamBackpressure C S) (sessionId : S) (paused : Bool) :
    DaemonStreamBackpressure C S :=
  { backpressure with
    pausedSessions :=
      if paused then backpressure.pausedSessions.add sessionId
      else backpressure.pausedSessions.erase sessionId
    setPausedCalls := backpressure.setPausedCalls ++ [(sessionId, paused)] }

/-- Between the two marks pressure stays as it was. -/
def setPressured (backpressure : DaemonStreamBackpressure C S) (total : ℕ) :
    DaemonStreamBackpressure C S :=
  { backpressure with
    pressured :=
      if highWaterBytes ≤ total then true
      else if total ≤ lowWaterBytes then false
      else backpressure.pressured }

def resumeSession (counts : Counts S) (backpressure : DaemonStreamBackpressure C S)
    (sessionId : S) : DaemonStreamBackpressure C S :=
  if !backpressure.pressured || counts.bytesOf sessionId ≤ sessionLowWaterBytes then
    backpressure.setPaused sessionId false
  else backpressure

/-- A session is told again that it is paused; its pause may have been lost since. -/
def pauseSession (backpressure : DaemonStreamBackpressure C S) (entry : S × ℕ) :
    DaemonStreamBackpressure C S :=
  if sessionHighWaterBytes ≤ entry.2 ∧ entry.1 ∉ backpressure.stallReleasedSessions then
    backpressure.setPaused entry.1 true
  else backpressure

def endStallRelease (counts : Counts S) (backpressure : DaemonStreamBackpressure C S)
    (sessionId : S) : DaemonStreamBackpressure C S :=
  if sessionId ∈ counts.accountedSessions then backpressure
  else { backpressure with
    stallReleasedSessions := backpressure.stallReleasedSessions.erase sessionId }

def refresh (callbacks : Callbacks C S) (backpressure : DaemonStreamBackpressure C S) :
    DaemonStreamBackpressure C S :=
  let counts := countClients callbacks backpressure.clients
  let pressed := backpressure.setPressured counts.total
  let resumed := pressed.pausedSessions.elems.foldl (resumeSession counts) pressed
  let paused :=
    if resumed.pressured then counts.bytesBySession.pairs.foldl pauseSession resumed else resumed
  paused.stallReleasedSessions.elems.foldl (endStallRelease counts) paused

def getOrCreateClient (backpressure : DaemonStreamBackpressure C S) (clientId : C) :
    ClientBacklog S × DaemonStreamBackpressure C S :=
  match backpressure.clients.lookup clientId with
  | some client => (client, backpressure)
  | none =>
    let client : ClientBacklog S := ⟨backpressure.records, ∅, ∅, ∅⟩
    (client, { backpressure with
      clients := backpressure.clients.set clientId client
      records := backpressure.records + 1 })

def pruneClient (backpressure : DaemonStreamBackpressure C S) (clientId : C)
    (client : ClientBacklog S) : DaemonStreamBackpressure C S :=
  { backpressure with
    clients :=
      if client.queuedChars.keys = [] ∧ client.queuedMetadataBytes.keys = [] ∧
          client.pendingWriteBytes.keys = [] then backpressure.clients.erase clientId
      else backpressure.clients.set clientId client }

def setQueued (callbacks : Callbacks C S) (backpressure : DaemonStreamBackpressure C S)
    (clientId : C) (queuedChars queuedMetadataBytes : OrderedMap S ℕ) :
    DaemonStreamBackpressure C S :=
  let (client, backpressure) := backpressure.getOrCreateClient clientId
  (backpressure.pruneClient clientId { client with queuedChars, queuedMetadataBytes }).refresh
    callbacks

def write (callbacks : Callbacks C S) (backpressure : DaemonStreamBackpressure C S)
    (clientId : C) (sessionId : S) (bytes : ℕ) : ClientBacklog S × DaemonStreamBackpressure C S :=
  let (client, backpressure) := backpressure.getOrCreateClient clientId
  let pending := (client.pendingWriteBytes.lookup sessionId).getD 0 + bytes
  let client := { client with pendingWriteBytes := client.pendingWriteBytes.set sessionId pending }
  (client, { backpressure with clients := backpressure.clients.set clientId client }.refresh
    callbacks)

def completeWrite (callbacks : Callbacks C S) (backpressure : DaemonStreamBackpressure C S)
    (clientId : C) (client : ClientBacklog S) (sessionId : S) (bytes : ℕ) :
    DaemonStreamBackpressure C S :=
  let pending := (client.pendingWriteBytes.lookup sessionId).getD 0
  let pendingWriteBytes :=
    if bytes < pending then client.pendingWriteBytes.set sessionId (pending - bytes)
    else client.pendingWriteBytes.erase sessionId
  (backpressure.pruneClient clientId { client with pendingWriteBytes }).refresh callbacks

/-- Lost contact does not prove that the child is gone; its output is dropped instead. -/
def releaseStalledSession (callbacks : Callbacks C S)
    (backpressure : DaemonStreamBackpressure C S) (sessionId : S) :
    DaemonStreamBackpressure C S :=
  let released := { backpressure with
    stallReleasedSessions := backpressure.stallReleasedSessions.add sessionId }
  (if sessionId ∈ released.pausedSessions then released.setPaused sessionId false
    else released).refresh callbacks

def clear (callbacks : Callbacks C S) (backpressure : DaemonStreamBackpressure C S)
    (clientId : Option C) : DaemonStreamBackpressure C S :=
  match clientId with
  | none => { backpressure with clients := ∅, stallReleasedSessions := ∅ }.refresh callbacks
  | some clientId =>
    { backpressure with clients := backpressure.clients.erase clientId }.refresh callbacks

end DaemonStreamBackpressure

/-! ## Runs -/

structure SocketWrite (C S : Type*) where
  clientId : C
  /-- The record its bytes were counted in. -/
  record : ℕ
  sessionId : S
  bytes : ℕ
  /-- Its client was cleared since. -/
  cleared : Bool
deriving DecidableEq

inductive Call (C S : Type*) where
  | setQueued (clientId : C) (queuedChars queuedMetadataBytes : OrderedMap S ℕ)
  | write (clientId : C) (sessionId : S) (lineBytes : ℕ)
  | complete (index : ℕ)
  | releaseStalledSession (sessionId : S)
  | clear (clientId : Option C)
  | refresh

structure World (C S : Type*) where
  backpressure : DaemonStreamBackpressure C S
  writes : List (SocketWrite C S)
  /-- The callbacks as the last refresh read them. -/
  callbacks : Callbacks C S

def World.start (callbacks : Callbacks C S) : World C S :=
  ⟨⟨∅, ∅, ∅, false, 0, []⟩, [], callbacks⟩

open DaemonStreamBackpressure in
/-- A disconnected client's completion must not debit the record that replaced its own. -/
def World.complete (world : World C S) (callbacks : Callbacks C S) (index : ℕ)
    (write : SocketWrite C S) : World C S :=
  let writes := world.writes.eraseIdx index
  match world.backpressure.clients.lookup write.clientId with
  | none => { world with writes }
  | some client =>
    if client.record = write.record then
      ⟨completeWrite callbacks world.backpressure write.clientId client write.sessionId
        write.bytes, writes, callbacks⟩
    else { world with writes }

open DaemonStreamBackpressure in
def World.step (world : World C S) (callbacks : Callbacks C S) : Call C S → World C S
  | .setQueued clientId queuedChars queuedMetadataBytes =>
    ⟨setQueued callbacks world.backpressure clientId queuedChars queuedMetadataBytes,
      world.writes, callbacks⟩
  | .write clientId sessionId lineBytes =>
    let bytes := lineBytes + streamEntryOverheadBytes
    let (client, backpressure) := write callbacks world.backpressure clientId sessionId bytes
    ⟨backpressure, world.writes ++ [⟨clientId, client.record, sessionId, bytes, false⟩], callbacks⟩
  | .complete index =>
    match world.writes[index]? with
    | none => world
    | some write => world.complete callbacks index write
  | .releaseStalledSession sessionId =>
    ⟨releaseStalledSession callbacks world.backpressure sessionId, world.writes, callbacks⟩
  | .clear clientId =>
    ⟨clear callbacks world.backpressure clientId, world.writes.map fun write =>
        if clientId = none ∨ clientId = some write.clientId then { write with cleared := true }
        else write, callbacks⟩
  | .refresh => ⟨world.backpressure.refresh callbacks, world.writes, callbacks⟩

def World.run (world : World C S) (calls : List (Callbacks C S × Call C S)) : World C S :=
  calls.foldl (fun world call => world.step call.1 call.2) world

end Wakii.StreamBackpressure
