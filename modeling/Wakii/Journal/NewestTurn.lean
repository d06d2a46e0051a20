import Wakii.Journal.ItemIds
import Wakii.Library.AvlTree
import Wakii.Library.LinkCounts

/-!
# The newest turn of a journal

Every turn and context clear sits in a tree ordered by creation, so each row
updates only the sources it touches.  A failure row links the turn it reports
on, whether or not that turn has arrived.
-/

namespace Wakii.NewestTurn

open Option OrderedCollections SearchTrees Std
open Wakii.ItemKey Wakii.JournalRows Wakii.Reducer

structure BodyRest (Q : Type) where
  outcome : Option String
  failureKind : Option String
  tone : Option String
  rest : Q
deriving DecidableEq

variable {Q : Type}

abbrev RenderItem (Q : Type) := AgentJournalRenderItem (BodyRest Q)

/-- A turn or context clear, with the row where it first became a holding
failure (zero while it is not one).  A command that failed on its own terms is
not `relevant`. -/
structure TurnSource (Q : Type) where
  item : RenderItem Q
  failedAt : ℤ
  /-- How far a reconstruction has proved the chronology of the failure. -/
  witnessedThrough : Option ℤ
  ordinary : Bool
  relevant : Bool
deriving DecidableEq

/-- What a subtree caches: its newest source, ordinary turn or clear, and
relevant source. -/
structure NewestSources (Q : Type) where
  latest : Option (TurnSource Q)
  anchor : Option (TurnSource Q)
  winner : Option (TurnSource Q)

/-- The newest of each kind, the right side first. -/
instance : Monoid (NewestSources Q) where
  mul left right :=
    { latest := right.latest.or left.latest
      anchor := right.anchor.or left.anchor
      winner := right.winner.or left.winner }
  one := { latest := none, anchor := none, winner := none }
  mul_assoc one two three := by
    change NewestSources.mk _ _ _ = NewestSources.mk _ _ _
    simp only [NewestSources.mk.injEq]
    exact ⟨or_assoc.symm, or_assoc.symm, or_assoc.symm⟩
  one_mul sources := by
    obtain ⟨latest, anchor, winner⟩ := sources
    change NewestSources.mk (latest.or none) (anchor.or none) (winner.or none) = _
    rw [or_none, or_none, or_none]
  mul_one sources := by
    obtain ⟨latest, anchor, winner⟩ := sources
    change NewestSources.mk ((none : Option (TurnSource Q)).or latest)
      ((none : Option (TurnSource Q)).or anchor)
      ((none : Option (TurnSource Q)).or winner) = _
    rw [none_or, none_or, none_or]

def TurnSource.summary (source : TurnSource Q) : NewestSources Q where
  latest := some source
  anchor := if source.ordinary then some source else none
  winner := if source.relevant then some source else none

abbrev TurnSourceNode (Q : Type) := AvlTree (TurnSource Q) (NewestSources Q)

section Order

-- How the host's language orders two item ids.
variable (localeCompare : String → String → Ordering)

def compareTurnItems : RenderItem Q → RenderItem Q → Ordering :=
  compareLex (compareOn AgentJournalRenderItem.sequence)
    (compareLex (compareOn fun item => item.sequenceIndex.getD 0)
      fun item other => localeCompare item.itemId other.itemId)

def compareTurnSources (source other : TurnSource Q) : Ordering :=
  compareTurnItems localeCompare source.item other.item

def putTurnSource (node : TurnSourceNode Q) (source : TurnSource Q) (remove : Bool) :
    TurnSourceNode Q :=
  AvlTree.put TurnSource.summary (compareTurnSources localeCompare) node source remove

end Order

/-! ## What a row says of turns -/

def isTurnOrClear (item : RenderItem Q) : Bool :=
  (readAgentJournalTurn (some item.body)).isSome || isAgentSessionContextClear (some item.body)

def settledFailure (item : RenderItem Q) : Bool :=
  match readAgentJournalTurn (some item.body) with
  | none => false
  | some turn => turn.state ≠ .running && turn.rest.outcome = some "failure"

def isStructuredAgentSessionCommandTurnId (turnId : String) : Bool :=
  "compact:".toList.isPrefixOf turnId.toList

def isCommand (item : RenderItem Q) : Bool :=
  match readAgentJournalTurn (some item.body) with
  | none => false
  | some turn => turn.turnId ≠ "" && isStructuredAgentSessionCommandTurnId turn.turnId

/-- A command's own verdict, and a retry still under way. -/
def notReports : List String :=
  ["compactionFailed", "compactionUnconfirmed", "commandRefused", "providerRetrying"]

def isRootAgentJournalItem (item : RenderItem Q) : Bool := item.linkage.agentId.isNone

def reportsFailure (item : RenderItem Q) : Bool :=
  match item.body with
  | .status status =>
    isRootAgentJournalItem item &&
      match status.rest.failureKind with
      | some kind => kind ∉ notReports
      | none => status.rest.tone = some "error"
  | _ => false

def isCommandResult (safeOrdinal : String → Option ℕ) (itemId : String) : Bool :=
  match parseAgentJournalItemKey safeOrdinal itemId with
  | some (.orca clientMessageId) =>
    "command-result:".toList.isPrefixOf clientMessageId.toList
  | _ => false

def reportedTurn (safeOrdinal : String → Option ℕ) (aliases : OrderedMap String String)
    (item : RenderItem Q) : Option String :=
  match item.turnScope with
  | some (.turn turnItemId) =>
    if reportsFailure item && !isCommandResult safeOrdinal item.itemId then
      some ((aliases.lookup turnItemId).getD turnItemId)
    else none
  | _ => none

/-! ## The index -/

structure JournalNewestTurn (Q : Type) where
  root : TurnSourceNode Q := .nil
  sources : OrderedMap String (TurnSource Q) := ∅
  /-- Agent failure rows and the turn each reports on. -/
  evidence : OrderedMap String String := ∅
  reports : OrderedMap String ℤ := ∅
  boundary : ℤ

namespace JournalNewestTurn

def bump (counted : OrderedMap String ℤ × OrderedSet String) (target : Option String)
    (step : ℤ) : OrderedMap String ℤ × OrderedSet String :=
  match target with
  | none => counted
  | some target =>
    let count := (counted.1.lookup target).getD 0 + step
    (if count > 0 then counted.1.set target count else counted.1.erase target,
      counted.2.add target)

def index (safeOrdinal : String → Option ℕ) (aliases : OrderedMap String String)
    (newest : JournalNewestTurn Q) (touched : OrderedSet String) (itemId : String)
    (item : Option (RenderItem Q)) : JournalNewestTurn Q × OrderedSet String :=
  let turn := item.bind (reportedTurn safeOrdinal aliases)
  let prior := newest.evidence.lookup itemId
  if turn = prior then (newest, touched)
  else
    let counted := bump (bump (newest.reports, touched) prior (-1)) turn 1
    let evidence :=
      match turn with
      | none => newest.evidence.erase itemId
      | some target => newest.evidence.set itemId target
    ({ newest with evidence, reports := counted.1 }, counted.2)

section Updates

variable [DecidableEq Q] (localeCompare : String → String → Ordering)

/-- The source of a turn or clear.  The first failure position is kept across
revisions of the same failure; leaving failure clears it. -/
def sourceOf (newest : JournalNewestTurn Q) (item : RenderItem Q) (row : ℤ) : TurnSource Q :=
  let prior := newest.sources.lookup item.itemId
  let priorFailedAt := (prior.map TurnSource.failedAt).getD 0
  let command := isCommand item
  let failed := settledFailure item
  let reported : Bool := (newest.reports.lookup item.itemId).getD 0 > 0
  { item
    failedAt :=
      if failed && (!command || reported) then
        if priorFailedAt ≠ 0 then priorFailedAt else row
      else 0
    witnessedThrough :=
      match prior with
      | none => none
      | some prior =>
        if failed && prior.failedAt ≠ 0 && prior.item.body = item.body then
          prior.witnessedThrough
        else none
    ordinary := !command
    relevant := !command || !failed || reported }

def restates (source prior : TurnSource Q) : Bool :=
  prior.item = source.item && prior.failedAt = source.failedAt &&
    prior.ordinary = source.ordinary && prior.relevant = source.relevant

/-- Takes the prior source out of the tree when the new one stands elsewhere. -/
def displace (root : TurnSourceNode Q) (source : TurnSource Q) :
    Option (TurnSource Q) → TurnSourceNode Q
  | none => root
  | some prior =>
    if compareTurnSources localeCompare prior source ≠ .eq then
      putTurnSource localeCompare root prior true
    else root

def place (newest : JournalNewestTurn Q) (item : Option (RenderItem Q)) (row : ℤ) :
    JournalNewestTurn Q :=
  match item with
  | none => newest
  | some item =>
    if !isTurnOrClear item then newest
    else
      let prior := newest.sources.lookup item.itemId
      let source := newest.sourceOf item row
      if prior.any (restates source) then newest
      else
        { newest with
          sources := newest.sources.set item.itemId source
          root := putTurnSource localeCompare
            (displace localeCompare newest.root source prior) source false }

/-- Removing a source at or after the newest ordinary turn or clear exposes what
lies beneath. -/
def forget (newest : JournalNewestTurn Q) (itemId : String) (item : Option (RenderItem Q))
    (row : ℤ) : JournalNewestTurn Q :=
  match newest.sources.lookup itemId with
  | none => newest
  | some prior =>
    if item.any isTurnOrClear then newest
    else
      { newest with
        boundary :=
          match newest.root.result.anchor with
          | none => row
          | some anchor =>
            if (compareTurnSources localeCompare prior anchor).isGE then row
            else newest.boundary
        sources := newest.sources.erase itemId
        root := putTurnSource localeCompare newest.root prior true }

def rowItemIds (row : JournalRow (BodyRest Q)) : List String :=
  match row.content with
  | .item write => [write.itemId]
  | .tombstone tombstone => [tombstone.itemId]
  | .lifecycleBatch _ mutations => mutations.map mutationItemId
  | _ => []

def noteItem (safeOrdinal : String → Option ℕ) (state : JournalReducerState (BodyRest Q))
    (row : ℤ) (noted : JournalNewestTurn Q × OrderedSet String) (raw : String) :
    JournalNewestTurn Q × OrderedSet String :=
  let itemId := resolveItemId state raw
  let item := state.items.lookup itemId
  let newest := noted.1.forget localeCompare itemId item row
  let (newest, touched) := index safeOrdinal state.aliases newest noted.2 itemId item
  (newest, if item.any isTurnOrClear then touched.add itemId else touched)

def placeAll (state : JournalReducerState (BodyRest Q)) (row : ℤ)
    (newest : JournalNewestTurn Q) (touched : List String) : JournalNewestTurn Q :=
  touched.foldl (fun newest itemId =>
    newest.place localeCompare (state.items.lookup itemId) row) newest

def afterRow (safeOrdinal : String → Option ℕ) (newest : JournalNewestTurn Q)
    (state : JournalReducerState (BodyRest Q)) (row : JournalRow (BodyRest Q)) :
    JournalNewestTurn Q :=
  let noted := (rowItemIds row).foldl (noteItem localeCompare safeOrdinal state row.base.seq)
    (newest, ∅)
  noted.1.placeAll localeCompare state row.base.seq noted.2.elems

/-- Only on restore; streamed rows never rescan conversation history. -/
def ofState (safeOrdinal : String → Option ℕ) (state : JournalReducerState (BodyRest Q)) :
    JournalNewestTurn Q :=
  let created : JournalNewestTurn Q := { boundary := state.lastSequence }
  let items := state.items.values
  let indexed := items.foldl (fun noted item =>
    index safeOrdinal state.aliases noted.1 noted.2 item.itemId (some item)) (created, ∅)
  (items.filter isTurnOrClear).foldl (fun newest item =>
    newest.place localeCompare (some item) state.lastSequence) indexed.1

end Updates

def read (newest : JournalNewestTurn Q) : Option (RenderItem Q) :=
  newest.root.result.latest.map TurnSource.item

/-- Releasing marks must be written after this position. -/
def failure (newest : JournalNewestTurn Q) : ℤ :=
  match newest.root.result.winner with
  | none => 0
  | some winner =>
    if winner.failedAt = 0 then 0
    else
      max winner.failedAt
        (if newest.boundary > winner.witnessedThrough.getD 0 then newest.boundary else 0)

end JournalNewestTurn

section Runs

variable [DecidableEq Q] (localeCompare : String → String → Ordering)
  (runtime : JournalRuntime (BodyRest Q))

structure IndexedJournal (Q : Type) where
  state : JournalReducerState (BodyRest Q)
  newest : JournalNewestTurn Q

def IndexedJournal.create (sessionId epoch : String) : IndexedJournal Q :=
  let state := createJournalReducerState sessionId epoch
  { state, newest := .ofState localeCompare runtime.safeOrdinal state }

def IndexedJournal.apply (journal : IndexedJournal Q) (row : JournalRow (BodyRest Q)) :
    IndexedJournal Q :=
  let state := applyJournalRow runtime journal.state row
  { state, newest := journal.newest.afterRow localeCompare runtime.safeOrdinal state row }

def IndexedJournal.fold (sessionId epoch : String) (rows : List (JournalRow (BodyRest Q))) :
    IndexedJournal Q :=
  rows.foldl (IndexedJournal.apply localeCompare runtime)
    (IndexedJournal.create localeCompare runtime sessionId epoch)

end Runs

end Wakii.NewestTurn
