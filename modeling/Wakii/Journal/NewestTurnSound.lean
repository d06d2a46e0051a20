import Wakii.Journal.NewestTurnRuns

/-!
# The newest turn agrees with a rescan

What an index that tracks a journal answers is read off the turns and clears in
their order, so any two that track one journal agree on which turn decides.
-/

namespace Wakii.NewestTurn

open List OrderedCollections SearchTrees Std OrderedMap
open Wakii.ItemIds Wakii.JournalRows Wakii.Reducer

variable {Q : Type} {localeCompare : String → String → Ordering} {known : RenderItem Q → Prop}

def sortedTurns (localeCompare : String → String → Ordering)
    (state : JournalReducerState (BodyRest Q)) : List (RenderItem Q) :=
  (state.items.values.filter isTurnOrClear).insertionSort fun item other =>
    (compareTurnItems localeCompare item other).isLE

def decidingTurn (localeCompare : String → String → Ordering)
    (safeOrdinal : String → Option ℕ) (state : JournalReducerState (BodyRest Q)) :
    Option (RenderItem Q) :=
  ((sortedTurns localeCompare state).filter (isRelevant safeOrdinal state)).getLast?

variable {state : JournalReducerState (BodyRest Q)}

theorem mem_sortedTurns (hkeyed : KeyedItems state) {item : RenderItem Q} :
    item ∈ sortedTurns localeCompare state ↔ turnAt state item.itemId = some item := by
  rw [sortedTurns, (perm_insertionSort _ _).mem_iff, mem_filter,
    mem_values, turnAt, Option.filter_eq_some_iff]
  refine and_congr_left fun _ => ⟨?_, fun hlookup => ⟨item.itemId, hlookup⟩⟩
  rintro ⟨itemId, hlookup⟩
  rw [hkeyed itemId item hlookup]
  exact hlookup

theorem ordered_sortedTurns [TransCmp localeCompare] (hkeyed : KeyedItems state)
    (hapart : TellsApart localeCompare fun item => turnAt state item.itemId = some item) :
    AvlTree.Ordered (compareTurnItems localeCompare) (sortedTurns localeCompare state) := by
  have hkeys : state.items.values.map AgentJournalRenderItem.itemId = state.items.keys := by
    rw [OrderedMap.values, map_map, AList.keys, List.keys]
    exact map_congr_left fun pair hpair =>
      hkeyed pair.1 pair.2 (mem_entries.mp hpair)
  have hnodup : (state.items.values.map AgentJournalRenderItem.itemId).Nodup :=
    hkeys ▸ state.items.keys_nodup
  refine AvlTree.ordered_insertionSort
    (((pairwise_map.mp hnodup).filter _).imp_of_mem fun hitem hother hne heq => hne ?_)
  have hturn : ∀ item ∈ state.items.values.filter isTurnOrClear,
      turnAt state item.itemId = some item := by
    intro item hitem
    refine (mem_sortedTurns hkeyed).mp (?_ : item ∈ sortedTurns localeCompare state)
    exact (perm_insertionSort _ _).mem_iff.mpr hitem
  exact hapart _ _ (hturn _ hitem) (hturn _ hother) heq

/-! ## What the tree caches -/

theorem latest_total (sources : List (TurnSource Q)) :
    (AvlTree.total TurnSource.summary sources).latest = sources.getLast? := by
  induction sources using List.reverseRecOn with
  | nil => rfl
  | append_singleton sources source _ =>
    rw [AvlTree.total_append, getLast?_concat]
    rfl

theorem winner_total (sources : List (TurnSource Q)) :
    (AvlTree.total TurnSource.summary sources).winner =
      (sources.filter TurnSource.relevant).getLast? := by
  induction sources using List.reverseRecOn with
  | nil => rfl
  | append_singleton sources source ih =>
    rw [AvlTree.total_append, filter_append, getLast?_append, ← ih,
      AvlTree.total_cons, AvlTree.total_nil, mul_one]
    change source.summary.winner.or _ = _
    cases hrelevant : source.relevant <;> simp [TurnSource.summary, hrelevant]

namespace Tracks

variable {safeOrdinal : String → Option ℕ} {newest : JournalNewestTurn Q}
  {state : JournalReducerState (BodyRest Q)}

section

variable (htracks : Tracks localeCompare known safeOrdinal newest state)
include htracks

/-- A recorded source judged by what the journal itself says. -/
theorem judged {source : TurnSource Q} (hsource : source ∈ newest.root.toList) :
    source.relevant = isRelevant safeOrdinal state source.item ∧
      (source.failedAt ≠ 0 ↔ isHolding safeOrdinal state source.item = true) := by
  have hlookup := (htracks.consistent.mem source).mp hsource
  obtain ⟨hrelevant, -, hfailed⟩ := (htracks.settled _).judged source hlookup
  have hreported : decide (0 < linkCount newest.evidence source.item.itemId) =
      isReported safeOrdinal state source.item.itemId := by
    rw [Bool.eq_iff_iff, decide_eq_true_iff, linkCount_pos, isReported_iff]
    exact exists_congr fun other => by rw [htracks.evidence]
  rw [hreported] at hrelevant hfailed
  exact ⟨hrelevant, hfailed⟩

theorem mem_of_winner {winner : TurnSource Q} (hwinner : newest.root.result.winner = some winner) :
    winner ∈ newest.root.toList := by
  rw [htracks.consistent.sound.summed.result_eq, winner_total] at hwinner
  exact mem_of_mem_filter (mem_of_getLast? hwinner)

theorem winner_bounds {winner : TurnSource Q} (hwinner : newest.root.result.winner = some winner) :
    0 ≤ winner.failedAt ∧ winner.failedAt ≤ state.lastSequence ∧ winner.witnessedThrough = none :=
  htracks.bounded.sources _ winner
    ((htracks.consistent.mem winner).mp (htracks.mem_of_winner hwinner))

theorem failure_le (hlast : 0 ≤ state.lastSequence) : newest.failure ≤ state.lastSequence := by
  rw [JournalNewestTurn.failure]
  cases hwinner : newest.root.result.winner with
  | none => exact hlast
  | some winner =>
    obtain ⟨-, hhigh, -⟩ := htracks.winner_bounds hwinner
    have hboundary := htracks.bounded.boundary
    dsimp only
    split_ifs
    · exact hlast
    · exact max_le hhigh hboundary
    · exact max_le hhigh hlast

/-- An index whose boundary is the last row reports a failure there. -/
theorem failure_eq_last
    (hboundary : newest.boundary = state.lastSequence) (hfailure : newest.failure ≠ 0) :
    newest.failure = state.lastSequence := by
  rw [JournalNewestTurn.failure] at hfailure ⊢
  cases hwinner : newest.root.result.winner with
  | none =>
    rw [hwinner] at hfailure
    exact absurd rfl hfailure
  | some winner =>
    obtain ⟨hlow, hhigh, hwitness⟩ := htracks.winner_bounds hwinner
    rw [hwinner] at hfailure
    dsimp only at hfailure ⊢
    rw [hwitness, hboundary, Option.getD_none] at hfailure ⊢
    split_ifs at hfailure ⊢ with hzero hpositive
    · exact absurd rfl hfailure
    · exact max_eq_right hhigh
    · omega

variable [TransCmp localeCompare]

omit [TransCmp localeCompare] in
theorem apart : TellsApart localeCompare fun item => turnAt state item.itemId = some item := by
  have hknown : ∀ item, turnAt state item.itemId = some item → known item := by
    intro item hturn
    have hsource := (htracks.settled item.itemId).item
    rw [hturn] at hsource
    obtain ⟨source, hlookup, rfl⟩ := Option.map_eq_some_iff.mp hsource
    exact htracks.consistent.known _ source hlookup
  exact fun item other hitem hother =>
    htracks.consistent.apart item other (hknown item hitem) (hknown other hother)

theorem map_item_toList (hkeyed : KeyedItems state) :
    newest.root.toList.map TurnSource.item = sortedTurns localeCompare state := by
  have hordered : AvlTree.Ordered (compareTurnItems localeCompare)
      (newest.root.toList.map TurnSource.item) :=
    pairwise_map.mpr htracks.consistent.ordered
  refine hordered.eq_of_mem_iff (ordered_sortedTurns hkeyed htracks.apart) fun item => ?_
  rw [mem_sortedTurns hkeyed, mem_map, ← (htracks.settled item.itemId).item, Option.map_eq_some_iff]
  constructor
  · rintro ⟨source, hsource, rfl⟩
    exact ⟨source, (htracks.consistent.mem source).mp hsource, rfl⟩
  · rintro ⟨source, hsource, heq⟩
    refine ⟨source, (htracks.consistent.mem source).mpr ?_, heq⟩
    rw [heq]
    exact hsource

theorem read_eq (hkeyed : KeyedItems state) :
    newest.read = (sortedTurns localeCompare state).getLast? := by
  rw [JournalNewestTurn.read, htracks.consistent.sound.summed.result_eq, latest_total,
    ← htracks.map_item_toList hkeyed, getLast?_map]

theorem winner_eq (hkeyed : KeyedItems state) : newest.root.result.winner.map TurnSource.item =
      decidingTurn localeCompare safeOrdinal state := by
  have hfilter : newest.root.toList.filter TurnSource.relevant =
      newest.root.toList.filter (isRelevant safeOrdinal state ∘ TurnSource.item) :=
    filter_congr fun source hsource => (htracks.judged hsource).1
  rw [htracks.consistent.sound.summed.result_eq, winner_total, decidingTurn,
    ← htracks.map_item_toList hkeyed, filter_map, hfilter, getLast?_map]

/-- The queue is held by a failure exactly when the deciding turn is one. -/
theorem failure_ne_zero_iff (hkeyed : KeyedItems state) : newest.failure ≠ 0 ↔
      ∃ item, decidingTurn localeCompare safeOrdinal state = some item ∧
        isHolding safeOrdinal state item = true := by
  rw [← htracks.winner_eq hkeyed, JournalNewestTurn.failure]
  cases hwinner : newest.root.result.winner with
  | none => exact iff_of_false (fun hzero => hzero rfl) (by rintro ⟨item, hitem, -⟩; simp at hitem)
  | some winner =>
    have hjudged := (htracks.judged (htracks.mem_of_winner hwinner)).2
    obtain ⟨hlow, -, -⟩ := htracks.winner_bounds hwinner
    have hholding : (∃ item, (some winner).map TurnSource.item = some item ∧
        isHolding safeOrdinal state item = true) ↔ winner.failedAt ≠ 0 := by
      rw [hjudged]
      simp
    rw [hholding]
    dsimp only
    by_cases hzero : winner.failedAt = 0
    · rw [if_pos hzero]
      exact iff_of_false (fun hne => hne rfl) fun hne => hne hzero
    · rw [if_neg hzero]
      refine iff_of_true ?_ hzero
      have hpositive := le_max_left winner.failedAt
        (if newest.boundary > winner.witnessedThrough.getD 0 then newest.boundary else 0)
      omega

end

end Tracks

/-! ## Logs of rows -/

section Runs

variable {safeOrdinal : String → Option ℕ} {newest : JournalNewestTurn Q}
  {state next : JournalReducerState (BodyRest Q)} {row : JournalRow (BodyRest Q)}

/-- Midway through the items of a rescan: those so far are linked, and no source is placed. -/
structure Rescanning (localeCompare : String → String → Ordering)
    (known : RenderItem Q → Prop) (safeOrdinal : String → Option ℕ)
      (state : JournalReducerState (BodyRest Q))
    (rest : List String) (newest : JournalNewestTurn Q) : Prop where
  consistent : Consistent localeCompare known newest
  sources : newest.sources = ∅
  boundary : newest.boundary = state.lastSequence
  evidence : ∀ itemId, itemId ∉ rest →
    newest.evidence.lookup itemId = reportAt safeOrdinal state itemId

theorem Rescanning.all (items : List (RenderItem Q))
    (hitems : ∀ item ∈ items, state.items.lookup item.itemId = some item)
    (noted : JournalNewestTurn Q × OrderedSet String)
    (hrescanning : Rescanning localeCompare known safeOrdinal state
      (items.map AgentJournalRenderItem.itemId) noted.1) :
    Rescanning localeCompare known safeOrdinal state []
      (items.foldl (fun noted item => JournalNewestTurn.index safeOrdinal state.aliases noted.1
        noted.2 item.itemId (some item)) noted).1 := by
  induction items generalizing noted with
  | nil => exact hrescanning
  | cons item items ih =>
    refine ih (fun other hother => hitems other (mem_cons_of_mem _ hother)) _ ?_
    have hrelinked := relinked_index safeOrdinal state.aliases noted.2 item.itemId
      (some item) hrescanning.consistent.counts
    refine ⟨hrescanning.consistent.relinked hrelinked, hrelinked.sources.trans hrescanning.sources,
      hrelinked.boundary.trans hrescanning.boundary, fun itemId hitemId => ?_⟩
    rw [hrelinked.evidence]
    split_ifs with hself
    · rw [hself, reportAt, hitems item mem_cons_self]
    · refine hrescanning.evidence itemId fun hmem => ?_
      rcases mem_cons.mp hmem with hhead | htail
      · exact hself hhead
      · exact hitemId htail

variable [DecidableEq Q]

theorem boundary_place (newest : JournalNewestTurn Q) (item : Option (RenderItem Q)) (row : ℤ) :
    (newest.place localeCompare item row).boundary = newest.boundary := by
  unfold JournalNewestTurn.place
  cases item with
  | none => rfl
  | some item =>
    dsimp only
    split_ifs <;> rfl

theorem boundary_placeAll (newest : JournalNewestTurn Q) (row : ℤ) (touched : List String) :
    (newest.placeAll localeCompare state row touched).boundary = newest.boundary := by
  unfold JournalNewestTurn.placeAll
  induction touched generalizing newest with
  | nil => rfl
  | cons itemId touched ih =>
    rw [foldl_cons, ih, boundary_place]

variable [TransCmp localeCompare]

/-- One row keeps the index tracking its journal. -/
theorem Tracks.afterRow (htracks : Tracks localeCompare known safeOrdinal newest state)
    (honly : OnlyNamed safeOrdinal state next row) (hkeyed : KeyedItems next)
    (hfirst : 1 ≤ row.base.seq) (hrow : row.base.seq ≤ next.lastSequence)
    (hlast : state.lastSequence ≤ next.lastSequence)
    (hknown : ∀ itemId item, turnAt next itemId = some item → known item) :
    Tracks localeCompare known safeOrdinal
      (newest.afterRow localeCompare safeOrdinal next row) next := by
  have hbounded : Bounded newest next.lastSequence :=
    { sources := fun itemId source hsource => by
        obtain ⟨hlow, hhigh, hwitness⟩ := htracks.bounded.sources itemId source hsource
        exact ⟨hlow, hhigh.trans hlast, hwitness⟩
      boundary := htracks.bounded.boundary.trans hlast }
  have hsettled : ∀ itemId, itemId ∉ namedItems next row → Settled newest next itemId :=
    fun itemId hitemId =>
      ⟨by rw [honly.turns itemId hitemId, (htracks.settled itemId).item],
        (htracks.settled itemId).judged⟩
  have hstart : Noting localeCompare known safeOrdinal next (namedItems next row) (newest, ∅) :=
    { consistent := htracks.consistent
      bounded := hbounded
      evidence := fun itemId hitemId => by
        rw [honly.reports itemId hitemId, htracks.evidence]
      settled := fun itemId hitemId _ => hsettled itemId hitemId
      removed := fun itemId hitemId hnone => (hsettled itemId hitemId).removed hnone }
  have hnoted := hstart.all hrow (JournalNewestTurn.rowItemIds row)
  rw [JournalNewestTurn.afterRow]
  refine Placing.all hkeyed hknown _ (fun _ => ⟨hfirst, hrow⟩) ?_
  exact
    { consistent := hnoted.consistent
      bounded := hnoted.bounded
      evidence := fun itemId => hnoted.evidence itemId not_mem_nil
      settled := fun itemId hitemId => hnoted.settled itemId not_mem_nil hitemId
      removed := fun itemId hnone => hnoted.removed itemId not_mem_nil hnone }

/-- A rescan tracks the journal, with its boundary at the last row. -/
theorem tracks_ofState (hkeyed : KeyedItems state)
    (hfirst : state.items.values ≠ [] → 1 ≤ state.lastSequence)
    (hapart : TellsApart localeCompare known)
    (hknown : ∀ itemId item, turnAt state itemId = some item → known item) :
    Tracks localeCompare known safeOrdinal
        (JournalNewestTurn.ofState localeCompare safeOrdinal state) state ∧
      (JournalNewestTurn.ofState localeCompare safeOrdinal state).boundary =
        state.lastSequence := by
  have hvalues : ∀ item ∈ state.items.values, state.items.lookup item.itemId = some item := by
    intro item hitem
    obtain ⟨itemId, hlookup⟩ := mem_values.mp hitem
    rw [hkeyed itemId item hlookup]
    exact hlookup
  have hstart : Rescanning localeCompare known safeOrdinal state
      (state.items.values.map AgentJournalRenderItem.itemId)
      ({ boundary := state.lastSequence } : JournalNewestTurn Q) :=
    { consistent :=
        { apart := hapart
          known := fun itemId source hsource => by simp at hsource
          sound := ⟨trivial, trivial⟩
          ordered := List.Pairwise.nil
          mem := fun source => iff_of_false not_mem_nil (by simp)
          keyed := fun itemId source hsource => by simp at hsource
          counts := fun target => rfl }
      sources := rfl
      boundary := rfl
      evidence := fun itemId hitemId => by
        cases hlookup : state.items.lookup itemId with
        | none => rw [reportAt, hlookup]; rfl
        | some item =>
          refine absurd (mem_map.mpr ⟨item, ?_, hkeyed itemId item hlookup⟩) hitemId
          exact mem_values.mpr ⟨itemId, hlookup⟩ }
  have hscanned := Rescanning.all state.items.values hvalues
    (({ boundary := state.lastSequence } : JournalNewestTurn Q), ∅) hstart
  rw [JournalNewestTurn.ofState]
  generalize (state.items.values.foldl (fun noted item =>
    JournalNewestTurn.index safeOrdinal state.aliases noted.1 noted.2 item.itemId (some item))
    (({ boundary := state.lastSequence } : JournalNewestTurn Q), ∅)).1 = indexed at hscanned ⊢
  have hplaces : (state.items.values.filter isTurnOrClear).foldl (fun newest item =>
      newest.place localeCompare (some item) state.lastSequence) indexed =
        indexed.placeAll localeCompare state state.lastSequence
          ((state.items.values.filter isTurnOrClear).map AgentJournalRenderItem.itemId) := by
    rw [JournalNewestTurn.placeAll, foldl_map]
    refine foldl_ext _ _ _ fun newest item hitem => ?_
    rw [hvalues item (mem_of_mem_filter hitem)]
  rw [hplaces]
  have hplacing : Placing localeCompare known safeOrdinal state
      ((state.items.values.filter isTurnOrClear).map AgentJournalRenderItem.itemId) indexed := by
    have hnone : ∀ itemId, indexed.sources.lookup itemId = none := fun itemId => by
      rw [hscanned.sources, AList.lookup_empty]
    refine ⟨hscanned.consistent, ⟨fun itemId source hsource => ?_, hscanned.boundary.le⟩,
      fun itemId => hscanned.evidence itemId not_mem_nil, fun itemId hitemId => ?_,
      fun itemId _ => hnone itemId⟩
    · rw [hnone] at hsource
      cases hsource
    · refine .of_removed (hnone itemId) ?_
      by_contra hturn
      obtain ⟨item, hitem⟩ := Option.ne_none_iff_exists'.mp hturn
      obtain ⟨hlookup, hkind⟩ := Option.filter_eq_some_iff.mp hitem
      refine hitemId (mem_map.mpr ⟨item, mem_filter.mpr ⟨?_, hkind⟩, hkeyed itemId item hlookup⟩)
      exact mem_values.mpr ⟨itemId, hlookup⟩
  refine ⟨hplacing.all hkeyed hknown _ fun hturns => ⟨hfirst fun hempty => hturns ?_, le_rfl⟩, ?_⟩
  · rw [hempty]
    rfl
  · rw [boundary_placeAll, hscanned.boundary]

end Runs

/-! ## The index agrees with a rescan -/

/-- What the index and a rescan agree on: the newest turn or clear, whether a
failure holds the queue, and a position no later than the rescan's. -/
structure Agrees (localeCompare : String → String → Ordering)
    (safeOrdinal : String → Option ℕ) [DecidableEq Q] (journal : IndexedJournal Q) : Prop where
  read : journal.newest.read = (sortedTurns localeCompare journal.state).getLast?
  failure_eq_zero_iff : journal.newest.failure = 0 ↔
    (JournalNewestTurn.ofState localeCompare safeOrdinal journal.state).failure = 0
  failure_le : journal.newest.failure ≤
    (JournalNewestTurn.ofState localeCompare safeOrdinal journal.state).failure

section Logs

variable [DecidableEq Q] (runtime : JournalRuntime (BodyRest Q)) (sessionId epoch : String)

/-- Every row of a log changes turns, clears and reports only of the items it names. -/
def OnlyNamedRows (rows : List (JournalRow (BodyRest Q))) : Prop :=
  ∀ before row after, rows = before ++ row :: after →
    OnlyNamed runtime.safeOrdinal (replay runtime sessionId epoch before)
      (replay runtime sessionId epoch (before ++ [row])) row

theorem fold_concat (localeCompare : String → String → Ordering)
    (rows : List (JournalRow (BodyRest Q))) (row : JournalRow (BodyRest Q)) :
    IndexedJournal.fold localeCompare runtime sessionId epoch (rows ++ [row]) =
      (IndexedJournal.fold localeCompare runtime sessionId epoch rows).apply localeCompare
        runtime row := by
  rw [IndexedJournal.fold, foldl_append]
  rfl

theorem state_fold (localeCompare : String → String → Ordering)
    (rows : List (JournalRow (BodyRest Q))) :
    (IndexedJournal.fold localeCompare runtime sessionId epoch rows).state =
      replay runtime sessionId epoch rows := by
  induction rows using List.reverseRecOn with
  | nil => rfl
  | append_singleton rows row ih =>
    rw [fold_concat, replay_concat, ← ih]
    rfl

omit [DecidableEq Q] in
theorem keyedItems_replay (rows : List (JournalRow (BodyRest Q))) :
    KeyedItems (replay runtime sessionId epoch rows) := by
  induction rows using List.reverseRecOn with
  | nil => exact fun itemId item hitem => by simp [replay, createJournalReducerState] at hitem
  | append_singleton rows row ih =>
    rw [replay_concat]
    exact ih.applyJournalRow runtime row

variable {rows : List (JournalRow (BodyRest Q))}

omit [DecidableEq Q] in
theorem lastSequence_replay (hseq : ∀ row ∈ rows, 1 ≤ row.base.seq) :
    0 ≤ (replay runtime sessionId epoch rows).lastSequence ∧
      ((replay runtime sessionId epoch rows).items.values ≠ [] →
        1 ≤ (replay runtime sessionId epoch rows).lastSequence) := by
  induction rows using List.reverseRecOn with
  | nil => exact ⟨le_rfl, fun hitems => absurd rfl hitems⟩
  | append_singleton rows row ih =>
    have hrow := hseq row (by simp)
    rw [replay_concat, lastSequence_applyJournalRow]
    exact ⟨by omega, fun _ => by omega⟩

variable (localeCompare : String → String → Ordering) [TransCmp localeCompare]

/-- A turn or a clear of some state of the log. -/
def EverTurn (rows : List (JournalRow (BodyRest Q))) (item : RenderItem Q) : Prop :=
  ∃ before, before <+: rows ∧ ∃ itemId,
    turnAt (replay runtime sessionId epoch before) itemId = some item

theorem tracks_fold (hapart : TellsApart localeCompare known)
    (hknown : ∀ item, EverTurn runtime sessionId epoch rows item → known item)
    (hseq : ∀ row ∈ rows, 1 ≤ row.base.seq)
    (honly : OnlyNamedRows runtime sessionId epoch rows) :
    Tracks localeCompare known runtime.safeOrdinal
      (IndexedJournal.fold localeCompare runtime sessionId epoch rows).newest
      (replay runtime sessionId epoch rows) := by
  induction rows using List.reverseRecOn with
  | nil =>
    exact (tracks_ofState (keyedItems_replay runtime sessionId epoch [])
      (fun hitems => absurd rfl hitems) hapart
      fun itemId item hturn => hknown item ⟨[], prefix_rfl, itemId, hturn⟩).1
  | append_singleton rows row ih =>
    have htracks := ih (fun item ⟨before, hbefore, hturn⟩ =>
      hknown item ⟨before, hbefore.trans (prefix_append _ _), hturn⟩)
      (fun other hother => hseq other (mem_append_left _ hother))
      fun before other after hrows => honly before other (after ++ [row]) (by
        rw [hrows, append_assoc, cons_append])
    have hstep := honly rows row [] rfl
    have hkeyed := keyedItems_replay runtime sessionId epoch (rows ++ [row])
    rw [fold_concat, IndexedJournal.apply, state_fold, ← replay_concat]
    refine htracks.afterRow hstep hkeyed (hseq row (by simp)) ?_ ?_
      fun itemId item hturn => hknown item ⟨_, prefix_rfl, itemId, hturn⟩
    all_goals rw [replay_concat, lastSequence_applyJournalRow]
    · exact le_max_right _ _
    · exact le_max_left _ _

end Logs

/-- After every row of a log whose rows change turns, clears and reports only of the items
they name, and whose turns and clears share a place only under one id, the index agrees with
a rescan. -/
theorem newestTurn_agrees [DecidableEq Q] (localeCompare : String → String → Ordering)
    [TransCmp localeCompare]
    (runtime : JournalRuntime (BodyRest Q)) (sessionId epoch : String)
    (rows : List (JournalRow (BodyRest Q))) (hseq : ∀ row ∈ rows, 1 ≤ row.base.seq)
    (honly : OnlyNamedRows runtime sessionId epoch rows)
    (hapart : TellsApart localeCompare (EverTurn runtime sessionId epoch rows))
    (before : List (JournalRow (BodyRest Q))) (hbefore : before <+: rows) :
    Agrees localeCompare runtime.safeOrdinal
      (IndexedJournal.fold localeCompare runtime sessionId epoch before) := by
  obtain ⟨after, rfl⟩ := hbefore
  have hseq' : ∀ row ∈ before, 1 ≤ row.base.seq := fun row hrow =>
    hseq row (mem_append_left _ hrow)
  have honly' : OnlyNamedRows runtime sessionId epoch before := fun prior row later hrows =>
    honly prior row (later ++ after) (by rw [hrows, append_assoc, cons_append])
  have hknown : ∀ item, EverTurn runtime sessionId epoch before item →
      EverTurn runtime sessionId epoch (before ++ after) item :=
    fun item ⟨prior, hprior, hturn⟩ => ⟨prior, hprior.trans (prefix_append _ _), hturn⟩
  have htracks := tracks_fold runtime sessionId epoch localeCompare hapart hknown hseq' honly'
  have hkeyed := keyedItems_replay runtime sessionId epoch before
  obtain ⟨hlast, hfirst⟩ := lastSequence_replay runtime sessionId epoch hseq'
  obtain ⟨hrescan, hboundary⟩ :=
    @tracks_ofState _ localeCompare _ runtime.safeOrdinal _ _ _ hkeyed hfirst hapart
      fun itemId item hturn => hknown item ⟨before, prefix_rfl, itemId, hturn⟩
  have hzero : (IndexedJournal.fold localeCompare runtime sessionId epoch before).newest.failure
      = 0 ↔ (JournalNewestTurn.ofState localeCompare runtime.safeOrdinal
        (replay runtime sessionId epoch before)).failure = 0 :=
    not_iff_not.mp ((htracks.failure_ne_zero_iff hkeyed).trans
      (hrescan.failure_ne_zero_iff hkeyed).symm)
  have hstate := state_fold runtime sessionId epoch localeCompare before
  refine ⟨?_, ?_, ?_⟩
  · rw [hstate]
    exact htracks.read_eq hkeyed
  · rw [hstate]
    exact hzero
  · rw [hstate]
    by_cases hnone : (JournalNewestTurn.ofState localeCompare runtime.safeOrdinal
        (replay runtime sessionId epoch before)).failure = 0
    · rw [hnone, hzero.mpr hnone]
    · rw [hrescan.failure_eq_last hboundary hnone]
      exact htracks.failure_le hlast

/-! ## A turn hidden in its batch -/

def plainRuntime : JournalRuntime (BodyRest Unit) := ⟨fun _ _ => "", id, fun _ => none⟩

def rowBase (seq : ℤ) : JournalRowBase :=
  { epoch := "e", seq, fence := 0, ts := seq, recovered := false, turnScope := none }

def bodyRest : BodyRest Unit := { outcome := none, failureKind := none, tone := none, rest := () }

def userMessage : AgentJournalMessageItem (BodyRest Unit) :=
  { role := .user, command := none, rest := bodyRest }

def runningTurn : AgentJournalItemBody (BodyRest Unit) :=
  .turn { turnId := "t", state := .running, userItemId := none, rest := bodyRest }

def itemWrite (itemId : String) (revision : ℤ) (body : AgentJournalItemBody (BodyRest Unit)) :
    JournalItemWrite (BodyRest Unit) :=
  { itemId, revision, body, ownerFence := none, executionOwner := none, echoOf := none }

def commandTurn (state : AgentJournalTurnLifecycleState) : AgentJournalItemBody (BodyRest Unit) :=
  .turn { turnId := "compact:t", state, userItemId := none,
          rest := { bodyRest with outcome := some "failure" } }

/-- A failure comes before the command's turn it reports on, another turn starts in the batch
that writes this one, which is written again, and the other one is removed. -/
def failedTurnRows : List (JournalRow (BodyRest Unit)) :=
  [⟨{ rowBase 1 with turnScope := some (.turn "t") }, .item (itemWrite "f" 1 (.status
      { contextClear := false, turnLifecycle := none,
        rest := { bodyRest with failureKind := some "crash" } }))⟩,
    ⟨rowBase 2, .lifecycleBatch "settled"
      [.item (itemWrite "t" 1 (commandTurn .completed)) {} none none,
        .item (itemWrite "u" 1 runningTurn) {} none none]⟩,
    ⟨rowBase 3, .item (itemWrite "t" 2 (commandTurn .interrupted))⟩,
    ⟨rowBase 4, .tombstone ⟨"u", 2, false, false⟩⟩]

/-- Only the items of the two states need a look. -/
theorem onlyNamed_of_keys {safeOrdinal : String → Option ℕ}
    {state next : JournalReducerState (BodyRest Q)} {row : JournalRow (BodyRest Q)}
    (hkeys : ∀ itemId ∈ state.items.keys ++ next.items.keys, itemId ∉ namedItems next row →
      turnAt next itemId = turnAt state itemId ∧
        reportAt safeOrdinal next itemId = reportAt safeOrdinal state itemId) :
    OnlyNamed safeOrdinal state next row := by
  have hall : ∀ itemId, itemId ∉ namedItems next row →
      turnAt next itemId = turnAt state itemId ∧
        reportAt safeOrdinal next itemId = reportAt safeOrdinal state itemId := by
    intro itemId hitemId
    by_cases hmem : itemId ∈ state.items.keys ++ next.items.keys
    · exact hkeys itemId hmem hitemId
    · rw [mem_append, not_or] at hmem
      have hstate : state.items.lookup itemId = none :=
        AList.lookup_eq_none.mpr fun h => hmem.1 (AList.mem_keys.mp h)
      have hnext : next.items.lookup itemId = none :=
        AList.lookup_eq_none.mpr fun h => hmem.2 (AList.mem_keys.mp h)
      rw [turnAt, turnAt, reportAt, reportAt, hstate, hnext]
      exact ⟨rfl, rfl⟩
  exact ⟨fun itemId hitemId => (hall itemId hitemId).1,
    fun itemId hitemId => (hall itemId hitemId).2⟩

theorem onlyNamedRows_of_take {runtime : JournalRuntime (BodyRest Q)} {sessionId epoch : String}
    {rows : List (JournalRow (BodyRest Q))}
    (htake : ∀ index : Fin rows.length, OnlyNamed runtime.safeOrdinal
      (replay runtime sessionId epoch (rows.take index))
      (replay runtime sessionId epoch (rows.take (index + 1))) rows[index]) :
    OnlyNamedRows runtime sessionId epoch rows := by
  rintro before row after rfl
  have hstep := htake ⟨before.length, by simp⟩
  simpa [take_append, take_of_length_le] using hstep

theorem newestTurn_agrees_failedTurn : Agrees Ord.compare plainRuntime.safeOrdinal
      (IndexedJournal.fold Ord.compare plainRuntime "s" "e" failedTurnRows) := by
  have hnamed : OnlyNamedRows plainRuntime "s" "e" failedTurnRows :=
    onlyNamedRows_of_take fun index => onlyNamed_of_keys <| by
      revert index
      decide +kernel
  refine newestTurn_agrees Ord.compare plainRuntime "s" "e" failedTurnRows (by decide) hnamed
    (fun item other _ _ horder => ?_) failedTurnRows prefix_rfl
  obtain ⟨-, hrest⟩ := Ordering.then_eq_eq.mp horder
  exact LawfulEqCmp.eq_of_compare (Ordering.then_eq_eq.mp hrest).2

/-- A sent message, and a batch that writes a turn and then the echo of the
message under one provider id. -/
def hiddenTurnRows : List (JournalRow (BodyRest Unit)) :=
  [⟨rowBase 1, .submission
      { clientMessageId := "m", payloadFingerprint := "", body := userMessage,
        handoverRecorded := false, queuedMessageId := none, origin := none, source := none,
        options := none }⟩,
    ⟨rowBase 2, .lifecycleBatch "settled"
      [.item (itemWrite "claude:s:u" 1 runningTurn) {} none none,
        .item (itemWrite "claude:s:u" 2 (.message userMessage)) {} none none]⟩]

/-- The echo claims the message after the turn was written, and the index looks
for the turn under the message. -/
theorem hiddenTurn_unread :
    let journal := IndexedJournal.fold Ord.compare plainRuntime "s" "e" hiddenTurnRows
    (∀ row ∈ hiddenTurnRows, 1 ≤ row.base.seq) ∧ journal.newest.read = none ∧
      (sortedTurns Ord.compare journal.state).getLast?.map AgentJournalRenderItem.itemId =
        some "claude:s:u" := by
  decide +kernel

end Wakii.NewestTurn
