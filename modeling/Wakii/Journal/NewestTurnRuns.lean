import Wakii.Journal.NewestTurnSteps

/-!
# The newest turn over a log of rows

A row first notes the items it names and then places the sources this touched.
While no row changes a turn, a clear or a report of another item, the index
stays the one a rescan of the journal would build, up to the positions of
failures, which it knows no later than the rescan.
-/

namespace Wakii.NewestTurn

open OrderedCollections Std
open Wakii.ItemIds Wakii.JournalRows Wakii.Reducer

variable {Q : Type} {localeCompare : String → String → Ordering} {known : RenderItem Q → Prop}

/-- The index tracks a journal: every link and every source is the rescan's. -/
structure Tracks (localeCompare : String → String → Ordering)
    (known : RenderItem Q → Prop) (safeOrdinal : String → Option ℕ) (newest : JournalNewestTurn Q)
    (state : JournalReducerState (BodyRest Q)) : Prop where
  consistent : Consistent localeCompare known newest
  bounded : Bounded newest state.lastSequence
  evidence : ∀ itemId, newest.evidence.lookup itemId = reportAt safeOrdinal state itemId
  settled : ∀ itemId, Settled newest state itemId

/-- The items a row names, by the ids they stand for once it is folded. -/
def namedItems (state : JournalReducerState (BodyRest Q)) (row : JournalRow (BodyRest Q)) :
    List String :=
  (JournalNewestTurn.rowItemIds row).map (resolveItemId state)

/-- A row that changes turns, clears and reports only of the items it names. -/
structure OnlyNamed (safeOrdinal : String → Option ℕ)
    (state next : JournalReducerState (BodyRest Q)) (row : JournalRow (BodyRest Q)) :
    Prop where
  turns : ∀ itemId, itemId ∉ namedItems next row → turnAt next itemId = turnAt state itemId
  reports : ∀ itemId, itemId ∉ namedItems next row →
    reportAt safeOrdinal next itemId = reportAt safeOrdinal state itemId

/-! ## Noting the named items -/

/-- Midway through the named items: everything but those left to note and the
touched sources is the rescan's. -/
structure Noting (localeCompare : String → String → Ordering)
    (known : RenderItem Q → Prop) (safeOrdinal : String → Option ℕ)
      (state : JournalReducerState (BodyRest Q))
    (rest : List String) (noted : JournalNewestTurn Q × OrderedSet String) : Prop where
  consistent : Consistent localeCompare known noted.1
  bounded : Bounded noted.1 state.lastSequence
  evidence : ∀ itemId, itemId ∉ rest →
    noted.1.evidence.lookup itemId = reportAt safeOrdinal state itemId
  settled : ∀ itemId, itemId ∉ rest → itemId ∉ noted.2 → Settled noted.1 state itemId
  removed : ∀ itemId, itemId ∉ rest → turnAt state itemId = none →
    noted.1.sources.lookup itemId = none

variable {state : JournalReducerState (BodyRest Q)} {itemId : String}

theorem Settled.removed {newest : JournalNewestTurn Q}
    (hsettled : Settled newest state itemId) (hnone : turnAt state itemId = none) :
    newest.sources.lookup itemId = none :=
  Option.map_eq_none_iff.mp (hsettled.item.trans hnone)

theorem Settled.of_removed {newest : JournalNewestTurn Q}
    (hremoved : newest.sources.lookup itemId = none) (hnone : turnAt state itemId = none) :
    Settled newest state itemId where
  item := by rw [hremoved, hnone]; rfl
  judged source hsource := by
    rw [hremoved] at hsource
    cases hsource

theorem Settled.congr {newest next : JournalNewestTurn Q} (hsettled : Settled newest state itemId)
    (hkeyed : ∀ source, newest.sources.lookup itemId = some source → source.item.itemId = itemId)
    (hsource : next.sources.lookup itemId = newest.sources.lookup itemId)
    (hcount : linkCount next.evidence itemId = linkCount newest.evidence itemId) :
    Settled next state itemId where
  item := by
    rw [hsource]
    exact hsettled.item
  judged source hlookup := by
    rw [hsource] at hlookup
    refine (hsettled.judged source hlookup).congr ?_
    rw [hkeyed source hlookup]
    exact hcount

theorem turnAt_eq_none :
    turnAt state itemId = none ↔ (state.items.lookup itemId).any isTurnOrClear = false := by
  unfold turnAt
  cases state.items.lookup itemId with
  | none => exact iff_of_true rfl rfl
  | some item => simp [Option.filter]

section Rows

variable [TransCmp localeCompare]
  {safeOrdinal : String → Option ℕ} {state : JournalReducerState (BodyRest Q)}

variable {row : ℤ}

section

variable {noted : JournalNewestTurn Q × OrderedSet String} (hrow : row ≤ state.lastSequence)
include hrow

/-- Noting one item leaves the rest to be noted. -/
theorem Noting.step {rest : List String} {raw : String}
    (hnoting : Noting localeCompare known safeOrdinal state
      (resolveItemId state raw :: rest) noted) :
    Noting localeCompare known safeOrdinal state rest
      (JournalNewestTurn.noteItem localeCompare safeOrdinal state row noted raw) := by
  unfold JournalNewestTurn.noteItem
  dsimp only
  generalize resolveItemId state raw = itemId at hnoting ⊢
  obtain ⟨hconsistent, hbounded, hothers, hremoved⟩ :=
    @forget_spec _ _ _ _ _ hnoting.consistent itemId (state.items.lookup itemId) row
      state.lastSequence hnoting.bounded hrow
  generalize noted.1.forget localeCompare itemId (state.items.lookup itemId) row = newest
    at hconsistent hbounded hothers hremoved ⊢
  have hrelinked := relinked_index safeOrdinal state.aliases noted.2 itemId
    (state.items.lookup itemId) hconsistent.counts
  generalize JournalNewestTurn.index safeOrdinal state.aliases newest noted.2 itemId
    (state.items.lookup itemId) = linked at hrelinked ⊢
  have hne : ∀ {other}, other ∉ rest → other ≠ itemId → other ∉ itemId :: rest :=
    fun hother hself hmem => (List.mem_cons.mp hmem).elim hself hother
  have htouched : ∀ {other},
      other ∉ (if (state.items.lookup itemId).any isTurnOrClear then linked.2.add itemId
        else linked.2) → other ∉ linked.2 ∧
          (other = itemId → (state.items.lookup itemId).any isTurnOrClear = false) := by
    intro other hother
    split_ifs at hother with hturn
    · rw [OrderedSet.mem_add, not_or] at hother
      exact ⟨hother.2, fun hself => absurd hself hother.1⟩
    · exact ⟨hother, fun _ => Bool.eq_false_iff.mpr hturn⟩
  have hconsistent' : Consistent localeCompare known linked.1 := hconsistent.relinked hrelinked
  have hbounded' : Bounded linked.1 state.lastSequence := hbounded.relinked hrelinked
  refine ⟨hconsistent', hbounded', ?_, ?_, ?_⟩
  · intro other hother
    rw [hrelinked.evidence]
    split_ifs with hself
    · rw [hself]
      rfl
    · rw [hothers.evidence]
      exact hnoting.evidence other (hne hother hself)
  · intro other hother hfresh
    obtain ⟨huntouched, hturn⟩ := htouched hfresh
    by_cases hself : other = itemId
    · subst hself
      refine .of_removed ?_ (turnAt_eq_none.mpr (hturn rfl))
      rw [hrelinked.sources]
      exact hremoved (hturn rfl)
    · have hprior := hnoting.settled other (hne hother hself)
        fun hmem => huntouched (hrelinked.touched other hmem)
      refine hprior.congr (fun source hsource => hnoting.consistent.keyed other source hsource)
        ?_ ?_
      · rw [hrelinked.sources, hothers.sources other hself]
      · rw [hrelinked.untouched other huntouched, hothers.evidence]
  · intro other hother hnone
    rw [hrelinked.sources]
    by_cases hself : other = itemId
    · rw [hself] at hnone ⊢
      exact hremoved (turnAt_eq_none.mp hnone)
    · rw [hothers.sources other hself]
      exact hnoting.removed other (hne hother hself) hnone

theorem Noting.all (raws : List String)
    (hnoting : Noting localeCompare known safeOrdinal state
      (raws.map (resolveItemId state)) noted) :
    Noting localeCompare known safeOrdinal state []
      (raws.foldl (JournalNewestTurn.noteItem localeCompare safeOrdinal state row) noted) := by
  induction raws generalizing noted with
  | nil => exact hnoting
  | cons raw raws ih => exact ih (hnoting.step hrow)

end

/-! ## Placing the touched sources -/

/-- Midway through the touched sources: everything else is the rescan's. -/
structure Placing (localeCompare : String → String → Ordering)
    (known : RenderItem Q → Prop) (safeOrdinal : String → Option ℕ)
      (state : JournalReducerState (BodyRest Q))
    (rest : List String) (newest : JournalNewestTurn Q) : Prop where
  consistent : Consistent localeCompare known newest
  bounded : Bounded newest state.lastSequence
  evidence : ∀ itemId, newest.evidence.lookup itemId = reportAt safeOrdinal state itemId
  settled : ∀ itemId, itemId ∉ rest → Settled newest state itemId
  removed : ∀ itemId, turnAt state itemId = none → newest.sources.lookup itemId = none

variable [DecidableEq Q]

/-- Placing one item leaves the rest to be placed. -/
theorem Placing.step {rest : List String} {newest : JournalNewestTurn Q}
    {itemId : String} (hkeyed : KeyedItems state)
    (hknown : ∀ itemId item, turnAt state itemId = some item → known item) (hfirst : 1 ≤ row)
    (hrow : row ≤ state.lastSequence)
    (hplacing : Placing localeCompare known safeOrdinal state (itemId :: rest) newest) :
    Placing localeCompare known safeOrdinal state rest
      (newest.place localeCompare (state.items.lookup itemId) row) := by
  have hne : ∀ {other}, other ∉ rest → other ≠ itemId → other ∉ itemId :: rest :=
    fun hother hself hmem => (List.mem_cons.mp hmem).elim hself hother
  cases hturn : (state.items.lookup itemId).any isTurnOrClear with
  | false =>
    have hnone := turnAt_eq_none.mpr hturn
    have hsame : newest.place localeCompare (state.items.lookup itemId) row = newest := by
      unfold JournalNewestTurn.place
      cases hitem : state.items.lookup itemId with
      | none => rfl
      | some item =>
        rw [hitem, Option.any_some] at hturn
        simp [hturn]
    rw [hsame]
    refine ⟨hplacing.consistent, hplacing.bounded, hplacing.evidence,
      fun other hother => ?_, hplacing.removed⟩
    by_cases hself : other = itemId
    · rw [hself]
      exact .of_removed (hplacing.removed itemId hnone) hnone
    · exact hplacing.settled other (hne hother hself)
  | true =>
    obtain ⟨item, hitem, hturn⟩ := (Option.any_eq_true _ _).mp hturn
    have hid := hkeyed itemId item hitem
    have hview : turnAt state itemId = some item := by
      rw [turnAt, hitem]
      simp [Option.filter, hturn]
    obtain ⟨hconsistent, hbounded, hothers, source, hsource, hsourceItem, hjudged⟩ :=
      place_spec hplacing.consistent hplacing.bounded (hknown itemId item hview) hturn hfirst hrow
    rw [hitem]
    rw [hid] at hothers hsource
    refine ⟨hconsistent, hbounded, fun other => ?_, fun other hother => ?_, fun other hnone => ?_⟩
    · rw [hothers.evidence]
      exact hplacing.evidence other
    · by_cases hself : other = itemId
      · subst hself
        refine ⟨by rw [hsource, hview, Option.map_some, hsourceItem], fun held hheld => ?_⟩
        rw [hsource] at hheld
        rw [← Option.some.inj hheld]
        exact hjudged
      · refine (hplacing.settled other (hne hother hself)).congr
          (fun held hheld => hplacing.consistent.keyed other held hheld)
          (hothers.sources other hself) ?_
        rw [hothers.evidence]
    · have hself : other ≠ itemId := by
        rintro rfl
        rw [hview] at hnone
        cases hnone
      rw [hothers.sources other hself]
      exact hplacing.removed other hnone

theorem Placing.all {newest : JournalNewestTurn Q} (hkeyed : KeyedItems state)
    (hknown : ∀ itemId item, turnAt state itemId = some item → known item)
    (touched : List String) (hrows : touched ≠ [] → 1 ≤ row ∧ row ≤ state.lastSequence)
    (hplacing : Placing localeCompare known safeOrdinal state touched newest) :
    Tracks localeCompare known safeOrdinal
      (newest.placeAll localeCompare state row touched) state := by
  unfold JournalNewestTurn.placeAll
  induction touched generalizing newest with
  | nil =>
    exact ⟨hplacing.consistent, hplacing.bounded, hplacing.evidence,
      fun itemId => hplacing.settled itemId List.not_mem_nil⟩
  | cons itemId touched ih =>
    obtain ⟨hfirst, hrow⟩ := hrows (List.cons_ne_nil _ _)
    exact ih (fun _ => ⟨hfirst, hrow⟩) (hplacing.step hkeyed hknown hfirst hrow)

end Rows

end Wakii.NewestTurn
