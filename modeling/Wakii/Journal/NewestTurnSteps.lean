import Wakii.Journal.NewestTurn

/-!
# One step of the newest-turn index

The tree holds exactly the recorded sources and the reports are counted by their
links, whatever the order of the steps.  An item is settled when its source is
the one a rescan would give it.
-/

namespace Wakii.NewestTurn

open OrderedCollections SearchTrees Std OrderedMap
open Wakii.Reducer

variable {Q : Type} {localeCompare : String → String → Ordering} {known : RenderItem Q → Prop}

section Order

/-- No two of the items stand at one place under different ids. -/
def TellsApart (localeCompare : String → String → Ordering) (known : RenderItem Q → Prop) : Prop :=
  ∀ item other, known item → known other → compareTurnItems localeCompare item other = .eq →
    item.itemId = other.itemId

variable [TransCmp localeCompare]

instance : TransCmp fun item other : RenderItem Q => localeCompare item.itemId other.itemId where
  eq_swap := OrientedCmp.eq_swap
  isLE_trans := TransCmp.isLE_trans

instance : TransCmp (compareTurnItems localeCompare : RenderItem Q → RenderItem Q → Ordering) :=
  inferInstanceAs (TransCmp (compareLex _ _))

instance : TransCmp
    (compareTurnSources localeCompare : TurnSource Q → TurnSource Q → Ordering) where
  eq_swap {source other} :=
    @OrientedCmp.eq_swap _ (compareTurnItems localeCompare) _ source.item other.item
  isLE_trans {one two three} :=
    @TransCmp.isLE_trans _ (compareTurnItems localeCompare) _ one.item two.item three.item

end Order

/-! ## What a rescan finds -/

section Views

variable (safeOrdinal : String → Option ℕ) (state : JournalReducerState (BodyRest Q))

def turnAt (itemId : String) : Option (RenderItem Q) :=
  (state.items.lookup itemId).filter isTurnOrClear

def reportAt (itemId : String) : Option String :=
  (state.items.lookup itemId).bind (reportedTurn safeOrdinal state.aliases)

def isReported (itemId : String) : Bool :=
  state.items.keys.any fun other => reportAt safeOrdinal state other = some itemId

def isRelevant (item : RenderItem Q) : Bool :=
  !isCommand item || !settledFailure item || isReported safeOrdinal state item.itemId

def isHolding (item : RenderItem Q) : Bool :=
  settledFailure item && (!isCommand item || isReported safeOrdinal state item.itemId)

theorem isReported_iff {itemId : String} : isReported safeOrdinal state itemId = true ↔
      ∃ other, reportAt safeOrdinal state other = some itemId := by
  rw [isReported, List.any_eq_true]
  constructor
  · rintro ⟨other, -, hother⟩
    exact ⟨other, of_decide_eq_true hother⟩
  · rintro ⟨other, hother⟩
    refine ⟨other, ?_, decide_eq_true hother⟩
    obtain ⟨item, hitem, -⟩ := Option.bind_eq_some_iff.mp hother
    exact AList.mem_keys.mp (AList.lookup_isSome.mp (by rw [hitem]; rfl))

end Views

/-! ## What every step keeps -/

/-- The tree holds exactly the recorded sources, each under its own id, and every
count of reports is the number of links. -/
structure Consistent (localeCompare : String → String → Ordering) (known : RenderItem Q → Prop)
    (newest : JournalNewestTurn Q) : Prop where
  apart : TellsApart localeCompare known
  known : ∀ itemId source, newest.sources.lookup itemId = some source → known source.item
  sound : newest.root.Sound TurnSource.summary
  ordered : AvlTree.Ordered (compareTurnSources localeCompare) newest.root.toList
  mem : ∀ source, source ∈ newest.root.toList ↔
    newest.sources.lookup source.item.itemId = some source
  keyed : ∀ itemId source, newest.sources.lookup itemId = some source → source.item.itemId = itemId
  counts : ∀ target, (newest.reports.lookup target).getD 0 = (linkCount newest.evidence target : ℤ)

structure Bounded (newest : JournalNewestTurn Q) (last : ℤ) : Prop where
  sources : ∀ itemId source, newest.sources.lookup itemId = some source →
    0 ≤ source.failedAt ∧ source.failedAt ≤ last ∧ source.witnessedThrough = none
  boundary : newest.boundary ≤ last

structure Judged (newest : JournalNewestTurn Q) (source : TurnSource Q) : Prop where
  relevant : source.relevant = (!isCommand source.item || !settledFailure source.item ||
    0 < linkCount newest.evidence source.item.itemId)
  ordinary : source.ordinary = !isCommand source.item
  failed : source.failedAt ≠ 0 ↔ (settledFailure source.item && (!isCommand source.item ||
      0 < linkCount newest.evidence source.item.itemId)) = true

theorem Judged.congr {newest next : JournalNewestTurn Q} {source : TurnSource Q}
    (hjudged : Judged newest source)
    (hcount : linkCount next.evidence source.item.itemId =
      linkCount newest.evidence source.item.itemId) : Judged next source := by
  obtain ⟨hrelevant, hordinary, hfailed⟩ := hjudged
  rw [← hcount] at hrelevant hfailed
  exact ⟨hrelevant, hordinary, hfailed⟩

/-- The source under an id is the turn or clear there, judged. -/
structure Settled (newest : JournalNewestTurn Q) (state : JournalReducerState (BodyRest Q))
    (itemId : String) : Prop where
  item : (newest.sources.lookup itemId).map TurnSource.item = turnAt state itemId
  judged : ∀ source, newest.sources.lookup itemId = some source → Judged newest source

/-- What a bump does to the counts, where none goes below zero. -/
theorem bump_eq (counted : OrderedMap String ℤ × OrderedSet String) (target : Option String)
    (step : ℤ) (hcount : ∀ held, target = some held → 0 ≤ (counted.1.lookup held).getD 0 + step) :
    (∀ other, ((JournalNewestTurn.bump counted target step).1.lookup other).getD 0 =
      (counted.1.lookup other).getD 0 + if target = some other then step else 0) ∧
    ∀ other, other ∈ (JournalNewestTurn.bump counted target step).2 ↔
      target = some other ∨ other ∈ counted.2 := by
  unfold JournalNewestTurn.bump
  cases target with
  | none => exact ⟨fun other => by rw [if_neg nofun, add_zero], fun other => by simp⟩
  | some target =>
    refine ⟨fun other => ?_, fun other => ?_⟩
    · have hlive := hcount target rfl
      simp only [Option.some.injEq]
      by_cases hother : other = target
      · subst hother
        rw [if_pos rfl]
        split_ifs
        · rw [lookup_set_self, Option.getD_some]
        · rw [AList.lookup_erase, Option.getD_none]
          omega
      · rw [if_neg (Ne.symm hother)]
        split_ifs
        · rw [lookup_set_ne _ _ hother, add_zero]
        · rw [AList.lookup_erase_ne hother, add_zero]
    · simp only [OrderedSet.mem_add, Option.some.injEq]
      exact or_congr_left eq_comm

/-- Linking one item anew: only the turns whose count changes are touched. -/
structure Relinked (newest : JournalNewestTurn Q) (touched : OrderedSet String)
    (itemId : String) (turn : Option String)
    (noted : JournalNewestTurn Q × OrderedSet String) : Prop where
  root : noted.1.root = newest.root
  sources : noted.1.sources = newest.sources
  boundary : noted.1.boundary = newest.boundary
  evidence : ∀ other, noted.1.evidence.lookup other =
    if other = itemId then turn else newest.evidence.lookup other
  counts : ∀ target,
    (noted.1.reports.lookup target).getD 0 = (linkCount noted.1.evidence target : ℤ)
  untouched : ∀ target, target ∉ noted.2 →
    linkCount noted.1.evidence target = linkCount newest.evidence target
  touched : ∀ target, target ∈ touched → target ∈ noted.2

variable {newest : JournalNewestTurn Q}

/-- Indexing an item again moves its links. -/
theorem relinked_index (safeOrdinal : String → Option ℕ) (aliases : OrderedMap String String)
    (touched : OrderedSet String) (itemId : String) (item : Option (RenderItem Q))
    (hcounts : ∀ target,
      (newest.reports.lookup target).getD 0 = (linkCount newest.evidence target : ℤ)) :
    Relinked newest touched itemId (item.bind (reportedTurn safeOrdinal aliases))
      (JournalNewestTurn.index safeOrdinal aliases newest touched itemId item) := by
  unfold JournalNewestTurn.index
  dsimp only
  generalize item.bind (reportedTurn safeOrdinal aliases) = turn
  split_ifs with hsame
  · refine ⟨rfl, rfl, rfl, fun other => ?_, hcounts, fun _ _ => rfl, fun _ htarget => htarget⟩
    split_ifs with hother
    · rw [hother, hsame]
    · rfl
  · have hsplit := linkCount_eq_erase_add newest.evidence itemId
    -- First the prior link is let go.
    obtain ⟨hprior, hpriorTouched⟩ := bump_eq (newest.reports, touched)
      (newest.evidence.lookup itemId) (-1) fun held hheld => by
        rw [hcounts, hsplit held, if_pos hheld]
        omega
    have hunlinked : ∀ target, ((JournalNewestTurn.bump (newest.reports, touched)
        (newest.evidence.lookup itemId) (-1)).1.lookup target).getD 0 =
          (linkCount (newest.evidence.erase itemId) target : ℤ) := by
      intro target
      rw [hprior, hcounts, hsplit target]
      split_ifs <;> omega
    generalize JournalNewestTurn.bump (newest.reports, touched)
      (newest.evidence.lookup itemId) (-1) = unlinked at hpriorTouched hunlinked ⊢
    obtain ⟨hturn, hturnTouched⟩ := bump_eq unlinked turn 1 fun held _ => by
      rw [hunlinked]
      omega
    generalize JournalNewestTurn.bump unlinked turn 1 = counted at hturn hturnTouched ⊢
    refine ⟨rfl, rfl, rfl, fun other => ?_, fun target => ?_, fun target htarget => ?_,
      fun target htarget => ?_⟩
    · cases turn with
      | none => exact lookup_erase_eq _ _ _
      | some turn => exact lookup_set _ _ _ _
    · rw [hturn, hunlinked]
      cases turn with
      | none => simp
      | some turn =>
        rw [linkCount_set]
        simp only [Option.some.injEq]
        split_ifs <;> simp
    · rw [hturnTouched, hpriorTouched, not_or, not_or] at htarget
      rw [hsplit target, if_neg htarget.2.1]
      cases turn with
      | none => rfl
      | some turn => rw [linkCount_set, if_neg fun hsame => htarget.1 (congrArg some hsame)]
    · rw [hturnTouched, hpriorTouched]
      exact .inr (.inr htarget)

variable {noted : JournalNewestTurn Q × OrderedSet String} {touched : OrderedSet String}

theorem Consistent.relinked {itemId : String} {turn : Option String}
    (hconsistent : Consistent localeCompare known newest)
    (hrelinked : Relinked newest touched itemId turn noted) :
    Consistent localeCompare known noted.1 where
  apart := hconsistent.apart
  known itemId source hsource := by
    rw [hrelinked.sources] at hsource
    exact hconsistent.known itemId source hsource
  sound := by
    rw [hrelinked.root]
    exact hconsistent.sound
  ordered := by
    rw [hrelinked.root]
    exact hconsistent.ordered
  mem source := by
    rw [hrelinked.root, hrelinked.sources]
    exact hconsistent.mem source
  keyed itemId source hsource := by
    rw [hrelinked.sources] at hsource
    exact hconsistent.keyed itemId source hsource
  counts := hrelinked.counts

theorem Bounded.relinked {itemId : String} {turn : Option String} {last : ℤ}
    (hbounded : Bounded newest last) (hrelinked : Relinked newest touched itemId turn noted) :
    Bounded noted.1 last where
  sources itemId source hsource := by
    rw [hrelinked.sources] at hsource
    exact hbounded.sources itemId source hsource
  boundary := by
    rw [hrelinked.boundary]
    exact hbounded.boundary

section Trees

variable [TransCmp localeCompare] {newest : JournalNewestTurn Q}

section

variable (hconsistent : Consistent localeCompare known newest)
include hconsistent

variable {itemId : String}

theorem Consistent.compare_eq_iff {prior held : TurnSource Q}
    (hprior : newest.sources.lookup itemId = some prior) (hheld : held ∈ newest.root.toList) :
    compareTurnSources localeCompare held prior = .eq ↔ held.item.itemId = itemId := by
  have hid := hconsistent.keyed itemId prior hprior
  constructor
  · intro horder
    have hlookup := (hconsistent.mem held).mp hheld
    exact (hconsistent.apart _ _ (hconsistent.known _ held hlookup)
      (hconsistent.known _ prior hprior) horder).trans hid
  · intro hsame
    have hlookup := (hconsistent.mem held).mp hheld
    rw [hsame, hprior] at hlookup
    rw [Option.some.inj hlookup]
    exact ReflCmp.compare_self

theorem Consistent.mem_remove {prior : TurnSource Q}
    (hprior : newest.sources.lookup itemId = some prior) (held : TurnSource Q) :
    held ∈ (putTurnSource localeCompare newest.root prior true).toList ↔
      newest.sources.lookup held.item.itemId = some held ∧ held.item.itemId ≠ itemId := by
  rw [putTurnSource, AvlTree.mem_put _ hconsistent.ordered]
  simp only [Bool.true_eq_false, false_and, or_false]
  constructor
  · rintro ⟨hheld, horder⟩
    exact ⟨(hconsistent.mem held).mp hheld,
      fun hsame => horder ((hconsistent.compare_eq_iff hprior hheld).mpr hsame)⟩
  · rintro ⟨hlookup, hne⟩
    have hheld := (hconsistent.mem held).mpr hlookup
    exact ⟨hheld, fun horder => hne ((hconsistent.compare_eq_iff hprior hheld).mp horder)⟩

theorem Consistent.displace (source : TurnSource Q) (prior : Option (TurnSource Q)) :
    (JournalNewestTurn.displace localeCompare newest.root source prior).Sound
        TurnSource.summary ∧
      AvlTree.Ordered (compareTurnSources localeCompare)
        (JournalNewestTurn.displace localeCompare newest.root source prior).toList := by
  unfold JournalNewestTurn.displace
  cases prior with
  | none => exact ⟨hconsistent.sound, hconsistent.ordered⟩
  | some prior =>
    dsimp only
    split_ifs
    · exact ⟨(hconsistent.sound.put _ prior true).1,
        AvlTree.ordered_put _ prior true hconsistent.ordered⟩
    · exact ⟨hconsistent.sound, hconsistent.ordered⟩

/-- What is left beside a source in the tree it is put into. -/
theorem Consistent.mem_displace {source : TurnSource Q} (hknown : known source.item)
    (held : TurnSource Q) :
    held ∈ (JournalNewestTurn.displace localeCompare newest.root source
        (newest.sources.lookup source.item.itemId)).toList ∧
        compareTurnSources localeCompare held source ≠ .eq ↔
      newest.sources.lookup held.item.itemId = some held ∧
        held.item.itemId ≠ source.item.itemId := by
  have hne : newest.sources.lookup held.item.itemId = some held →
      held.item.itemId ≠ source.item.itemId → compareTurnSources localeCompare held source ≠ .eq :=
    fun hlookup hid horder =>
      hid (hconsistent.apart _ _ (hconsistent.known _ held hlookup) hknown horder)
  unfold JournalNewestTurn.displace
  cases hprior : newest.sources.lookup source.item.itemId with
  | none =>
    dsimp only
    rw [hconsistent.mem]
    refine and_congr_right fun hheld => ⟨fun _ hsame => ?_, hne hheld⟩
    rw [hsame, hprior] at hheld
    cases hheld
  | some prior =>
    dsimp only
    split_ifs with hmoved
    · rw [hconsistent.mem_remove hprior]
      exact and_iff_left_of_imp fun hheld => hne hheld.1 hheld.2
    · rw [ne_eq, not_not] at hmoved
      rw [hconsistent.mem]
      refine and_congr_right fun hheld => ⟨fun horder hsame => horder ?_, hne hheld⟩
      rw [hsame, hprior] at hheld
      rw [← Option.some.inj hheld]
      exact hmoved

theorem Consistent.remove {prior : TurnSource Q}
    (hprior : newest.sources.lookup itemId = some prior) (boundary : ℤ) :
    Consistent localeCompare known
      { newest with
        boundary
        sources := newest.sources.erase itemId
        root := putTurnSource localeCompare newest.root prior true } where
  apart := hconsistent.apart
  known other source hsource := by
    rw [lookup_erase_eq] at hsource
    split_ifs at hsource
    exact hconsistent.known other source hsource
  sound := (hconsistent.sound.put _ prior true).1
  ordered := AvlTree.ordered_put _ prior true hconsistent.ordered
  mem held := by
    rw [hconsistent.mem_remove hprior, lookup_erase_eq]
    split_ifs with hsame
    · exact iff_of_false (fun hheld => hheld.2 hsame) nofun
    · exact and_iff_left hsame
  keyed other source hsource := by
    rw [lookup_erase_eq] at hsource
    split_ifs at hsource
    exact hconsistent.keyed other source hsource
  counts := hconsistent.counts

theorem Consistent.store {source : TurnSource Q} (hknown : known source.item) :
    Consistent localeCompare known { newest with
        sources := newest.sources.set source.item.itemId source
        root := putTurnSource localeCompare
          (JournalNewestTurn.displace localeCompare newest.root source
            (newest.sources.lookup source.item.itemId)) source false } where
  apart := hconsistent.apart
  known other held hheld := by
    rw [lookup_set] at hheld
    split_ifs at hheld
    · exact Option.some.inj hheld ▸ hknown
    · exact hconsistent.known other held hheld
  sound := ((hconsistent.displace source _).1.put _ source false).1
  ordered := AvlTree.ordered_put _ source false (hconsistent.displace source _).2
  mem held := by
    rw [putTurnSource, AvlTree.mem_put _ (hconsistent.displace source _).2,
      hconsistent.mem_displace hknown, lookup_set]
    split_ifs with hsame
    · simp only [hsame, ne_eq, not_true_eq_false, and_false, true_and, false_or, Option.some.injEq]
      exact eq_comm
    · have hne : held ≠ source := fun heq => hsame (heq ▸ rfl)
      simp [hsame, hne]
  keyed other held hheld := by
    rw [lookup_set] at hheld
    split_ifs at hheld with hother
    · rw [← Option.some.inj hheld, hother]
    · exact hconsistent.keyed other held hheld
  counts := hconsistent.counts

end

end Trees

/-! ## The steps of a row -/

structure KeepsOthers (newest next : JournalNewestTurn Q) (itemId : String) : Prop where
  evidence : next.evidence = newest.evidence
  sources : ∀ other, other ≠ itemId → next.sources.lookup other = newest.sources.lookup other

section Steps

variable {newest : JournalNewestTurn Q}

section

variable (hconsistent : Consistent localeCompare known newest)
include hconsistent

theorem Consistent.reported_eq
    (itemId : String) : decide ((newest.reports.lookup itemId).getD 0 > 0) =
      decide (0 < linkCount newest.evidence itemId) := by
  rw [hconsistent.counts]
  exact decide_eq_decide.mpr Int.natCast_pos

theorem judged_sourceOf [DecidableEq Q] {item : RenderItem Q} {row : ℤ} (hrow : 1 ≤ row) :
    Judged newest (newest.sourceOf item row) := by
  have hreported := hconsistent.reported_eq item.itemId
  refine ⟨?_, rfl, ?_⟩
  · rw [JournalNewestTurn.sourceOf, hreported]
  · rw [JournalNewestTurn.sourceOf]
    dsimp only
    rw [hreported]
    split_ifs with hholding hprior
    · exact iff_of_true hprior hholding
    · exact iff_of_true (by omega) hholding
    · exact iff_of_false (fun hzero => hzero rfl) hholding

end

theorem bounded_sourceOf [DecidableEq Q] {item : RenderItem Q} {row last : ℤ}
    (hbounded : Bounded newest last) (hrow : 0 ≤ row) (hlast : row ≤ last) :
    0 ≤ (newest.sourceOf item row).failedAt ∧ (newest.sourceOf item row).failedAt ≤ last ∧
      (newest.sourceOf item row).witnessedThrough = none := by
  unfold JournalNewestTurn.sourceOf
  dsimp only
  cases hprior : newest.sources.lookup item.itemId with
  | none => exact ⟨by split_ifs <;> simp_all, by split_ifs <;> simp_all; omega, rfl⟩
  | some prior =>
    obtain ⟨hlow, hhigh, hwitness⟩ := hbounded.sources _ prior hprior
    refine ⟨?_, ?_, ?_⟩
    · split_ifs <;> simp_all
    · split_ifs <;> simp_all
      omega
    · dsimp only
      split_ifs
      · exact hwitness
      · rfl

variable [TransCmp localeCompare]

theorem forget_spec (hconsistent : Consistent localeCompare known newest) {itemId : String}
    {item : Option (RenderItem Q)} {row last : ℤ} (hbounded : Bounded newest last)
    (hrow : row ≤ last) :
    let next := newest.forget localeCompare itemId item row
    Consistent localeCompare known next ∧ Bounded next last ∧ KeepsOthers newest next itemId ∧
      (item.any isTurnOrClear = false → next.sources.lookup itemId = none) := by
  unfold JournalNewestTurn.forget
  cases hprior : newest.sources.lookup itemId with
  | none => exact ⟨hconsistent, hbounded, ⟨rfl, fun _ _ => rfl⟩, fun _ => hprior⟩
  | some prior =>
    dsimp only
    split_ifs with hturn
    · refine ⟨hconsistent, hbounded, ⟨rfl, fun _ _ => rfl⟩, fun hnone => ?_⟩
      rw [hturn] at hnone
      exact absurd hnone (by decide)
    · refine ⟨hconsistent.remove hprior _, ⟨fun other source hsource => ?_, ?_⟩,
        ⟨rfl, fun other hother => AList.lookup_erase_ne hother⟩,
        fun _ => AList.lookup_erase _ _⟩
      · dsimp only at hsource
        rw [lookup_erase_eq] at hsource
        split_ifs at hsource
        exact hbounded.sources other source hsource
      · have hboundary := hbounded.boundary
        dsimp only
        split
        · exact hrow
        · split_ifs
          · exact hrow
          · exact hboundary

theorem place_spec [DecidableEq Q] {item : RenderItem Q} {row last : ℤ}
    (hconsistent : Consistent localeCompare known newest) (hbounded : Bounded newest last)
    (hknown : known item) (hturn : isTurnOrClear item = true) (hrow : 1 ≤ row)
    (hlast : row ≤ last) :
    let next := newest.place localeCompare (some item) row
    Consistent localeCompare known next ∧ Bounded next last ∧ KeepsOthers newest next item.itemId ∧
      ∃ source, next.sources.lookup item.itemId = some source ∧ source.item = item ∧
        Judged next source := by
  have hjudged : Judged newest (newest.sourceOf item row) := judged_sourceOf hconsistent hrow
  have hbounds := @bounded_sourceOf _ newest _ item row last hbounded (by omega) hlast
  have hitem : (newest.sourceOf item row).item = item := rfl
  unfold JournalNewestTurn.place
  dsimp only
  rw [hturn, if_neg (by decide)]
  generalize newest.sourceOf item row = source at hjudged hbounds hitem ⊢
  subst hitem
  split_ifs with hrestates
  · obtain ⟨prior, hprior, hsame⟩ := (Option.any_eq_true _ _).mp hrestates
    simp only [JournalNewestTurn.restates, Bool.and_eq_true, decide_eq_true_eq] at hsame
    obtain ⟨⟨⟨hitem, hfailedAt⟩, hordinary⟩, hrelevant⟩ := hsame
    refine ⟨hconsistent, hbounded, ⟨rfl, fun _ _ => rfl⟩, prior, hprior, hitem, ?_⟩
    refine ⟨?_, ?_, ?_⟩
    · rw [hrelevant, hitem]
      exact hjudged.relevant
    · rw [hordinary, hitem]
      exact hjudged.ordinary
    · rw [hfailedAt, hitem]
      exact hjudged.failed
  · refine ⟨hconsistent.store hknown, ⟨fun other held hheld => ?_, hbounded.boundary⟩,
      ⟨rfl, fun other hother => lookup_set_ne _ _ hother⟩,
      source, lookup_set_self _ _ _, rfl, hjudged.congr rfl⟩
    dsimp only at hheld
    rw [lookup_set] at hheld
    split_ifs at hheld
    · rw [← Option.some.inj hheld]
      exact hbounds
    · exact hbounded.sources other held hheld

end Steps

end Wakii.NewestTurn
