import Wakii.Layout.PtyReplacements

/-!
# Normalized layouts bind each terminal once

What a normalized layout keeps, and that normalizing it again changes nothing.
-/

namespace Wakii.PtyOwnership

open Option List OrderedCollections SplitTrees OrderedMap

variable {S : Type}

/-! ## Following replacements -/

section Following

variable {ptyIds : LeafRecord} {active : Option String} {order : List String}
  {replacements : Replacements} {leafId ptyId kept : String} {fuel : ℕ}

def Stays (retained : LeafRecord) (leafId : String) : Prop :=
  retained.lookup leafId = none ∨ retained.lookup leafId = some leafId

instance (retained : LeafRecord) (leafId : String) : Decidable (Stays retained leafId) :=
  inferInstanceAs (Decidable (_ ∨ _))

variable {retained : LeafRecord}

theorem resolve_stays (hstays : Stays retained leafId) :
    resolveRetainedLeafId retained (fuel + 1) leafId = some leafId := by
  unfold resolveRetainedLeafId
  rcases hstays with hnone | hself
  · rw [hnone]
  · rw [hself]
    exact if_pos (Or.inr rfl)

theorem resolve_next {next : String} (hlookup : retained.lookup leafId = some next)
    (hne : next ≠ leafId) (hnamed : next ≠ "") :
    resolveRetainedLeafId retained (fuel + 1) leafId =
      resolveRetainedLeafId retained fuel next := by
  rw [resolveRetainedLeafId, hlookup]
  exact if_neg fun hstop => hstop.elim hnamed hne

theorem Settled.stays (hsettled : Settled ptyIds active order retained ptyId kept) :
    Stays retained kept := by
  rw [Stays, hsettled.owner]
  split_ifs
  · exact Or.inr rfl
  · exact Or.inl rfl

section

variable (hreplaced : Replaced ptyIds active order replacements)
include hreplaced

theorem Replaced.replaced (hmoves : ¬ Stays replacements.retainedLeafIdByRemovedLeafId leafId) :
    ∃ ptyId kept, leafId ∈ order ∧ ptyOf ptyIds leafId = some ptyId ∧
      owner ptyIds active order ptyId = some kept ∧ leafId ≠ kept := by
  have hlookup : ¬ (leafId ∉ order ∨ ptyOf ptyIds leafId = none) := fun hout =>
    hmoves (Or.inl (hreplaced.untouched leafId hout))
  have hmem : leafId ∈ order := by
    by_contra hmem
    exact hlookup (Or.inl hmem)
  obtain ⟨ptyId, hpty⟩ := ne_none_iff_exists'.mp fun hnone => hlookup (Or.inr hnone)
  obtain ⟨kept, hkept⟩ : ∃ kept, owner ptyIds active order ptyId = some kept :=
    exists_owner hmem hpty
  refine ⟨ptyId, kept, hmem, hpty, hkept, fun heq => hmoves ?_⟩
  rw [heq]
  exact (hreplaced.settled ptyId kept hkept).stays

theorem Replaced.stays_iff (hmem : leafId ∈ order) (hpty : ptyOf ptyIds leafId = some ptyId)
    (hkept : owner ptyIds active order ptyId = some kept) :
    Stays replacements.retainedLeafIdByRemovedLeafId leafId ↔ leafId = kept := by
  have hsettled := hreplaced.settled ptyId kept hkept
  refine ⟨fun hstays => ?_, fun heq => heq ▸ hsettled.stays⟩
  by_contra hne
  obtain ⟨next, hlookup, hnext, -, -⟩ := hsettled.others leafId hmem hpty hne
  rcases hstays with hnone | hself
  · rw [hlookup] at hnone
    cases hnone
  · rw [hlookup] at hself
    exact hnext (Option.some.inj hself)

/-- Every pane of a terminal leads to its owner, in two steps at most. -/
theorem Replaced.resolve_owner (hnamed : ∀ leafId ∈ order, leafId ≠ "") (hmem : leafId ∈ order)
    (hpty : ptyOf ptyIds leafId = some ptyId)
    (hkept : owner ptyIds active order ptyId = some kept) :
    resolveRetainedLeafId replacements.retainedLeafIdByRemovedLeafId (fuel + 3) leafId =
      some kept := by
  have hsettled := hreplaced.settled ptyId kept hkept
  have hkept_named := hnamed kept (owner_mem hkept).1
  by_cases hne : leafId = kept
  · rw [hne]
    exact resolve_stays hsettled.stays
  · obtain ⟨next, hlookup, hnext, hnext_pty, hleads⟩ := hsettled.others leafId hmem hpty hne
    by_cases hsame : next = kept
    · rw [hsame] at hlookup hnext
      rw [resolve_next hlookup hnext hkept_named]
      exact resolve_stays hsettled.stays
    · obtain ⟨-, hnext_lookup⟩ := hleads.resolve_left hsame
      have hnext_mem : next ∈ order := by
        by_contra hout
        rw [hreplaced.untouched next (Or.inl hout)] at hnext_lookup
        cases hnext_lookup
      rw [resolve_next hlookup hnext (hnamed next hnext_mem),
        resolve_next hnext_lookup (Ne.symm hsame) hkept_named]
      exact resolve_stays hsettled.stays

theorem Replaced.resolve_total (hnamed : ∀ leafId ∈ order, leafId ≠ "") (leafId : String) :
    ∃ target, ∀ fuel,
      resolveRetainedLeafId replacements.retainedLeafIdByRemovedLeafId (fuel + 3) leafId =
        some target := by
  by_cases hstays : Stays replacements.retainedLeafIdByRemovedLeafId leafId
  · exact ⟨leafId, fun fuel => resolve_stays hstays⟩
  · obtain ⟨ptyId, kept, hmem, hpty, hkept, -⟩ := hreplaced.replaced hstays
    exact ⟨kept, fun fuel => hreplaced.resolve_owner hnamed hmem hpty hkept⟩

end

end Following

/-! ## Pruning the tree -/

section Pruning

/-- The leaves a pruned tree keeps, and the leaves replaced by themselves that were met. -/
@[simp] def prunedLeaves (retained : LeafRecord) :
    List String → List String → List String × List String
  | [], met => ([], met)
  | leafId :: rest, met =>
    match truthy (retained.lookup leafId) with
    | none =>
      let pruned := prunedLeaves retained rest met
      (leafId :: pruned.1, pruned.2)
    | some retainedLeafId =>
      if retainedLeafId = leafId ∧ leafId ∉ met then
        let pruned := prunedLeaves retained rest (leafId :: met)
        (leafId :: pruned.1, pruned.2)
      else
        prunedLeaves retained rest met

variable {retained : LeafRecord} {leafId : String} {leaves met : List String}

theorem prunedLeaves_append (first second met : List String) :
    prunedLeaves retained (first ++ second) met = ((prunedLeaves retained first met).1 ++
        (prunedLeaves retained second (prunedLeaves retained first met).2).1,
        (prunedLeaves retained second (prunedLeaves retained first met).2).2) := by
  induction first generalizing met with
  | nil => rfl
  | cons leafId rest ih =>
    rw [cons_append, prunedLeaves, prunedLeaves]
    cases truthy (retained.lookup leafId) with
    | none => simp only [ih, cons_append]
    | some retainedLeafId =>
      dsimp only
      split_ifs
      · simp only [ih, cons_append]
      · exact ih met

theorem pruneLeaves_eq (tree : SplitTree String S) (met : List String) :
    (SplitTree.leavesOf (pruneLeaves retained tree met).1, (pruneLeaves retained tree met).2) =
      prunedLeaves retained tree.leaves met := by
  induction tree generalizing met with
  | leaf leafId =>
    rw [SplitTree.leaves, pruneLeaves, prunedLeaves]
    cases truthy (retained.lookup leafId) with
    | none => rfl
    | some retainedLeafId =>
      dsimp only
      split_ifs <;> rfl
  | split data first second ihFirst ihSecond =>
    rw [SplitTree.leaves, prunedLeaves_append, ← ihFirst, ← ihSecond, pruneLeaves]
    dsimp only
    rw [SplitTree.leavesOf_joinSides]

theorem prunedLeaves_sublist (leaves met : List String) :
    (prunedLeaves retained leaves met).1.Sublist leaves := by
  induction leaves generalizing met with
  | nil => exact List.Sublist.refl []
  | cons leafId rest ih =>
    unfold prunedLeaves
    cases truthy (retained.lookup leafId) with
    | none => exact (ih met).cons_cons leafId
    | some retainedLeafId =>
      dsimp only
      split_ifs
      · exact (ih _).cons_cons leafId
      · exact (ih met).cons leafId

theorem filter_prunedLeaves {keeps : String → Bool}
    (hkeeps : ∀ leafId, keeps leafId = true → truthy (retained.lookup leafId) = none)
    (leaves met : List String) :
    (prunedLeaves retained leaves met).1.filter keeps = leaves.filter keeps := by
  induction leaves generalizing met with
  | nil => rfl
  | cons leafId rest ih =>
    unfold prunedLeaves
    cases hlookup : truthy (retained.lookup leafId) with
    | none =>
      dsimp only
      rw [filter_cons, filter_cons, ih]
    | some retainedLeafId =>
      have hdrops : ¬ keeps leafId := fun hkeep => by
        rw [hkeeps leafId hkeep] at hlookup
        cases hlookup
      rw [filter_cons_of_neg hdrops]
      dsimp only
      split_ifs
      · rw [filter_cons_of_neg hdrops, ih]
      · exact ih met

theorem count_prunedLeaves (hself : truthy (retained.lookup leafId) = some leafId)
    (leaves met : List String) :
    (prunedLeaves retained leaves met).1.count leafId =
      if leafId ∈ leaves ∧ leafId ∉ met then 1 else 0 := by
  induction leaves generalizing met with
  | nil => simp [prunedLeaves]
  | cons other rest ih =>
    unfold prunedLeaves
    by_cases hother : other = leafId
    · subst hother
      rw [hself]
      dsimp only
      by_cases hmet : other ∈ met
      · rw [if_neg (by simp [hmet]), ih, if_neg (by simp [hmet]), if_neg (by simp [hmet])]
      · rw [if_pos ⟨rfl, hmet⟩, count_cons_self, ih, if_neg (by simp), if_pos ⟨mem_cons_self, hmet⟩]
    · have hmem : leafId ∈ other :: rest ↔ leafId ∈ rest := by simp [Ne.symm hother]
      simp only [hmem]
      cases truthy (retained.lookup other) with
      | none => rw [count_cons_of_ne hother, ih]
      | some retainedLeafId =>
        dsimp only
        by_cases hstay : retainedLeafId = other ∧ other ∉ met
        · have hmet : leafId ∉ other :: met ↔ leafId ∉ met := by simp [Ne.symm hother]
          rw [if_pos hstay, count_cons_of_ne hother, ih]
          simp only [hmet]
        · rw [if_neg hstay]
          exact ih met

end Pruning

/-! ## Every pass ends -/

section Ending

variable {retained : LeafRecord} {resolve : String → Option String}

theorem foldlM_total {A B : Type} {step : B → A → Option B}
    (hstep : ∀ state entry, ∃ later, step state entry = some later) (entries : List A) (state : B) :
    ∃ later, entries.foldlM step state = some later := by
  induction entries generalizing state with
  | nil => exact ⟨state, rfl⟩
  | cons entry rest ih =>
    obtain ⟨next, hnext⟩ := hstep state entry
    rw [foldlM_cons, hnext]
    exact ih next

theorem foldlM_same {A B : Type} {step : B → A → Option B} {entries : List A} {state : B}
    (hstep : ∀ entry ∈ entries, step state entry = some state) :
    entries.foldlM step state = some state := by
  induction entries with
  | nil => rfl
  | cons entry rest ih =>
    rw [foldlM_cons, hstep entry mem_cons_self]
    exact ih fun other hother => hstep other (mem_cons_of_mem entry hother)

variable (hresolve : ∀ leafId, ∃ target, resolve leafId = some target)
include hresolve

theorem coalesceLeafRecord_total (source : Option LeafRecord) :
    ∃ record, coalesceLeafRecord retained resolve source = some record := by
  cases source with
  | none => exact ⟨none, rfl⟩
  | some source =>
    have hentry : ∀ record entry, ∃ later,
        coalesceEntry retained resolve record entry = some later := by
      intro record entry
      obtain ⟨target, htarget⟩ := hresolve entry.1
      rw [coalesceEntry, htarget]
      split_ifs
      · exact ⟨_, rfl⟩
      · exact ⟨_, rfl⟩
    obtain ⟨record, hrecord⟩ := foldlM_total hentry source.pairs
      (source.filterKeys fun leafId => retained.lookup leafId = none ∨
        retained.lookup leafId = some leafId)
    refine ⟨nonEmpty record, ?_⟩
    rw [coalesceLeafRecord]
    exact congrArg (Option.bind · fun record => some (nonEmpty record)) hrecord

theorem coalesceScrollback_total (affected : OrderedSet String) (sources : LeafRecord)
    (source : Option LeafRecord) :
    ∃ record, coalesceScrollback resolve affected sources source = some record := by
  cases source with
  | none => exact ⟨none, rfl⟩
  | some source =>
    have hentry : ∀ record entry, ∃ later,
        unaffectedEntry resolve affected record entry = some later := by
      intro record entry
      obtain ⟨target, htarget⟩ := hresolve entry.1
      rw [unaffectedEntry, htarget]
      exact ⟨_, rfl⟩
    obtain ⟨record, hrecord⟩ := foldlM_total hentry source.pairs ∅
    rw [coalesceScrollback, hrecord]
    exact ⟨_, rfl⟩

theorem coalesceScrollbackRecords_total (buffers refs : Option LeafRecord) (order : List String) :
    ∃ records, coalesceScrollbackRecords retained resolve buffers refs order = some records := by
  have haffected : ∀ (affected : OrderedSet String) removed, ∃ later,
      (do return affected.add (← resolve removed)) = some later := by
    intro affected removed
    obtain ⟨target, htarget⟩ := hresolve removed
    rw [htarget]
    exact ⟨_, rfl⟩
  have hsource : ∀ affected sources leafId, ∃ later,
      sourceOf resolve buffers refs affected sources leafId = some later := by
    intro affected sources leafId
    obtain ⟨target, htarget⟩ := hresolve leafId
    rw [sourceOf, htarget]
    exact ⟨_, rfl⟩
  obtain ⟨affected, haffected⟩ := foldlM_total haffected retained.keys ∅
  obtain ⟨sources, hsources⟩ := foldlM_total (hsource affected) order
    (ownSources buffers refs affected)
  obtain ⟨first, hfirst⟩ := coalesceScrollback_total hresolve affected sources buffers
  obtain ⟨second, hsecond⟩ := coalesceScrollback_total hresolve affected sources refs
  refine ⟨(first, second), ?_⟩
  rw [coalesceScrollbackRecords, haffected, bind_eq_bind, bind_some, hsources,
    bind_eq_bind, bind_some, hfirst, bind_eq_bind, bind_some, hsecond]
  rfl

theorem resolveTruthy_total (leafId : Option String) :
    ∃ target, resolveTruthy resolve leafId = some target := by
  rw [resolveTruthy]
  cases truthy leafId with
  | none => exact ⟨leafId, rfl⟩
  | some named =>
    obtain ⟨target, htarget⟩ := hresolve named
    exact ⟨some target, congrArg (Option.map some) htarget⟩

end Ending

/-! ## The normalized snapshot -/

namespace TerminalLayoutSnapshot

def Named (snapshot : TerminalLayoutSnapshot S) : Prop :=
  ∀ leafId ∈ snapshot.orderedLeafIds, leafId ≠ ""

def Binds (snapshot : TerminalLayoutSnapshot S) (leafId ptyId : String) : Prop :=
  ptyOf snapshot.bindings leafId = some ptyId

end TerminalLayoutSnapshot

section Merging

variable {snapshot after : TerminalLayoutSnapshot S} {leafId ptyId kept : String}

theorem replacements_replaced (hnamed : snapshot.Named) :
    Replaced snapshot.bindings snapshot.ownActiveLeafId snapshot.orderedLeafIds
      snapshot.replacements :=
  replaced_all snapshot.orderedLeafIds replaced_start hnamed

theorem mem_orderedLeafIds : leafId ∈ snapshot.orderedLeafIds ↔
    leafId ∈ snapshot.leafIds ∨ leafId ∈ snapshot.bindings := by
  rw [TerminalLayoutSnapshot.orderedLeafIds, mem_append, mem_filter, decide_eq_true_iff,
    ← AList.mem_keys]
  by_cases hmem : leafId ∈ snapshot.leafIds
  · simp [hmem]
  · simp [hmem]

theorem isSome_lookup_of_binds (hbinds : snapshot.Binds leafId ptyId) :
    snapshot.bindings.lookup leafId = some ptyId :=
  (filter_eq_some_iff.mp hbinds).1

theorem mem_bindings_of_binds (hbinds : snapshot.Binds leafId ptyId) : leafId ∈ snapshot.bindings :=
  AList.lookup_isSome.mp (by rw [isSome_lookup_of_binds hbinds]; rfl)

theorem ordered_of_binds (hbinds : snapshot.Binds leafId ptyId) :
    leafId ∈ snapshot.orderedLeafIds :=
  mem_orderedLeafIds.mpr (Or.inr (mem_bindings_of_binds hbinds))

theorem nonEmpty_getD (record : LeafRecord) : (nonEmpty record).getD ∅ = record := by
  rw [nonEmpty]
  split_ifs with hkeys
  · refine (eq_empty_of_forall_not_mem fun key hkey => ?_).symm
    rw [AList.mem_keys, hkeys] at hkey
    exact absurd hkey not_mem_nil
  · rfl

theorem coalesceLeafRecord_bindings (hnamed : snapshot.Named) (fuel : ℕ) :
    coalesceLeafRecord snapshot.findDuplicatePtyLeafReplacements
      (resolveRetainedLeafId snapshot.findDuplicatePtyLeafReplacements (fuel + 3))
      (some snapshot.bindings) =
      some (nonEmpty (snapshot.bindings.filterKeys
        (Stays snapshot.findDuplicatePtyLeafReplacements ·))) := by
  have hreplaced := replacements_replaced hnamed
  set retained := snapshot.findDuplicatePtyLeafReplacements
  have hentry : ∀ entry ∈ snapshot.bindings.pairs,
      coalesceEntry retained (resolveRetainedLeafId retained (fuel + 3))
        (snapshot.bindings.filterKeys (Stays retained ·)) entry =
        some (snapshot.bindings.filterKeys (Stays retained ·)) := by
    intro entry hmem
    have hkey : entry.1 ∈ snapshot.bindings := AList.lookup_isSome.mp
      (by rw [mem_pairs.mp hmem]; rfl)
    obtain ⟨target, htarget, hkept⟩ : ∃ target,
        resolveRetainedLeafId retained (fuel + 3) entry.1 = some target ∧
          target ∈ snapshot.bindings.filterKeys (Stays retained ·) := by
      by_cases hstays : Stays retained entry.1
      · exact ⟨entry.1, resolve_stays hstays, mem_filterKeys.mpr ⟨decide_eq_true hstays, hkey⟩⟩
      · obtain ⟨ptyId, kept, hin, hpty, howner, -⟩ := hreplaced.replaced hstays
        obtain ⟨-, hbinds⟩ := owner_mem howner
        exact ⟨kept, hreplaced.resolve_owner hnamed hin hpty howner,
          mem_filterKeys.mpr ⟨decide_eq_true (hreplaced.settled ptyId kept howner).stays,
            mem_bindings_of_binds hbinds⟩⟩
    rw [coalesceEntry, htarget]
    split_ifs
    · rw [bind_eq_bind, bind_some, if_pos hkept]
      rfl
    · rfl
  have hfold := foldlM_same hentry
  rw [coalesceLeafRecord]
  exact congrArg (Option.bind · fun record => some (nonEmpty record)) hfold

theorem resolveOwnedActiveLeafId_mem {leaves : List String} {active : Option String}
    {ptyIds : Option LeafRecord} (hleaves : leaves ≠ [])
    (hactive : resolveOwnedActiveLeafId leaves active ptyIds = some leafId) : leafId ∈ leaves := by
  have hfirst : resolveOwnedActiveLeafId.firstOwned leaves ptyIds = some leafId →
      leafId ∈ leaves := by
    intro hfirst
    rcases or_eq_some_iff.mp hfirst with hfound | ⟨-, hhead⟩
    · exact mem_of_find?_eq_some hfound
    · exact mem_of_head? hhead
  rw [resolveOwnedActiveLeafId, if_neg hleaves] at hactive
  cases hnamed : truthy active with
  | none =>
    rw [hnamed] at hactive
    exact hfirst hactive
  | some own =>
    rw [hnamed] at hactive
    dsimp only at hactive
    split_ifs at hactive with hmem
    · exact Option.some.inj hactive ▸ hmem
    · exact hfirst hactive

/-- What a snapshot is normalized to when panes are replaced. -/
structure Merged (snapshot after : TerminalLayoutSnapshot S) : Prop where
  root : after.root = snapshot.root.bind fun root =>
    (pruneLeaves snapshot.findDuplicatePtyLeafReplacements root []).1
  bindings : after.bindings =
    snapshot.bindings.filterKeys (Stays snapshot.findDuplicatePtyLeafReplacements ·)
  active : ∀ leafId, after.leafIds ≠ [] → after.activeLeafId = some leafId → leafId ∈ after.leafIds
  expanded : ∀ leafId, after.expandedLeafId = some leafId → leafId ∈ after.leafIds
  chat : ∀ leafId, after.chatLeafId = some leafId → leafId ∈ after.leafIds

section

variable (hnamed : snapshot.Named) (hkeys : snapshot.findDuplicatePtyLeafReplacements.keys ≠ [])
include hnamed hkeys

theorem ptyIds_of_replaced : snapshot.ptyIdsByLeafId = some snapshot.bindings := by
  cases hptys : snapshot.ptyIdsByLeafId with
  | some record => rw [TerminalLayoutSnapshot.bindings, hptys, getD_some]
  | none =>
    obtain ⟨leafId, hmem⟩ := exists_mem_of_ne_nil _ hkeys
    have hempty : snapshot.bindings = ∅ := by
      rw [TerminalLayoutSnapshot.bindings, hptys, getD_none]
    have hpty : ptyOf snapshot.bindings leafId = none := by
      rw [hempty, ptyOf, AList.lookup_empty, truthy, filter_none]
    have hnone := (replacements_replaced hnamed).untouched leafId (Or.inr hpty)
    exact absurd hmem (AList.lookup_eq_none.mp hnone)

theorem normalize_merged : ∃ after, Merged snapshot after ∧ ∀ fuel,
      normalizeTerminalLayoutPtyOwnership (fuel + 3) snapshot =
        some { snapshot := after, changed := true } := by
  have hreplaced := replacements_replaced hnamed
  have hfuel : ∀ fuel, resolveRetainedLeafId snapshot.findDuplicatePtyLeafReplacements (fuel + 3) =
      resolveRetainedLeafId snapshot.findDuplicatePtyLeafReplacements 3 := by
    refine fun fuel => funext fun leafId => ?_
    obtain ⟨target, htarget⟩ := hreplaced.resolve_total hnamed leafId
    exact (htarget fuel).trans (htarget 0).symm
  have htotal : ∀ leafId, ∃ target,
      resolveRetainedLeafId snapshot.findDuplicatePtyLeafReplacements 3 leafId = some target :=
    fun leafId => (hreplaced.resolve_total hnamed leafId).imp fun _ htarget => htarget 0
  obtain ⟨active, hactive⟩ := resolveTruthy_total htotal snapshot.activeLeafId
  obtain ⟨chat, hchat⟩ := resolveTruthy_total htotal (truthy snapshot.chatLeafId)
  obtain ⟨scrollback, hscrollback⟩ := @coalesceScrollbackRecords_total
    snapshot.findDuplicatePtyLeafReplacements _ htotal snapshot.buffersByLeafId
    snapshot.scrollbackRefsByLeafId snapshot.orderedLeafIds
  obtain ⟨titles, htitles⟩ := @coalesceLeafRecord_total
    snapshot.findDuplicatePtyLeafReplacements _ htotal snapshot.titlesByLeafId
  have hbindings := coalesceLeafRecord_bindings hnamed 0
  rw [← ptyIds_of_replaced hnamed hkeys] at hbindings
  refine ⟨mergedSnapshot snapshot active (nonEmpty (snapshot.bindings.filterKeys
    (Stays snapshot.findDuplicatePtyLeafReplacements ·))) chat scrollback titles,
      ?_, fun fuel => ?_⟩
  · exact
      { root := rfl
        bindings := nonEmpty_getD _
        active := fun leafId hleaves hown => resolveOwnedActiveLeafId_mem hleaves hown
        expanded := fun leafId hexpanded => by
          have hkept := (filter_eq_some_iff.mp hexpanded).2
          rw [Bool.and_eq_true] at hkept
          exact of_decide_eq_true hkept.2
        chat := fun leafId hchat => of_decide_eq_true (filter_eq_some_iff.mp hchat).2 }
  · rw [normalizeTerminalLayoutPtyOwnership, if_neg hkeys, hfuel]
    dsimp only
    simp only [hactive, hbindings, hchat, hscrollback, htitles, bind_eq_bind, bind_some]
    rfl

end

end Merging

/-! ## What a normalized snapshot binds and shows -/

section Pruned

/-- The panes that stay are the ones still bound, and the tree's other leaves are gone. -/
structure Pruned (snapshot after : TerminalLayoutSnapshot S) : Prop where
  binds_iff : ∀ leafId ptyId, after.Binds leafId ptyId ↔
    Stays snapshot.findDuplicatePtyLeafReplacements leafId ∧ snapshot.Binds leafId ptyId
  bindings : ∀ leafId ∈ after.bindings, leafId ∈ snapshot.bindings
  leafIds : after.leafIds =
    (prunedLeaves snapshot.findDuplicatePtyLeafReplacements snapshot.leafIds []).1

variable {snapshot after : TerminalLayoutSnapshot S} {leafId ptyId kept : String}

theorem Merged.pruned (hmerged : Merged snapshot after) : Pruned snapshot after where
  binds_iff leafId ptyId := by
    rw [TerminalLayoutSnapshot.Binds, ptyOf, hmerged.bindings, lookup_filterKeys]
    by_cases hstays : Stays snapshot.findDuplicatePtyLeafReplacements leafId
    · rw [if_pos (decide_eq_true hstays)]
      exact (and_iff_right hstays).symm
    · rw [if_neg (by simpa using hstays)]
      simp [truthy, hstays]
  bindings leafId hmem := by
    rw [hmerged.bindings] at hmem
    exact (mem_filterKeys.mp hmem).2
  leafIds := by
    rw [TerminalLayoutSnapshot.leafIds, hmerged.root, TerminalLayoutSnapshot.leafIds]
    cases snapshot.root with
    | none => rfl
    | some root => exact congrArg Prod.fst (pruneLeaves_eq root [])

theorem prunedLeaves_empty {retained : LeafRecord}
    (hretained : ∀ leafId, retained.lookup leafId = none)
    (leaves met : List String) : (prunedLeaves retained leaves met).1 = leaves := by
  have hfilter := @filter_prunedLeaves retained (fun _ => true)
    (fun leafId _ => by rw [hretained, truthy, filter_none]) leaves met
  rwa [filter_true, filter_true] at hfilter

theorem pruned_self (hkeys : snapshot.findDuplicatePtyLeafReplacements.keys = []) :
    Pruned snapshot snapshot := by
  have hlookup : ∀ leafId, snapshot.findDuplicatePtyLeafReplacements.lookup leafId = none := by
    intro leafId
    rw [AList.lookup_eq_none, AList.mem_keys, hkeys]
    exact not_mem_nil
  exact
    { binds_iff := fun leafId ptyId => (and_iff_right (Or.inl (hlookup leafId))).symm
      bindings := fun leafId hmem => hmem
      leafIds := (prunedLeaves_empty hlookup snapshot.leafIds []).symm }

namespace Pruned

variable (hpruned : Pruned snapshot after) (hnamed : snapshot.Named)
include hpruned hnamed

theorem binds_owner
    (howner : owner snapshot.bindings snapshot.ownActiveLeafId snapshot.orderedLeafIds ptyId =
      some kept) : after.Binds leafId ptyId ↔ leafId = kept := by
  have hreplaced := replacements_replaced hnamed
  rw [hpruned.binds_iff]
  constructor
  · rintro ⟨hstays, hbinds⟩
    exact (hreplaced.stays_iff (ordered_of_binds hbinds) hbinds howner).mp hstays
  · rintro rfl
    exact ⟨(hreplaced.settled ptyId leafId howner).stays, (owner_mem howner).2⟩

theorem owner_of_binds (hbinds : after.Binds leafId ptyId) :
    owner snapshot.bindings snapshot.ownActiveLeafId snapshot.orderedLeafIds ptyId =
      some leafId := by
  have hbefore := ((hpruned.binds_iff leafId ptyId).mp hbinds).2
  obtain ⟨kept, howner⟩ : ∃ kept, owner snapshot.bindings snapshot.ownActiveLeafId
      snapshot.orderedLeafIds ptyId = some kept :=
    exists_owner (ordered_of_binds hbefore) hbefore
  rw [howner, (hpruned.binds_owner hnamed howner).mp hbinds]

theorem mem_leafIds (hmem : leafId ∈ snapshot.leafIds)
    (hstays : Stays snapshot.findDuplicatePtyLeafReplacements leafId) :
    leafId ∈ after.leafIds := by
  rw [hpruned.leafIds]
  rcases hstays with hnone | hself
  · have hfilter := @filter_prunedLeaves snapshot.findDuplicatePtyLeafReplacements
      (fun other => other = leafId)
      (fun other hother => by
        rw [of_decide_eq_true hother, hnone, truthy, filter_none]) snapshot.leafIds []
    refine mem_of_mem_filter (p := fun other => other = leafId) ?_
    rw [hfilter]
    exact mem_filter.mpr ⟨hmem, decide_eq_true rfl⟩
  · have hne : leafId ≠ "" := hnamed leafId (mem_orderedLeafIds.mpr (Or.inl hmem))
    have hcount := @count_prunedLeaves snapshot.findDuplicatePtyLeafReplacements leafId
      (by rw [hself, truthy_of_ne hne]) snapshot.leafIds []
    rw [if_pos ⟨hmem, not_mem_nil⟩] at hcount
    exact count_pos_iff.mp (by rw [hcount]; exact Nat.one_pos)

theorem count_leafIds (hbinds : after.Binds leafId ptyId) : after.leafIds.count leafId ≤ 1 := by
  have howner := hpruned.owner_of_binds hnamed hbinds
  have hsettled := (replacements_replaced hnamed).settled ptyId leafId howner
  rw [hpruned.leafIds]
  by_cases hcount : 1 < snapshot.orderedLeafIds.count leafId
  · have hself : snapshot.findDuplicatePtyLeafReplacements.lookup leafId = some leafId :=
      hsettled.owner.trans (if_pos hcount)
    have hne := hnamed leafId (owner_mem howner).1
    rw [count_prunedLeaves (by rw [hself, truthy_of_ne hne])]
    split_ifs
    · exact Nat.le_refl 1
    · exact Nat.zero_le 1
  · calc (prunedLeaves _ snapshot.leafIds []).1.count leafId
        ≤ snapshot.leafIds.count leafId :=
          (prunedLeaves_sublist snapshot.leafIds []).count_le leafId
      _ ≤ snapshot.orderedLeafIds.count leafId := (sublist_append_left _ _).count_le leafId
      _ ≤ 1 := Nat.le_of_not_lt hcount

theorem named : after.Named := by
  intro leafId hmem
  refine hnamed leafId (mem_orderedLeafIds.mpr ?_)
  rcases mem_orderedLeafIds.mp hmem with htree | hbound
  · rw [hpruned.leafIds] at htree
    exact Or.inl ((prunedLeaves_sublist _ _).subset htree)
  · exact Or.inr (hpruned.bindings leafId hbound)

theorem count_orderedLeafIds (hbinds : after.Binds leafId ptyId) :
    after.orderedLeafIds.count leafId ≤ 1 := by
  rw [TerminalLayoutSnapshot.orderedLeafIds, count_append]
  by_cases hmem : leafId ∈ after.leafIds
  · have hrest : leafId ∉ after.bindings.keys.filter fun leafId => leafId ∉ after.leafIds := by
      simp [hmem]
    rw [count_eq_zero.mpr hrest]
    exact hpruned.count_leafIds hnamed hbinds
  · rw [count_eq_zero.mpr hmem, Nat.zero_add]
    exact nodup_iff_count_le_one.mp (after.bindings.keys_nodup.filter _) leafId

theorem settles : after.findDuplicatePtyLeafReplacements.keys = [] := by
  have hreplaced := replacements_replaced (hpruned.named hnamed)
  refine eq_nil_iff_forall_not_mem.mpr fun leafId hmem => ?_
  have hlookup : after.findDuplicatePtyLeafReplacements.lookup leafId ≠ none := fun hnone =>
    AList.lookup_eq_none.mp hnone hmem
  have hin : ¬ (leafId ∉ after.orderedLeafIds ∨ ptyOf after.bindings leafId = none) := fun hout =>
    hlookup (hreplaced.untouched leafId hout)
  obtain ⟨ptyId, hbinds⟩ := ne_none_iff_exists'.mp fun hnone => hin (Or.inr hnone)
  obtain ⟨kept, howner⟩ : ∃ kept, owner after.bindings after.ownActiveLeafId
      after.orderedLeafIds ptyId = some kept :=
    exists_owner (ordered_of_binds hbinds) hbinds
  have hsame : kept = leafId := by
    have hkept := hpruned.owner_of_binds hnamed (owner_mem howner).2
    rw [hpruned.owner_of_binds hnamed hbinds] at hkept
    exact (Option.some.inj hkept).symm
  rw [hsame] at howner
  refine hlookup ((hreplaced.settled ptyId leafId howner).owner.trans (if_neg ?_))
  exact Nat.not_lt.mpr (hpruned.count_orderedLeafIds hnamed hbinds)

end Pruned

end Pruned

section Ownership

namespace TerminalLayoutSnapshot

def duplicated (snapshot : TerminalLayoutSnapshot S) (leafId : String) : Bool :=
  match ptyOf snapshot.bindings leafId with
  | none => false
  | some ptyId => 1 < (holders snapshot.bindings snapshot.orderedLeafIds ptyId).length

end TerminalLayoutSnapshot

/-- Each terminal is bound to one leaf, and the tree keeps what is not duplicated. -/
structure OwnsOnce (before after : TerminalLayoutSnapshot S) : Prop where
  once : ∀ first second ptyId, after.Binds first ptyId → after.Binds second ptyId → first = second
  bound : ∀ ptyId, (∃ leafId, after.Binds leafId ptyId) ↔ ∃ leafId, before.Binds leafId ptyId
  shown : ∀ ptyId keeper,
    owner before.bindings before.activeLeafId before.leafIds ptyId = some keeper →
      keeper ∈ after.leafIds ∧ after.Binds keeper ptyId
  leaves : after.leafIds.Sublist before.leafIds
  kept : (after.leafIds.filter fun leafId => !before.duplicated leafId) =
    before.leafIds.filter fun leafId => !before.duplicated leafId

/-- The leaves a snapshot names are in its tree, except that a layout without a tree may name an
active one. -/
structure NamesLeaves (before after : TerminalLayoutSnapshot S) : Prop where
  active : before.root ≠ none → ∀ leafId, after.activeLeafId = some leafId → leafId ∈ after.leafIds
  expanded : ∀ leafId, after.expandedLeafId = some leafId → leafId ∈ after.leafIds
  chat : ∀ leafId, after.chatLeafId = some leafId → leafId ∈ after.leafIds

variable {snapshot after : TerminalLayoutSnapshot S} {leafId ptyId keeper : String}

theorem root_of_mem (hmem : leafId ∈ snapshot.leafIds) : ∃ root, snapshot.root = some root := by
  cases hroot : snapshot.root with
  | none =>
    rw [TerminalLayoutSnapshot.leafIds, hroot] at hmem
    exact absurd hmem not_mem_nil
  | some root => exact ⟨root, rfl⟩

theorem ownActiveLeafId_eq (hnamed : snapshot.Named) (htree : snapshot.leafIds ≠ []) :
    snapshot.ownActiveLeafId = some leafId ↔
      snapshot.activeLeafId = some leafId ∧ leafId ∈ snapshot.leafIds := by
  obtain ⟨first, hfirst⟩ := exists_mem_of_ne_nil _ htree
  obtain ⟨root, hroot⟩ := root_of_mem hfirst
  rw [TerminalLayoutSnapshot.ownActiveLeafId, hroot]
  cases hactive : snapshot.activeLeafId with
  | none => simp [truthy]
  | some active =>
    by_cases hempty : active = ""
    · have hout : "" ∉ snapshot.leafIds := fun hmem =>
        hnamed "" (mem_orderedLeafIds.mpr (Or.inl hmem)) rfl
      subst hempty
      have hfalsy : truthy (some "") = none := rfl
      rw [hfalsy]
      constructor
      · rintro ⟨⟩
      · rintro ⟨heq, hmem⟩
        rw [← Option.some.inj heq] at hmem
        exact absurd hmem hout
    · rw [truthy_of_ne hempty]
      dsimp only
      split_ifs with hmem
      · constructor
        · exact fun heq => ⟨heq, Option.some.inj heq ▸ hmem⟩
        · exact fun heq => heq.1
      · constructor
        · rintro ⟨⟩
        · rintro ⟨heq, hin⟩
          rw [← Option.some.inj heq] at hin
          exact absurd hin hmem

theorem owner_in_tree (hnamed : snapshot.Named)
    (howner : owner snapshot.bindings snapshot.activeLeafId snapshot.leafIds ptyId = some keeper) :
    owner snapshot.bindings snapshot.ownActiveLeafId snapshot.orderedLeafIds ptyId =
      some keeper := by
  obtain ⟨hkeeper, hbinds⟩ := owner_mem howner
  have htree := ne_nil_of_mem hkeeper
  by_cases hactive : ∃ active, snapshot.activeLeafId = some active ∧
      active ∈ holders snapshot.bindings snapshot.leafIds ptyId
  · obtain ⟨active, hactive, hholder⟩ := hactive
    obtain ⟨hmem, hpty⟩ := mem_holders.mp hholder
    rw [owner_active hmem hpty hactive] at howner
    rw [owner_active (mem_orderedLeafIds.mpr (Or.inl hmem)) hpty
      ((ownActiveLeafId_eq hnamed htree).mpr ⟨hactive, hmem⟩), howner]
  · rw [owner_first fun leafId hleaf hin => hactive ⟨leafId, hleaf, hin⟩] at howner
    rw [owner_first fun leafId hleaf hin => ?_]
    · rw [holders, TerminalLayoutSnapshot.orderedLeafIds, filter_append, head?_append,
        show ((snapshot.leafIds.filter fun leafId =>
          ptyOf snapshot.bindings leafId = some ptyId).head?) = some keeper from howner,
        some_or]
    · obtain ⟨hown, hmem⟩ := (ownActiveLeafId_eq hnamed htree).mp hleaf
      exact hactive ⟨leafId, hown, mem_holders.mpr ⟨hmem, (mem_holders.mp hin).2⟩⟩

theorem lookup_of_not_duplicated (hnamed : snapshot.Named)
    (honce : snapshot.duplicated leafId = false) :
    snapshot.findDuplicatePtyLeafReplacements.lookup leafId = none := by
  have hreplaced := replacements_replaced hnamed
  by_cases hout : leafId ∉ snapshot.orderedLeafIds ∨ ptyOf snapshot.bindings leafId = none
  · exact hreplaced.untouched leafId hout
  · have hmem : leafId ∈ snapshot.orderedLeafIds := by
      by_contra hmem
      exact hout (Or.inl hmem)
    obtain ⟨ptyId, hpty⟩ := ne_none_iff_exists'.mp fun hnone => hout (Or.inr hnone)
    have hlength : (holders snapshot.bindings snapshot.orderedLeafIds ptyId).length ≤ 1 := by
      rw [TerminalLayoutSnapshot.duplicated, hpty] at honce
      exact Nat.le_of_not_lt (of_decide_eq_false honce)
    obtain ⟨kept, howner⟩ : ∃ kept, owner snapshot.bindings snapshot.ownActiveLeafId
        snapshot.orderedLeafIds ptyId = some kept :=
      exists_owner hmem hpty
    have hholder := mem_holders.mpr ⟨hmem, hpty⟩
    have hkept := mem_holders.mpr (owner_mem howner)
    have hsame : leafId = kept := by
      obtain ⟨only, honly⟩ := length_eq_one_iff.mp
        (Nat.le_antisymm hlength (length_pos_of_mem hholder))
      rw [honly, mem_singleton] at hholder hkept
      rw [hholder, hkept]
    have hcount : snapshot.orderedLeafIds.count leafId ≤ 1 := by
      calc snapshot.orderedLeafIds.count leafId
          = (holders snapshot.bindings snapshot.orderedLeafIds ptyId).count leafId := by
            rw [holders, count_filter (by simpa using hpty)]
        _ ≤ (holders snapshot.bindings snapshot.orderedLeafIds ptyId).length := count_le_length
        _ ≤ 1 := hlength
    have hsettled := hreplaced.settled ptyId kept howner
    rw [← hsame] at hsettled
    exact hsettled.owner.trans (if_neg (Nat.not_lt.mpr hcount))

theorem Pruned.ownsOnce (hpruned : Pruned snapshot after) (hnamed : snapshot.Named) :
    OwnsOnce snapshot after where
  once first second ptyId hfirst hsecond := by
    have howner := hpruned.owner_of_binds hnamed hsecond
    exact (hpruned.binds_owner hnamed howner).mp hfirst
  bound ptyId := by
    constructor
    · rintro ⟨leafId, hbinds⟩
      exact ⟨leafId, ((hpruned.binds_iff leafId ptyId).mp hbinds).2⟩
    · rintro ⟨leafId, hbinds⟩
      obtain ⟨kept, howner⟩ : ∃ kept, owner snapshot.bindings snapshot.ownActiveLeafId
          snapshot.orderedLeafIds ptyId = some kept :=
        exists_owner (ordered_of_binds hbinds) hbinds
      exact ⟨kept, (hpruned.binds_owner hnamed howner).mpr rfl⟩
  shown ptyId keeper howner := by
    have hwhole := owner_in_tree hnamed howner
    have hsettled := (replacements_replaced hnamed).settled ptyId keeper hwhole
    exact ⟨hpruned.mem_leafIds hnamed (owner_mem howner).1 hsettled.stays,
      (hpruned.binds_owner hnamed hwhole).mpr rfl⟩
  leaves := by
    rw [hpruned.leafIds]
    exact prunedLeaves_sublist _ _
  kept := by
    rw [hpruned.leafIds]
    refine filter_prunedLeaves (fun leafId hkeep => ?_) snapshot.leafIds []
    rw [lookup_of_not_duplicated hnamed (by simpa using hkeep), truthy, filter_none]

theorem Pruned.leafIds_ne_nil (hpruned : Pruned snapshot after) (hnamed : snapshot.Named)
    (hroot : snapshot.root ≠ none) : after.leafIds ≠ [] := by
  have htree : snapshot.leafIds ≠ [] := fun hempty =>
    hroot (SplitTree.leavesOf_eq_nil.mp hempty)
  obtain ⟨leafId, hmem⟩ := exists_mem_of_ne_nil _ htree
  cases hpty : ptyOf snapshot.bindings leafId with
  | none =>
    have hnone := (replacements_replaced hnamed).untouched leafId (Or.inr hpty)
    exact ne_nil_of_mem (hpruned.mem_leafIds hnamed hmem (Or.inl hnone))
  | some ptyId =>
    obtain ⟨keeper, howner⟩ : ∃ keeper, owner snapshot.bindings snapshot.activeLeafId
        snapshot.leafIds ptyId = some keeper :=
      exists_owner hmem hpty
    exact ne_nil_of_mem ((hpruned.ownsOnce hnamed).shown ptyId keeper howner).1

/-- Normalizing a layout ends and leaves each terminal with one pane: the active one if it holds
it, else the first in the tree.  A layout that needs nothing is returned as it is, and normalizing
again changes nothing. -/
theorem normalize_owns_once (snapshot : TerminalLayoutSnapshot S) (hnamed : snapshot.Named) :
    ∃ normalized : Normalization S,
      (∀ fuel, normalizeTerminalLayoutPtyOwnership (fuel + 3) snapshot = some normalized) ∧
      OwnsOnce snapshot normalized.snapshot ∧
      (if normalized.changed then NamesLeaves snapshot normalized.snapshot
        else normalized.snapshot = snapshot) ∧
      ∀ fuel, normalizeTerminalLayoutPtyOwnership fuel normalized.snapshot =
        some { snapshot := normalized.snapshot, changed := false } := by
  by_cases hkeys : snapshot.findDuplicatePtyLeafReplacements.keys = []
  · have hunchanged : ∀ fuel, normalizeTerminalLayoutPtyOwnership fuel snapshot =
        some { snapshot, changed := false } := fun fuel => by
      rw [normalizeTerminalLayoutPtyOwnership, if_pos hkeys]
    exact ⟨{ snapshot, changed := false }, fun fuel => hunchanged (fuel + 3),
      (pruned_self hkeys).ownsOnce hnamed, rfl, hunchanged⟩
  · obtain ⟨after, hmerged, hnormalized⟩ := normalize_merged hnamed hkeys
    have hpruned := hmerged.pruned
    refine ⟨{ snapshot := after, changed := true }, hnormalized, hpruned.ownsOnce hnamed, ?_, ?_⟩
    · exact
        { active := fun hroot leafId => hmerged.active leafId (hpruned.leafIds_ne_nil hnamed hroot)
          expanded := hmerged.expanded
          chat := hmerged.chat }
    · intro fuel
      rw [normalizeTerminalLayoutPtyOwnership, if_pos (hpruned.settles hnamed)]

def plainSnapshot (root : Option (SplitTree String Unit)) (activeLeafId : Option String)
    (bindings : List (String × String)) : TerminalLayoutSnapshot Unit where
  root
  activeLeafId
  expandedLeafId := none
  chatLeafId := none
  ptyIdsByLeafId := some (OrderedMap.ofPairs bindings)
  buffersByLeafId := none
  scrollbackRefsByLeafId := none
  titlesByLeafId := none
  lastGridsByLeafId := none

def sharedSnapshot : TerminalLayoutSnapshot Unit :=
  plainSnapshot (some (.split () (.leaf "first") (.leaf "second"))) (some "second")
    [("first", "terminal"), ("second", "terminal")]

theorem normalize_owns_once_shared : ∃ normalized : Normalization Unit,
      (∀ fuel, normalizeTerminalLayoutPtyOwnership (fuel + 3) sharedSnapshot = some normalized) ∧
        OwnsOnce sharedSnapshot normalized.snapshot := by
  have hnamed : sharedSnapshot.Named := by
    unfold TerminalLayoutSnapshot.Named
    decide
  obtain ⟨normalized, hnormalized, howns, -⟩ := normalize_owns_once sharedSnapshot hnamed
  exact ⟨normalized, hnormalized, howns⟩

/-- A layout without duplicates keeps an active leaf its tree does not have, a layout without a
tree keeps its active leaf where panes are merged, and a terminal of a leaf without a name keeps
two panes. -/
theorem normalize_keeps_stale_names : (∀ fuel, normalizeTerminalLayoutPtyOwnership fuel
      (plainSnapshot (some (.leaf "first")) (some "gone") []) =
        some
          { snapshot := plainSnapshot (some (.leaf "first")) (some "gone") [], changed := false }) ∧
      "gone" ∉ (plainSnapshot (some (.leaf "first")) (some "gone") []).leafIds ∧
      (normalizeTerminalLayoutPtyOwnership 3 (plainSnapshot none (some "first")
        [("first", "terminal"), ("second", "terminal")])).map
          (fun normalized => (normalized.snapshot.activeLeafId, normalized.snapshot.leafIds,
            normalized.changed)) = some (some "first", [], true) ∧
      (normalizeTerminalLayoutPtyOwnership 3 (plainSnapshot
        (some (.split () (.leaf "") (.leaf "first"))) none
        [("", "terminal"), ("first", "terminal")])).map
          (fun normalized => normalized.snapshot.bindings.pairs) =
            some [("", "terminal"), ("first", "terminal")] := by
  refine ⟨fun fuel => ?_, by decide, by decide, by decide⟩
  rw [normalizeTerminalLayoutPtyOwnership, if_pos (by decide)]

end Ownership

end Wakii.PtyOwnership
