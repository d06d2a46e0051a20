import Wakii.Layout.PtyOwnership

/-!
# Which pane the loop keeps for each terminal

After the loop has met some panes, a terminal's owner among them is the active
pane if it holds it, else the first that does.  An owner that was met once is
not replaced, one met again is replaced by itself, and every other holder leads
to it, in two steps at most.
-/

namespace Wakii.PtyOwnership

open Option List OrderedCollections OrderedMap

section Owners

variable (ptyIds : LeafRecord) (active : Option String)

def ptyOf (leafId : String) : Option String :=
  truthy (ptyIds.lookup leafId)

def holders (order : List String) (ptyId : String) : List String :=
  order.filter fun leafId => ptyOf ptyIds leafId = some ptyId

def owner (order : List String) (ptyId : String) : Option String :=
  (active.filter fun leafId => leafId ∈ holders ptyIds order ptyId).or
    (holders ptyIds order ptyId).head?

variable {ptyIds active} {order : List String} {leafId ptyId kept : String}

theorem mem_holders : leafId ∈ holders ptyIds order ptyId ↔
    leafId ∈ order ∧ ptyOf ptyIds leafId = some ptyId := by
  rw [holders, mem_filter, decide_eq_true_iff]

theorem owner_mem (howner : owner ptyIds active order ptyId = some kept) :
    kept ∈ order ∧ ptyOf ptyIds kept = some ptyId := by
  rw [← mem_holders]
  rcases or_eq_some_iff.mp howner with hactive | ⟨-, hfirst⟩
  · exact of_decide_eq_true (filter_eq_some_iff.mp hactive).2
  · exact mem_of_head? hfirst

theorem exists_owner (hmem : leafId ∈ order) (hpty : ptyOf ptyIds leafId = some ptyId) :
    ∃ kept, owner ptyIds active order ptyId = some kept := by
  have hholders : holders ptyIds order ptyId ≠ [] := ne_nil_of_mem (mem_holders.mpr ⟨hmem, hpty⟩)
  obtain ⟨first, rest, hfirst⟩ := exists_cons_of_ne_nil hholders
  rw [← isSome_iff_exists, owner, isSome_or, hfirst, Bool.or_eq_true]
  exact Or.inr rfl

theorem owner_active (hmem : leafId ∈ order) (hpty : ptyOf ptyIds leafId = some ptyId)
    (hactive : active = some leafId) : owner ptyIds active order ptyId = some leafId := by
  have hholder := mem_holders.mpr ⟨hmem, hpty⟩
  rw [owner, hactive, filter_some, if_pos (decide_eq_true hholder), some_or]

theorem owner_first (hactive : ∀ leafId, active = some leafId →
    leafId ∉ holders ptyIds order ptyId) :
    owner ptyIds active order ptyId = (holders ptyIds order ptyId).head? := by
  have hnone : (active.filter fun leafId => leafId ∈ holders ptyIds order ptyId) = none := by
    rw [filter_eq_none_iff]
    exact fun leafId hleaf => by simpa using hactive leafId hleaf
  rw [owner, hnone, none_or]

theorem holders_concat_of_ne (hpty : ptyOf ptyIds leafId ≠ some ptyId) :
    holders ptyIds (order ++ [leafId]) ptyId = holders ptyIds order ptyId := by
  rw [holders, filter_append, filter_cons_of_neg (by simpa using hpty), filter_nil,
    append_nil, holders]

theorem owner_concat_of_ne (hpty : ptyOf ptyIds leafId ≠ some ptyId) :
    owner ptyIds active (order ++ [leafId]) ptyId = owner ptyIds active order ptyId := by
  rw [owner, holders_concat_of_ne hpty, owner]

theorem owner_concat_active (hpty : ptyOf ptyIds leafId = some ptyId)
    (hactive : active = some leafId) :
    owner ptyIds active (order ++ [leafId]) ptyId = some leafId :=
  owner_active (mem_append_right order (mem_singleton.mpr rfl)) hpty hactive

theorem owner_concat_other (hpty : ptyOf ptyIds leafId = some ptyId)
    (hactive : active ≠ some leafId) :
    owner ptyIds active (order ++ [leafId]) ptyId =
      (owner ptyIds active order ptyId).or (some leafId) := by
  have hholders : holders ptyIds (order ++ [leafId]) ptyId =
      holders ptyIds order ptyId ++ [leafId] := by
    rw [holders, filter_append, filter_cons_of_pos (by simpa using hpty), filter_nil, holders]
  have hfilter : (active.filter fun other => other ∈ holders ptyIds (order ++ [leafId]) ptyId) =
      active.filter fun other => other ∈ holders ptyIds order ptyId := by
    cases active with
    | none => rfl
    | some other =>
      have hne : other ≠ leafId := fun heq => hactive (congrArg some heq)
      rw [filter_some, filter_some, hholders]
      simp [hne]
  rw [owner, hfilter, hholders, head?_append, ← Option.or_assoc, owner]
  rfl

end Owners

/-- How the panes of one terminal are replaced: the owner by nothing or by itself, the others by
a pane that is the owner or is replaced by it. -/
structure Settled (ptyIds : LeafRecord) (active : Option String) (order : List String)
    (retained : LeafRecord) (ptyId kept : String) : Prop where
  owner : retained.lookup kept = if 1 < order.count kept then some kept else none
  others : ∀ leafId ∈ order, ptyOf ptyIds leafId = some ptyId → leafId ≠ kept →
    ∃ next, retained.lookup leafId = some next ∧ next ≠ leafId ∧ ptyOf ptyIds next = some ptyId ∧
      (next = kept ∨ active = some kept ∧ retained.lookup next = some kept)

/-- What holds after the loop has met the panes of an order. -/
structure Replaced (ptyIds : LeafRecord) (active : Option String) (order : List String)
    (replacements : Replacements) : Prop where
  owners : ∀ ptyId, replacements.retainedLeafIdByPtyId.lookup ptyId =
    owner ptyIds active order ptyId
  untouched : ∀ leafId, leafId ∉ order ∨ ptyOf ptyIds leafId = none →
    replacements.retainedLeafIdByRemovedLeafId.lookup leafId = none
  settled : ∀ ptyId kept, owner ptyIds active order ptyId = some kept →
    Settled ptyIds active order replacements.retainedLeafIdByRemovedLeafId ptyId kept

variable {ptyIds : LeafRecord} {active : Option String} {order : List String}
  {retained later : LeafRecord} {replacements : Replacements} {leafId ptyId kept : String}

theorem count_concat_of_ne (hne : leafId ≠ kept) :
    (order ++ [leafId]).count kept = order.count kept := by
  rw [count_append, count_singleton, if_neg (by simpa using hne), Nat.add_zero]

theorem Settled.frame (hsettled : Settled ptyIds active order retained ptyId kept)
    (hkept : ptyOf ptyIds kept = some ptyId) (hpty : ptyOf ptyIds leafId ≠ some ptyId)
    (hlater : ∀ other, ptyOf ptyIds other = some ptyId →
      later.lookup other = retained.lookup other) :
    Settled ptyIds active (order ++ [leafId]) later ptyId kept where
  owner := by
    have hne : leafId ≠ kept := fun heq => hpty (heq ▸ hkept)
    rw [hlater kept hkept, hsettled.owner, count_concat_of_ne hne]
  others other hmem hother hne := by
    have hmem' : other ∈ order := by
      rcases mem_append.mp hmem with hmem | hmem
      · exact hmem
      · exact absurd (mem_singleton.mp hmem ▸ hother) hpty
    obtain ⟨next, hlookup, hnext, hnext_pty, hleads⟩ := hsettled.others other hmem' hother hne
    refine ⟨next, (hlater other hother).trans hlookup, hnext, hnext_pty, ?_⟩
    rw [hlater next hnext_pty]
    exact hleads

theorem truthy_of_ne {text : String} (hne : text ≠ "") : truthy (some text) = some text := by
  rw [truthy, filter_some, if_pos (decide_eq_true hne)]

theorem replaced_start : Replaced ptyIds active []
    { retainedLeafIdByPtyId := ∅, retainedLeafIdByRemovedLeafId := ∅ } where
  owners ptyId := by
    rw [owner, holders, filter_nil]
    simp
  untouched leafId _ := AList.lookup_empty leafId
  settled ptyId kept howner := absurd (owner_mem howner).1 not_mem_nil

theorem Replaced.unbound (hreplaced : Replaced ptyIds active order replacements)
    (hpty : ptyOf ptyIds leafId = none) :
    Replaced ptyIds active (order ++ [leafId]) replacements where
  owners ptyId := by
    rw [hreplaced.owners, owner_concat_of_ne (by rw [hpty]; rintro ⟨⟩)]
  untouched other hother := by
    refine hreplaced.untouched other (hother.imp_left fun hmem hin => ?_)
    exact hmem (mem_append_left _ hin)
  settled ptyId kept howner := by
    have hne : ptyOf ptyIds leafId ≠ some ptyId := by
      rw [hpty]
      rintro ⟨⟩
    rw [owner_concat_of_ne hne] at howner
    exact (hreplaced.settled ptyId kept howner).frame (owner_mem howner).2 hne fun _ _ => rfl

/-- A round that changes only replacements of one terminal's panes, to what it owes it. -/
theorem Replaced.met (kept : String) (hreplaced : Replaced ptyIds active order replacements)
    (hpty : ptyOf ptyIds leafId = some ptyId) {later : Replacements}
    (hkept : owner ptyIds active (order ++ [leafId]) ptyId = some kept)
    (howner : ∀ other, later.retainedLeafIdByPtyId.lookup other =
      if other = ptyId then some kept else replacements.retainedLeafIdByPtyId.lookup other)
    (hframe : ∀ other, ptyOf ptyIds other ≠ some ptyId ∨ other ∉ order ++ [leafId] →
      later.retainedLeafIdByRemovedLeafId.lookup other =
        replacements.retainedLeafIdByRemovedLeafId.lookup other)
    (hsettled : Settled ptyIds active (order ++ [leafId]) later.retainedLeafIdByRemovedLeafId
      ptyId kept) :
    Replaced ptyIds active (order ++ [leafId]) later where
  owners other := by
    rw [howner]
    split_ifs with hother
    · rw [hother, hkept]
    · have hne : ptyOf ptyIds leafId ≠ some other := by
        rw [hpty]
        exact fun heq => hother (Option.some.inj heq).symm
      rw [owner_concat_of_ne hne, hreplaced.owners]
  untouched other hother := by
    rcases hother with hmem | hnone
    · rw [hframe other (Or.inr hmem)]
      exact hreplaced.untouched other (Or.inl fun hin => hmem (mem_append_left _ hin))
    · rw [hframe other (Or.inl (by rw [hnone]; rintro ⟨⟩))]
      exact hreplaced.untouched other (Or.inr hnone)
  settled other keeper hkeeper := by
    by_cases hother : other = ptyId
    · rw [hother, hkept] at hkeeper
      rw [hother, ← Option.some.inj hkeeper]
      exact hsettled
    · have hne : ptyOf ptyIds leafId ≠ some other := by
        rw [hpty]
        exact fun heq => hother (Option.some.inj heq).symm
      rw [owner_concat_of_ne hne] at hkeeper
      refine (hreplaced.settled other keeper hkeeper).frame (owner_mem hkeeper).2 hne
        fun leaf hleaf => hframe leaf (Or.inl ?_)
      rw [hleaf]
      exact fun heq => hother (Option.some.inj heq)

theorem Replaced.first (hreplaced : Replaced ptyIds active order replacements)
    (hpty : ptyOf ptyIds leafId = some ptyId) (hnone : owner ptyIds active order ptyId = none) :
    Replaced ptyIds active (order ++ [leafId])
      { replacements with
        retainedLeafIdByPtyId := replacements.retainedLeafIdByPtyId.set ptyId leafId } := by
  have hunmet : ∀ other ∈ order, ptyOf ptyIds other ≠ some ptyId := fun other hmem hother => by
    obtain ⟨kept, hkept⟩ : ∃ kept, owner ptyIds active order ptyId = some kept :=
      exists_owner hmem hother
    rw [hnone] at hkept
    cases hkept
  have hfresh : leafId ∉ order := fun hmem => hunmet leafId hmem hpty
  refine hreplaced.met leafId hpty ?_ (fun other => ?_) (fun other _ => rfl) ?_
  · by_cases hactive : active = some leafId
    · exact owner_concat_active hpty hactive
    · rw [owner_concat_other hpty hactive, hnone, none_or]
  · exact lookup_set _ _ _ _
  · constructor
    · have hcount : (order ++ [leafId]).count leafId = 1 := by
        rw [count_append, count_eq_zero.mpr hfresh, count_singleton_self]
      rw [hcount, if_neg (Nat.lt_irrefl 1)]
      exact hreplaced.untouched leafId (Or.inl hfresh)
    · intro other hmem hother hne
      rcases mem_append.mp hmem with hmem | hmem
      · exact absurd hother (hunmet other hmem)
      · exact absurd (mem_singleton.mp hmem) hne

theorem mem_concat_of_ne (hmem : leafId ∈ order ++ [kept]) (hne : leafId ≠ kept) :
    leafId ∈ order := by
  rcases mem_append.mp hmem with hmem | hmem
  · exact hmem
  · exact absurd (mem_singleton.mp hmem) hne

theorem Settled.again (hsettled : Settled ptyIds active order retained ptyId kept)
    (hmem : kept ∈ order) :
    Settled ptyIds active (order ++ [kept]) (retained.set kept kept) ptyId kept where
  owner := by
    have hcount : 1 < (order ++ [kept]).count kept := by
      rw [count_append, count_singleton_self]
      exact Nat.succ_lt_succ (count_pos_iff.mpr hmem)
    rw [lookup_set_self, if_pos hcount]
  others other hother hpty hne := by
    obtain ⟨next, hlookup, hnext, hnext_pty, hleads⟩ :=
      hsettled.others other (mem_concat_of_ne hother hne) hpty hne
    refine ⟨next, ?_, hnext, hnext_pty, ?_⟩
    · rw [lookup_set_ne _ _ hne, hlookup]
    · rcases hleads with hkept | ⟨hactive, hkept⟩
      · exact Or.inl hkept
      · by_cases hsame : next = kept
        · exact Or.inl hsame
        · exact Or.inr ⟨hactive, by rw [lookup_set_ne _ _ hsame, hkept]⟩

theorem lookup_set_frame {key value other : String} (hkey : key ∈ order ++ [leafId])
    (hpty : ptyOf ptyIds key = some ptyId)
    (hother : ptyOf ptyIds other ≠ some ptyId ∨ other ∉ order ++ [leafId]) :
    (retained.set key value).lookup other = retained.lookup other := by
  refine lookup_set_ne _ _ fun heq => ?_
  rcases hother with hother | hother
  · exact hother (heq ▸ hpty)
  · exact hother (heq ▸ hkey)

section

variable (hreplaced : Replaced ptyIds active order replacements)
include hreplaced

/-- The active pane takes over a terminal, from another pane or from itself. -/
theorem Replaced.takeOver (hpty : ptyOf ptyIds leafId = some ptyId) (hactive : active = some leafId)
    (howner : owner ptyIds active order ptyId = some kept) :
    Replaced ptyIds active (order ++ [leafId])
      { retainedLeafIdByPtyId := replacements.retainedLeafIdByPtyId.set ptyId leafId
        retainedLeafIdByRemovedLeafId :=
          replacements.retainedLeafIdByRemovedLeafId.set kept leafId } := by
  obtain ⟨hmem, hkept⟩ := owner_mem howner
  have hsettled := hreplaced.settled ptyId kept howner
  refine hreplaced.met leafId hpty (owner_concat_active hpty hactive)
    (fun other => lookup_set _ _ _ _)
    (fun other hother => lookup_set_frame (mem_append_left _ hmem) hkept hother) ?_
  by_cases hsame : kept = leafId
  · rw [← hsame]
    exact hsettled.again hmem
  · have hfresh : leafId ∉ order := fun hin => by
      rw [owner_active hin hpty hactive] at howner
      exact hsame (Option.some.inj howner).symm
    constructor
    · have hcount : (order ++ [leafId]).count leafId = 1 := by
        rw [count_append, count_eq_zero.mpr hfresh, count_singleton_self]
      rw [hcount, if_neg (Nat.lt_irrefl 1), lookup_set_ne _ _ (Ne.symm hsame)]
      exact hreplaced.untouched leafId (Or.inl hfresh)
    · intro other hother hother_pty hne
      by_cases hold : other = kept
      · refine ⟨leafId, ?_, hne.symm, hpty, Or.inl rfl⟩
        rw [hold, lookup_set_self]
      · obtain ⟨next, hlookup, hnext, hnext_pty, hleads⟩ :=
          hsettled.others other (mem_concat_of_ne hother hne) hother_pty hold
        refine ⟨next, ?_, hnext, hnext_pty, Or.inr ⟨hactive, ?_⟩⟩
        · rw [lookup_set_ne _ _ hold, hlookup]
        · rcases hleads with hfirst | ⟨hother_active, -⟩
          · rw [hfirst, lookup_set_self]
          · rw [hactive] at hother_active
            exact absurd (Option.some.inj hother_active).symm hsame

/-- Another pane of a kept terminal is replaced by its owner. -/
theorem Replaced.replace (hpty : ptyOf ptyIds leafId = some ptyId) (hactive : active ≠ some leafId)
    (howner : owner ptyIds active order ptyId = some kept) :
    Replaced ptyIds active (order ++ [leafId])
      { replacements with
        retainedLeafIdByRemovedLeafId :=
          replacements.retainedLeafIdByRemovedLeafId.set leafId kept } := by
  obtain ⟨hmem, hkept⟩ := owner_mem howner
  have hsettled := hreplaced.settled ptyId kept howner
  have hlast : leafId ∈ order ++ [leafId] := mem_append_right order (mem_singleton.mpr rfl)
  refine hreplaced.met kept hpty ?_ (fun other => ?_)
    (fun other hother => lookup_set_frame hlast hpty hother) ?_
  · rw [owner_concat_other hpty hactive, howner, some_or]
  · split_ifs with hother
    · rw [hother, hreplaced.owners, howner]
    · rfl
  · by_cases hsame : kept = leafId
    · rw [← hsame]
      exact hsettled.again hmem
    · constructor
      · rw [lookup_set_ne _ _ hsame, hsettled.owner, count_concat_of_ne (Ne.symm hsame)]
      · intro other hother hother_pty hne
        by_cases hlatest : other = leafId
        · refine ⟨kept, ?_, fun heq => hne heq.symm, hkept, Or.inl rfl⟩
          rw [hlatest, lookup_set_self]
        · obtain ⟨next, hlookup, hnext, hnext_pty, hleads⟩ :=
            hsettled.others other (mem_concat_of_ne hother hlatest) hother_pty hne
          refine ⟨next, ?_, hnext, hnext_pty, ?_⟩
          · rw [lookup_set_ne _ _ hlatest, hlookup]
          · refine hleads.imp_right fun ⟨hkeeper, hnext_kept⟩ => ⟨hkeeper, ?_⟩
            rw [lookup_set, hnext_kept, ite_self]

theorem Replaced.visit (hnamed : ∀ leafId ∈ order, leafId ≠ "") :
    Replaced ptyIds active (order ++ [leafId]) (replacements.visit ptyIds active leafId) := by
  cases hpty : ptyOf ptyIds leafId with
  | none =>
    rw [Replacements.visit, show truthy (ptyIds.lookup leafId) = none from hpty]
    exact hreplaced.unbound hpty
  | some ptyId =>
    rw [Replacements.visit, show truthy (ptyIds.lookup leafId) = some ptyId from hpty]
    dsimp only
    rw [hreplaced.owners]
    cases howner : owner ptyIds active order ptyId with
    | none => exact hreplaced.first hpty howner
    | some kept =>
      rw [truthy_of_ne (hnamed kept (owner_mem howner).1)]
      dsimp only
      split_ifs with hactive
      · exact hreplaced.takeOver hpty hactive.symm howner
      · exact hreplaced.replace hpty (fun heq => hactive heq.symm) howner

end

theorem replaced_all {replacements : Replacements} {met : List String} (order : List String)
    (hreplaced : Replaced ptyIds active met replacements)
    (hnamed : ∀ leafId ∈ met ++ order, leafId ≠ "") :
    Replaced ptyIds active (met ++ order)
      (order.foldl (Replacements.visit ptyIds active) replacements) := by
  induction order generalizing met replacements with
  | nil =>
    rw [append_nil]
    exact hreplaced
  | cons leafId rest ih =>
    rw [append_cons] at hnamed ⊢
    exact ih (hreplaced.visit fun other hother =>
      hnamed other (mem_append_left rest (mem_append_left [leafId] hother))) hnamed

end Wakii.PtyOwnership
