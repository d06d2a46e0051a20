import Wakii.Journal.OutcomeTable

/-!
# A reloaded chat is the chat that was persisted

Each row keeps the table's account of every collection and of every scalar; a
run of transactions therefore keeps it too, and the reader's fold, which uses
only the newest record of each key, gives back what the last row left.
-/

namespace Wakii.OutcomeReload

open List OrderedCollections TransitionCollections OutcomeCollections OutcomeLog OrderedMap
  OutcomeFold OutcomeTable

variable {V : Type*} [DecidableEq V]

section Row

variable {withoutRecovers : V → V} {prefixRows seq : ℕ}
  {table : List (JournalOutcome V)} {field : String}
  {changes earlier later : List (JournalEntryChange String V)}
  {mark current : Collection V} {recreated pending : OrderedSet String}
  {before next : OrderedMap String V}

omit [DecidableEq V] in
private theorem mem_split {keys : List String} {key : String}
    (hnodup : keys.Nodup) (hkey : key ∈ keys) :
    ∃ first second, keys = first ++ key :: second ∧
      first.length = keys.idxOf key ∧ key ∉ first ∧ key ∉ second := by
  obtain ⟨first, second, rfl⟩ := append_of_mem hkey
  rw [nodup_middle, nodup_cons, mem_append, not_or] at hnodup
  refine ⟨first, second, rfl, ?_, hnodup.1⟩
  rw [idxOf_append_of_notMem hnodup.1.1]
  simp

theorem scalar_field {value : EncodedOutcome V}
    (hvalue : value ∈ next.pairs.filterMap (encodeScalar before)) :
    value.field = "$" := by
  obtain ⟨entry, _, hentry⟩ := mem_filterMap.mp hvalue
  rw [encodeScalar] at hentry
  split at hentry
  · cases hentry
  · rw [Option.some.injEq] at hentry
    rw [← hentry]

/-- What a row reports of a field is what its outcomes write. -/
theorem report_writes (hreport : FieldReport changes field mark current earlier later recreated
      pending)
    (hfield : field ≠ "$")
    (hnewer : ∀ key kept, newest table field key = some kept → kept.seq < seq) :
    Logged.Writes withoutRecovers prefixRows table
      (insertOutcomes prefixRows seq changes 0
        (encodeJournalOutcomes withoutRecovers changes before next) table)
      field seq earlier.length current recreated pending := by
  have hencoded : encodeJournalOutcomes withoutRecovers changes before next =
      earlier.map (encodeChange withoutRecovers) ++
        ((pending.elems.map fun key => encodeChange withoutRecovers
          (reportedChange field current recreated key)) ++
          (later.map (encodeChange withoutRecovers) ++
            next.pairs.filterMap (encodeScalar before))) := by
    rw [encodeJournalOutcomes, hreport.changes_eq, map_append,
      map_append, map_map, append_assoc, append_assoc]
    rfl
  have hearlier : ∀ value ∈ earlier.map (encodeChange withoutRecovers), value.field ≠ field := by
    intro value hvalue
    obtain ⟨change, hchange, rfl⟩ := mem_map.mp hvalue
    exact hreport.earlier_path change hchange
  have hlater : ∀ value ∈ later.map (encodeChange withoutRecovers) ++
      next.pairs.filterMap (encodeScalar before), value.field ≠ field := by
    intro value hvalue
    rw [mem_append] at hvalue
    cases hvalue with
    | inl hencodedChange =>
      obtain ⟨change, hchange, rfl⟩ := mem_map.mp hencodedChange
      exact hreport.later_path change hchange
    | inr hscalar =>
      rw [scalar_field hscalar]
      exact hfield.symm
  constructor
  · intro key hkey
    obtain ⟨first, second, hsplit, hindex, hfirst, hsecond⟩ :=
      mem_split pending.nodup (OrderedSet.mem_elems.mpr hkey)
    let encode := fun key => encodeChange withoutRecovers
      (reportedChange field current recreated key)
    have hvalues : encodeJournalOutcomes withoutRecovers changes before next =
        (earlier.map (encodeChange withoutRecovers) ++ first.map encode) ++
          encode key :: (second.map encode ++ (later.map (encodeChange withoutRecovers) ++
              next.pairs.filterMap (encodeScalar before))) := by
      rw [hencoded, hsplit]
      simp [encode]
    have hbefore : ∀ value ∈ earlier.map (encodeChange withoutRecovers) ++
        first.map encode, ¬(value.field = (encode key).field ∧ value.key = (encode key).key) := by
      rintro value hvalue ⟨hvalueField, hvalueKey⟩
      rw [mem_append] at hvalue
      cases hvalue with
      | inl hvalue => exact hearlier value hvalue hvalueField
      | inr hvalue =>
        obtain ⟨other, hother, rfl⟩ := mem_map.mp hvalue
        have heq : other = key := hvalueKey
        exact hfirst (heq ▸ hother)
    have hafter : ∀ value ∈ second.map encode ++ (later.map (encodeChange withoutRecovers) ++
          next.pairs.filterMap (encodeScalar before)),
        ¬(value.field = (encode key).field ∧ value.key = (encode key).key) := by
      rintro value hvalue ⟨hvalueField, hvalueKey⟩
      rw [mem_append] at hvalue
      cases hvalue with
      | inl hvalue =>
        obtain ⟨other, hother, rfl⟩ := mem_map.mp hvalue
        have heq : other = key := hvalueKey
        exact hsecond (heq ▸ hother)
      | inr hvalue => exact hlater value hvalue hvalueField
    have hlength : (earlier.map (encodeChange withoutRecovers) ++
        first.map encode).length = earlier.length + pending.elems.idxOf key := by
      rw [length_append, length_map, length_map, hindex]
    have hchange : changes[earlier.length + pending.elems.idxOf key]? =
        some (reportedChange field current recreated key) := by
      rw [hreport.changes_eq, getElem?_append_right
        (Nat.le_add_right _ _), Nat.add_sub_cancel_left, ← hindex, hsplit]
      simp
    rw [hvalues]
    refine (newest_insertOutcomes_mem hbefore hafter (hnewer key)).trans ?_
    rw [hlength, hchange, keyRecord]
    simp [encode, encodeChange, reportedChange]
  · intro key hkey
    apply newest_insertOutcomes_other 0
    rintro value hvalue ⟨hvalueField, rfl⟩
    rw [hencoded, mem_append, mem_append] at hvalue
    rcases hvalue with hvalue | hvalue | hvalue
    · exact hearlier value hvalue hvalueField
    · obtain ⟨key, hmem, rfl⟩ := mem_map.mp hvalue
      exact hkey hmem
    · exact hlater value hvalue hvalueField

/-! ## Scalars -/

/-- The newest scalar records hold the current values, and a scalar without a
record still has its first value. -/
structure ScalarsLogged (bound : ℕ) (table : List (JournalOutcome V))
    (base current : OrderedMap String V) : Prop where
  seq_le : ∀ name record, newest table "$" name = some record → record.seq ≤ bound
  recorded : ∀ name record, newest table "$" name = some record →
    ∃ value, record.value = some value ∧ current.lookup name = some value
  unrecorded : ∀ name, newest table "$" name = none → current.lookup name = base.lookup name

omit [DecidableEq V] in
theorem ScalarsLogged.start (bound : ℕ) (base : OrderedMap String V) :
    ScalarsLogged bound [] base base where
  seq_le := by
    intro name record hrecord
    exact absurd hrecord (by simp [newest])
  recorded := by
    intro name record hrecord
    exact absurd hrecord (by simp [newest])
  unrecorded := fun _ _ => rfl

/-- A scalar whose text changed is recorded with its value. -/
theorem newest_scalar_changed (hchanges : ∀ change ∈ changes, change.path ≠ "$")
    {name : String} {value : V} (hvalue : next.lookup name = some value)
    (hbefore : before.lookup name ≠ some value)
    (hnewer : ∀ kept, newest table "$" name = some kept → kept.seq < seq) :
    ∃ record, newest (insertOutcomes prefixRows seq changes 0
        (encodeJournalOutcomes withoutRecovers changes before next) table)
        "$" name = some record ∧
      record.seq = seq ∧ record.value = some value := by
  obtain ⟨first, second, hsplit⟩ := append_of_mem (mem_pairs.mpr hvalue)
  have hnames : (next.pairs.map Prod.fst).Nodup := by
    rw [map_fst_pairs]
    exact next.keys_nodup
  rw [hsplit, map_append, map_cons, nodup_middle, nodup_cons, mem_append, not_or] at hnames
  have hentry : encodeScalar before (name, value) =
      some { field := "$", key := name, value := some value,
             deleted := false } := by
    rw [encodeScalar, if_neg hbefore]
  have hscalar : ∀ entries : List (String × V), name ∉ entries.map Prod.fst →
        ∀ encoded ∈ entries.filterMap (encodeScalar before),
          ¬(encoded.field = "$" ∧ encoded.key = name) := by
    rintro entries hentries encoded hencoded ⟨_, rfl⟩
    obtain ⟨entry, hmem, hentry⟩ := mem_filterMap.mp hencoded
    rw [encodeScalar] at hentry
    split at hentry
    · cases hentry
    · rw [Option.some.injEq] at hentry
      rw [← hentry] at hentries
      exact hentries (mem_map_of_mem hmem)
  have hvalues : encodeJournalOutcomes withoutRecovers changes before next =
      (changes.map (encodeChange withoutRecovers) ++
        first.filterMap (encodeScalar before)) ++
        { field := "$", key := name, value := some value,
          deleted := false } :: second.filterMap (encodeScalar before) := by
    rw [encodeJournalOutcomes, hsplit, filterMap_append, filterMap_cons, hentry, append_assoc]
  have hearlier : ∀ encoded ∈ changes.map (encodeChange withoutRecovers) ++
      first.filterMap (encodeScalar before), ¬(encoded.field = "$" ∧ encoded.key = name) := by
    rintro encoded hencoded hsame
    rw [mem_append] at hencoded
    cases hencoded with
    | inl hmem =>
      obtain ⟨change, hchange, rfl⟩ := mem_map.mp hmem
      exact hchanges change hchange hsame.1
    | inr hmem => exact hscalar first hnames.1.1 encoded hmem hsame
  rw [hvalues]
  exact ⟨_, newest_insertOutcomes_mem hearlier (hscalar second hnames.1.2) hnewer, rfl, rfl⟩

theorem newest_scalar_same (hchanges : ∀ change ∈ changes, change.path ≠ "$") {name : String}
    (hsame : next.lookup name = none ∨ before.lookup name = next.lookup name) :
    newest (insertOutcomes prefixRows seq changes 0
      (encodeJournalOutcomes withoutRecovers changes before next) table)
      "$" name = newest table "$" name := by
  apply newest_insertOutcomes_other 0
  rintro encoded hencoded ⟨hfield, rfl⟩
  rw [encodeJournalOutcomes, mem_append] at hencoded
  cases hencoded with
  | inl hmem =>
    obtain ⟨change, hchange, rfl⟩ := mem_map.mp hmem
    exact hchanges change hchange hfield
  | inr hmem =>
    obtain ⟨entry, hentry, hencoded⟩ := mem_filterMap.mp hmem
    have hlookup := mem_pairs.mp hentry
    rw [encodeScalar] at hencoded
    split at hencoded
    · cases hencoded
    · next hchanged =>
        rw [Option.some.injEq] at hencoded
        rw [← hencoded] at hsame
        cases hsame with
        | inl hnone => simp [hlookup] at hnone
        | inr heq => exact hchanged (heq.trans hlookup)

/-- A row that drops no scalar keeps the account of the scalars. -/
theorem ScalarsLogged.row {bound : ℕ} {base scalars : OrderedMap String V}
    (h : ScalarsLogged bound table base scalars)
    (hchanges : ∀ change ∈ changes, change.path ≠ "$")
    (hbefore : before = ∅ ∨ before = scalars)
    (hkept : ∀ name, name ∈ scalars → name ∈ next)
    (hbound : bound < seq) :
    ScalarsLogged seq
      (insertOutcomes prefixRows seq changes 0
        (encodeJournalOutcomes withoutRecovers changes before next) table)
      base next := by
  have hnewer : ∀ name kept, newest table "$" name = some kept →
      kept.seq < seq := fun name kept hkept =>
    Nat.lt_of_le_of_lt (h.seq_le name kept hkept) hbound
  have hcases : ∀ name, (∃ value record, next.lookup name = some value ∧
        newest (insertOutcomes prefixRows seq changes 0
          (encodeJournalOutcomes withoutRecovers changes before next) table)
          "$" name = some record ∧
        record.seq = seq ∧ record.value = some value) ∨
      (newest (insertOutcomes prefixRows seq changes 0
          (encodeJournalOutcomes withoutRecovers changes before next) table)
          "$" name = newest table "$" name ∧
        next.lookup name = scalars.lookup name) := by
    intro name
    cases hvalue : next.lookup name with
    | none =>
      have hgone : scalars.lookup name = none := by
        rw [AList.lookup_eq_none] at hvalue ⊢
        exact fun hmem => hvalue (hkept name hmem)
      exact Or.inr ⟨newest_scalar_same hchanges (Or.inl hvalue), hgone.symm⟩
    | some value =>
      by_cases hsame : before.lookup name = some value
      · have hscalars : scalars.lookup name = some value := by
          cases hbefore with
          | inl hempty =>
            rw [hempty, AList.lookup_empty] at hsame
            cases hsame
          | inr heq => rwa [heq] at hsame
        exact Or.inr ⟨newest_scalar_same hchanges (Or.inr (hsame.trans hvalue.symm)), hscalars.symm⟩
      · obtain ⟨record, hrecord, hseq, hstored⟩ :=
          newest_scalar_changed hchanges hvalue hsame (hnewer name)
        exact Or.inl ⟨value, record, rfl, hrecord, hseq, hstored⟩
  constructor
  · intro name found hfound
    cases hcases name with
    | inl hchanged =>
      obtain ⟨value, record, _, hrecord, hseq, _⟩ := hchanged
      rw [hrecord, Option.some.injEq] at hfound
      rw [← hfound, hseq]
    | inr hsame =>
      rw [hsame.1] at hfound
      exact (h.seq_le name found hfound).trans hbound.le
  · intro name found hfound
    cases hcases name with
    | inl hchanged =>
      obtain ⟨value, record, hvalue, hrecord, _, hstored⟩ := hchanged
      rw [hrecord, Option.some.injEq] at hfound
      exact ⟨value, hfound ▸ hstored, hvalue⟩
    | inr hsame =>
      rw [hsame.1] at hfound
      rw [hsame.2]
      exact h.recorded name found hfound
  · intro name hnone
    cases hcases name with
    | inl hchanged =>
      obtain ⟨value, record, _, hrecord, _, _⟩ := hchanged
      rw [hrecord] at hnone
      cases hnone
    | inr hsame =>
      rw [hsame.1] at hnone
      rw [hsame.2, h.unrecorded name hnone]

end Row

/-! ## Rows and transactions -/

/-- The rows are numbered upward within the safe integers, and none of them
drops a scalar. -/
def RowsFollow : ℕ → OrderedMap String V → List (FoldedRow V) → Prop
  | _, _, [] => True
  | last, scalars, row :: rest =>
    last < row.seq ∧ row.seq ≤ 2 ^ 53 - 1 ∧ (∀ name, name ∈ scalars → name ∈ row.scalars) ∧
      RowsFollow row.seq row.scalars rest

/-- The table accounts for the live collections and scalars up to row
`bound`. -/
structure Accounted (withoutRecovers : V → V) (native : Bool)
    (base : ChatState V) (bound : ℕ) (table : List (JournalOutcome V))
    (live : String → Collection V) (scalars : OrderedMap String V) :
    Prop where
  collections : ∀ field, Covered native field → ∃ placed, Logged withoutRecovers bound table field
      (base.collections field) (live field) placed
  scalars : ScalarsLogged bound table base.scalars scalars

/-- A transition whose drafts stand for `live`, with its table accounting for
it. -/
structure Recording (withoutRecovers : V → V) (native : Bool)
    (base : ChatState V) (live : String → Collection V)
    (transition : Transition V) : Prop where
  tracks : DraftsTrack transition.drafts live live
  nodup_paths : (transition.drafts.map DraftCollection.path).Nodup
  accounted : Accounted withoutRecovers native base transition.lastSequence
    transition.table live transition.scalars
  before_eq : transition.before = ∅ ∨ transition.before = transition.scalars

section Run

variable {withoutRecovers : V → V} {native : Bool} {prefixRows : ℕ}
  {base : ChatState V} {live : String → Collection V}
  {transition : Transition V}

omit [DecidableEq V] in
theorem rowChanges_path (drafts : List (DraftCollection V)) (upgradeNative : Bool) :
    ∀ change ∈ rowChanges drafts upgradeNative, change.path ≠ "$" := by
  intro change hchange heq
  rw [rowChanges, mem_append] at hchange
  cases hchange with
  | inl hstored =>
    have hfield := (mem_filter.mp hstored).2
    rw [heq] at hfield
    exact absurd hfield (by decide)
  | inr hadded =>
    rw [upgradeChanges] at hadded
    split at hadded
    · have hnative := nativeUpgrade_path hadded
      rw [heq] at hnative
      exact absurd hnative (by decide)
    · exact absurd hadded not_mem_nil

/-- One persisted row keeps the account, and moves only drafted
collections. -/
theorem persistRow_recording (h : Recording withoutRecovers native base live transition)
    (hempty : ∀ field key, key ∈ (base.collections field).view → 0 < prefixRows)
    {upgradeNative : Bool} (hupgrade : native = true → upgradeNative = false)
    {row : FoldedRow V} (hseq : transition.lastSequence < row.seq)
    (hsafe : row.seq ≤ 2 ^ 53 - 1)
    (hkept : ∀ name, name ∈ transition.scalars → name ∈ row.scalars)
    {next : Transition V}
    (hrow : persistRow withoutRecovers prefixRows upgradeNative transition row = some next) :
    ∃ moved, Recording withoutRecovers native base moved next ∧
      next.lastSequence = row.seq ∧ next.scalars = row.scalars ∧
      next.drafts.map DraftCollection.path = transition.drafts.map DraftCollection.path ∧
      ∀ field, field ∉ transition.drafts.map DraftCollection.path → moved field = live field := by
  rw [persistRow] at hrow
  obtain ⟨moved, htracks, hpaths, hother⟩ := edits_track row.edits h.tracks
  have hnodup : ((row.edits.foldl edit transition.drafts).map
      DraftCollection.path).Nodup := hpaths ▸ h.nodup_paths
  split at hrow
  · next hlength =>
      rw [Option.some.injEq] at hrow
      subst hrow
      obtain ⟨hreset, hresetPaths⟩ := reset_tracks htracks
      refine ⟨moved, ⟨hreset, hresetPaths ▸ hnodup, ⟨?_, ?_⟩, Or.inr rfl⟩,
        rfl, rfl, hresetPaths.trans hpaths, hother⟩
      · intro field hfield
        obtain ⟨placed, hlogged⟩ := h.accounted.collections field hfield
        obtain ⟨earlier, later, recreated, pending, hreport⟩ := rowChanges_report htracks hnodup
            (fun field hmem => hother field (hpaths ▸ hmem)) hupgrade hfield
        have hnewer : ∀ key kept, newest transition.table field key = some kept →
              kept.seq < row.seq := fun key kept hkept =>
          Nat.lt_of_le_of_lt (hlogged.seq_le key kept hkept) hseq
        have hsmall : row.seq < 10 ^ 16 := by omega
        have hbound : earlier.length + pending.elems.length ≤ 10 ^ 16 := by
          have htotal := congrArg List.length hreport.changes_eq
          simp only [length_append, length_map] at htotal
          simp only [maxArrayLength] at hlength
          omega
        exact ⟨_, hlogged.row (hempty field) hreport.kind hreport.segment
          (report_writes hreport hfield.ne_scalar hnewer) hseq hsmall hbound⟩
      · exact h.accounted.scalars.row (rowChanges_path _ _) h.before_eq hkept hseq
  · cases hrow

theorem persistRows_recording {rows later : List (FoldedRow V)}
    {upgradeNative : Bool} (hupgrade : native = true → upgradeNative = false)
    (hempty : ∀ field key, key ∈ (base.collections field).view → 0 < prefixRows)
    {last : Transition V}
    (h : Recording withoutRecovers native base live transition)
    (hrows : RowsFollow transition.lastSequence transition.scalars (rows ++ later))
    (hrun : persistRows withoutRecovers prefixRows upgradeNative transition rows = some last) :
    ∃ moved, Recording withoutRecovers native base moved last ∧
      RowsFollow last.lastSequence last.scalars later ∧
      last.drafts.map DraftCollection.path = transition.drafts.map DraftCollection.path ∧
      ∀ field, field ∉ transition.drafts.map DraftCollection.path → moved field = live field := by
  induction rows generalizing upgradeNative transition live with
  | nil =>
    rw [persistRows, Option.some.injEq] at hrun
    subst hrun
    exact ⟨live, h, hrows, rfl, fun _ _ => rfl⟩
  | cons row rest ih =>
    obtain ⟨hseq, hsafe, hkept, hrest⟩ := hrows
    simp only [persistRows, Option.bind_eq_bind, Option.bind_eq_some_iff] at hrun
    obtain ⟨next, hrow, hrun⟩ := hrun
    obtain ⟨moved, hnext, hnextSeq, hnextScalars, hpaths, hother⟩ :=
      persistRow_recording h hempty hupgrade hseq hsafe hkept hrow
    rw [← hnextSeq, ← hnextScalars] at hrest
    obtain ⟨ended, hlast, hlater, hlastPaths, hlastOther⟩ := ih (fun _ => rfl) hnext hrest hrun
    refine ⟨ended, hlast, hlater, hlastPaths.trans hpaths, ?_⟩
    intro field hfield
    rw [hlastOther field (hpaths ▸ hfield), hother field hfield]

variable {state : ChatState V}

omit [DecidableEq V] in
theorem adopt_collections (h : DraftsTrack transition.drafts live live)
    (hother : ∀ field, field ∉ transition.drafts.map DraftCollection.path →
        live field = state.collections field) :
    (adopt state transition).collections = live := by
  funext field
  simp only [adopt]
  split
  · next draft hfound =>
      have hpath : draft.path = field := by
        simpa using find?_some hfound
      have hmem := mem_of_find?_eq_some hfound
      rw [(h draft hmem).adopt_eq, hpath]
  · next hnone =>
      rw [hother field]
      intro hmem
      obtain ⟨draft, hdraft, hpath⟩ := mem_map.mp hmem
      have hmiss := find?_eq_none.mp hnone draft hdraft
      exact hmiss (by simpa using hpath)

variable {written : List (JournalOutcome V)} {table : List (JournalOutcome V)}

theorem persistJournalOutcomeRows_accounted {transaction : OutcomeTransaction V}
    {later : List (FoldedRow V)} (hupgrade : native = true → transaction.upgradeNative = false)
    (hempty : ∀ field key, key ∈ (base.collections field).view → 0 < prefixRows)
    (h : Accounted withoutRecovers native base state.lastSequence table
      state.collections state.scalars)
    (hrows : RowsFollow state.lastSequence state.scalars (transaction.rows ++ later))
    {next : ChatState V} (hrun : persistJournalOutcomeRows withoutRecovers prefixRows state table
      transaction = some (next, written)) :
    Accounted withoutRecovers native base next.lastSequence written
        next.collections next.scalars ∧
      RowsFollow next.lastSequence next.scalars later := by
  simp only [persistJournalOutcomeRows, Option.bind_eq_bind,
    Option.bind_eq_some_iff, Option.pure_def, Option.some.injEq,
    Prod.mk.injEq] at hrun
  obtain ⟨last, hrun, rfl, rfl⟩ := hrun
  have hbefore : (if state.lastSequence = 0 then ∅ else state.scalars) = ∅ ∨
      (if state.lastSequence = 0 then ∅ else state.scalars) =
        state.scalars := by
    split
    · exact Or.inl rfl
    · exact Or.inr rfl
  obtain ⟨moved, hlast, hlater, hpaths, hother⟩ := persistRows_recording hupgrade hempty
      { tracks := draftsTrack_isolate state transaction.reached
        nodup_paths := nodup_paths_isolate state transaction.reached
        accounted := h
        before_eq := hbefore } hrows hrun
  have hadopt : (adopt state last).collections = moved :=
    adopt_collections hlast.tracks fun field hfield =>
      hother field (hpaths ▸ hfield)
  refine ⟨?_, hlater⟩
  rw [hadopt]
  exact hlast.accounted

theorem persistAll_accounted {transactions : List (OutcomeTransaction V)}
    (hupgrade : native = true → ∀ transaction ∈ transactions, transaction.upgradeNative = false)
    (hempty : ∀ field key, key ∈ (base.collections field).view → 0 < prefixRows)
    (h : Accounted withoutRecovers native base state.lastSequence table
      state.collections state.scalars) (hrows : RowsFollow state.lastSequence state.scalars
      (transactions.flatMap OutcomeTransaction.rows)) {live : ChatState V}
    (hrun : persistAll withoutRecovers prefixRows state table transactions = some (live, written)) :
    Accounted withoutRecovers native base live.lastSequence written
      live.collections live.scalars := by
  induction transactions generalizing state table with
  | nil =>
    simp only [persistAll, Option.some.injEq, Prod.mk.injEq] at hrun
    obtain ⟨rfl, rfl⟩ := hrun
    exact h
  | cons transaction rest ih =>
    simp only [persistAll, Option.bind_eq_bind, Option.bind_eq_some_iff, Prod.exists] at hrun
    obtain ⟨next, between, hfirst, hrest⟩ := hrun
    rw [flatMap_cons] at hrows
    obtain ⟨hnext, hlater⟩ := persistJournalOutcomeRows_accounted
      (fun hnative => hupgrade hnative transaction mem_cons_self)
      hempty h hrows hfirst
    exact ih (fun hnative other hother =>
        hupgrade hnative other (mem_cons_of_mem _ hother))
      hnext hlater hrest

end Run

/-! ## Reading back -/

section Reload

variable {withoutRecovers : V → V} {native : Bool} {base live : ChatState V}
  {table read : List (JournalOutcome V)} {records : List (JournalOutcome V)}

omit [DecidableEq V] in
theorem lookup_finishScalars_of_not_mem (scalars : OrderedMap String V) {name : String}
    (hname : ∀ record ∈ records, record.key ≠ name) :
    (finishScalars records scalars).lookup name = scalars.lookup name := by
  induction records generalizing scalars with
  | nil => rfl
  | cons record rest ih =>
    have hne := hname record mem_cons_self
    have hrest := fun other hother =>
      hname other (mem_cons_of_mem record hother)
    rw [finishScalars, foldl_cons, ← finishScalars, ih _ hrest]
    split
    · exact lookup_set_ne _ _ hne.symm
    · rfl

omit [DecidableEq V] in
theorem lookup_finishScalars_of_mem (scalars : OrderedMap String V)
    (hnodup : (records.map (·.key)).Nodup) {record : JournalOutcome V} (hrecord : record ∈ records)
    {value : V} (hvalue : record.value = some value) :
    (finishScalars records scalars).lookup record.key = some value := by
  induction records generalizing scalars with
  | nil => exact absurd hrecord not_mem_nil
  | cons head rest ih =>
    rw [map_cons, nodup_cons] at hnodup
    rw [finishScalars, foldl_cons, ← finishScalars]
    cases mem_cons.mp hrecord with
    | inl heq =>
      subst heq
      rw [lookup_finishScalars_of_not_mem, hvalue]
      · exact lookup_set_self _ _ _
      · exact fun other hother hkey =>
          hnodup.1 (hkey ▸ mem_map_of_mem hother)
    | inr hmem => exact ih _ hnodup.2 hmem

omit [DecidableEq V] in
theorem scalars_finish (h : ScalarsLogged live.lastSequence table base.scalars live.scalars)
    (hread : read.Perm (newestOutcomes table)) (through : ℕ) (name : String) :
    (finish read through base).scalars.lookup name = live.scalars.lookup name := by
  have hnewest := readsNewest_of_perm hread "$"
  simp only [finish]
  cases hrecord : newest table "$" name with
  | none =>
    rw [h.unrecorded name hrecord]
    apply lookup_finishScalars_of_not_mem
    intro record hmem hkey
    rw [hnewest.mem_iff, hkey, hrecord] at hmem
    cases hmem
  | some record =>
    obtain ⟨value, hvalue, hlookup⟩ := h.recorded name record hrecord
    obtain ⟨_, rfl⟩ := newest_spec hrecord
    rw [hlookup]
    exact lookup_finishScalars_of_mem _ hnewest.nodup ((hnewest.mem_iff record).mpr hrecord) hvalue

omit [DecidableEq V] in
theorem storedView_of_ne_cards {field : String}
    (hfield : field ≠ "queue.cards") (collection : Collection V) :
    storedView withoutRecovers table field collection = collection.view := by
  apply ext_keys_lookup
  · exact keys_mapValues _ _
  · intro key
    rw [storedView, lookup_mapValues]
    simp [storedValue, hfield]

omit [DecidableEq V] in
theorem collections_finish (h : Accounted withoutRecovers native base live.lastSequence table
      live.collections live.scalars)
    (hread : read.Perm (newestOutcomes table)) (through : ℕ) {field : String}
    (hfield : Covered native field)
    (hnative : isNativeOutcomeField field → (base.collections field).view = ∅) :
    ((finish read through base).collections field).view =
        storedView withoutRecovers table field (live.collections field) ∧
      (field ≠ "queue.cards" → (finish read through base).collections field =
          live.collections field) := by
  obtain ⟨placed, hlogged⟩ := h.collections field hfield
  obtain ⟨hview, hkind⟩ := view_finishField hlogged (readsNewest_of_perm hread field) hnative
  refine ⟨hview, fun hcards => ?_⟩
  apply Collection.eq_of_view_eq (hkind.trans hlogged.kind.symm)
  exact hview.trans (storedView_of_ne_cards hcards _)

/-- What reading a chat's table back over its prefix gives. -/
structure Reproduces (withoutRecovers : V → V)
    (table : List (JournalOutcome V)) (transactions :
      List (OutcomeTransaction V)) (base reloaded live : ChatState V) :
    Prop where
  format1 : ∀ field ∈ outcomeFormat1Collections, field ≠ "queue.cards" →
    reloaded.collections field = live.collections field
  cards : (reloaded.collections "queue.cards").view = storedView withoutRecovers table "queue.cards"
      (live.collections "queue.cards")
  native : (∀ transaction ∈ transactions, transaction.upgradeNative = false) →
    ∀ field ∈ nativeFields, (base.collections field).view = ∅ →
      reloaded.collections field = live.collections field
  lastSequence : reloaded.lastSequence = live.lastSequence
  scalars : ∀ name, reloaded.scalars.lookup name = live.scalars.lookup name

/-- Folding the newest record of each key over the frozen prefix reproduces
the chat: every collection of the first format, with its order, any native
collection the prefix holds nothing of, and every scalar. -/
theorem outcomes_reproduce_chat (withoutRecovers : V → V) (prefixRows : ℕ)
    (base : ChatState V) (transactions : List (OutcomeTransaction V))
    (hempty : prefixRows = 0 → ∀ field, (base.collections field).view = ∅)
    (hrows : RowsFollow base.lastSequence base.scalars
      (transactions.flatMap OutcomeTransaction.rows))
    {live : ChatState V} {table read : List (JournalOutcome V)}
    (hrun : persistAll withoutRecovers prefixRows base [] transactions = some (live, table))
    (hread : read.Perm (newestOutcomes table)) :
    Reproduces withoutRecovers table transactions base
      (finish read live.lastSequence base) live := by
  have hheld : ∀ field key, key ∈ (base.collections field).view → 0 < prefixRows := by
    intro field key hkey
    by_contra hzero
    rw [hempty (Nat.eq_zero_of_not_pos hzero) field] at hkey
    exact AList.notMem_empty key hkey
  have haccount : ∀ native : Bool, (native = true → ∀ transaction ∈ transactions,
        transaction.upgradeNative = false) →
      Accounted withoutRecovers native base live.lastSequence table
        live.collections live.scalars := by
    intro native hupgrade
    apply persistAll_accounted hupgrade hheld _ hrows hrun
    exact
      { collections := fun field _ => ⟨[], Logged.start _ _ field _⟩
        scalars := ScalarsLogged.start _ _ }
  have hformat1 := haccount false (fun h => by cases h)
  have hnotNative : ∀ field ∈ outcomeFormat1Collections,
      isNativeOutcomeField field → (base.collections field).view = ∅ := by
    intro field hfield hnative
    exact absurd (of_decide_eq_true hnative) (not_mem_nativeFields hfield)
  constructor
  · intro field hfield hcards
    exact (collections_finish hformat1 hread _ (Or.inl hfield) (hnotNative field hfield)).2 hcards
  · have hcards : "queue.cards" ∈ outcomeFormat1Collections := by decide
    exact (collections_finish hformat1 hread _ (Or.inl hcards) (hnotNative _ hcards)).1
  · intro hupgrade field hfield hbase
    have hne : field ≠ "queue.cards" := by
      rintro rfl
      exact absurd hfield (by decide)
    exact (collections_finish (haccount true fun _ => hupgrade) hread _
      (Or.inr ⟨rfl, hfield⟩) fun _ => hbase).2 hne
  · rfl
  · exact scalars_finish hformat1.scalars hread _

/-! ## Two chats that bound the result -/

def pairChat (field : String) : ChatState ℕ where
  lastSequence := 1
  collections name :=
    if name = field then .map (OrderedMap.ofPairs [("a", 1), ("b", 2)])
    else .map ∅
  scalars := ∅

/-- A row that deletes the first key of a field and creates it again. -/
def recreateFirst (field : String) : OutcomeTransaction ℕ where
  reached := [field]
  rows := [{
    seq := 2
    edits := [(field, .delete "a"), (field, .put "a" 3)]
    scalars := ∅ }]
  upgradeNative := false

theorem outcomes_reproduce_chat_pair : ∃ live table,
      persistAll id 1 (pairChat "items") [] [recreateFirst "items"] = some (live, table) ∧
      Reproduces id table [recreateFirst "items"] (pairChat "items")
        (finish (newestOutcomes table) live.lastSequence (pairChat "items"))
        live := by
  have hsome : (persistAll id 1 (pairChat "items") []
      [recreateFirst "items"]).isSome = true := by decide
  obtain ⟨⟨live, table⟩, hrun⟩ := Option.isSome_iff_exists.mp hsome
  refine ⟨live, table, hrun, ?_⟩
  apply outcomes_reproduce_chat id 1 _ _ (fun hzero => by cases hzero) _ hrun
    (List.Perm.refl _)
  exact ⟨by decide, by decide, fun name hname => hname, trivial⟩

/-- The fold gives back every stored collection as it is live. -/
def ReproducesExactly (withoutRecovers : V → V) (prefixRows : ℕ)
    (base : ChatState V) (transactions : List (OutcomeTransaction V)) :
    Prop :=
  ∀ live table, persistAll withoutRecovers prefixRows base [] transactions = some (live, table) →
    ∀ field, isStoredField field = true →
      (finish (newestOutcomes table) live.lastSequence base).collections
        field = live.collections field

def linkedCard : OutcomeTransaction (ℕ × Bool) where
  reached := ["queue.cards"]
  rows := [{
    seq := 1
    edits := [("queue.cards", .put "a" (0, true))]
    scalars := ∅ }]
  upgradeNative := false

def emptyChat : ChatState (ℕ × Bool) where
  lastSequence := 0
  collections _ := .map ∅
  scalars := ∅

/-- Over a prefix that holds native entries, and for a queue card with a
recovery link, the fold and the live collection differ. -/
theorem outcomes_not_exact : (RowsFollow 1 ∅ (recreateFirst "inputEntries").rows ∧
      ¬ReproducesExactly id 1 (pairChat "inputEntries")
        [recreateFirst "inputEntries"]) ∧
    (RowsFollow 0 ∅ linkedCard.rows ∧ ¬ReproducesExactly (fun card => (card.1, false)) 0 emptyChat
        [linkedCard]) := by
  have hnative : ((persistAll id 1 (pairChat "inputEntries") []
      [recreateFirst "inputEntries"]).any fun run =>
        decide (((finish (newestOutcomes run.2) run.1.lastSequence
            (pairChat "inputEntries")).collections
              "inputEntries").view.keys ≠
          (run.1.collections "inputEntries").view.keys)) = true := by
    decide
  have hcard : ((persistAll (fun card => (card.1, false)) 0 emptyChat []
      [linkedCard]).any fun run =>
        decide (((finish (newestOutcomes run.2) run.1.lastSequence
            emptyChat).collections "queue.cards").view.lookup "a" ≠
          (run.1.collections "queue.cards").view.lookup "a")) = true := by
    decide
  refine ⟨⟨?_, fun hexact => ?_⟩, ⟨?_, fun hexact => ?_⟩⟩
  · exact ⟨by decide, by decide, fun name hname => hname, trivial⟩
  · obtain ⟨⟨live, table⟩, hrun, hdiffer⟩ := Option.any_eq_true _ _ |>.mp hnative
    rw [decide_eq_true_eq] at hdiffer
    apply hdiffer
    rw [hexact live table hrun "inputEntries" (by decide)]
  · exact ⟨by decide, by decide, fun name hname => hname, trivial⟩
  · obtain ⟨⟨live, table⟩, hrun, hdiffer⟩ := Option.any_eq_true _ _ |>.mp hcard
    rw [decide_eq_true_eq] at hdiffer
    apply hdiffer
    rw [hexact live table hrun "queue.cards" (by decide)]

end Reload

end Wakii.OutcomeReload
