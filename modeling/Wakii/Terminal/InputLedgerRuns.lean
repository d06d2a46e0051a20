import Wakii.Terminal.InputSessions
import Mathlib.Data.List.Nodup

/-!
# Runs of the input ledger

Whatever arrives in whatever order, the writes of a session run one at a time
and number by number, and a strict session writes nothing after its first
failure.
-/

namespace Wakii.TerminalInput

open List Session

section Steps

variable {session : Session}

/-- A run chained behind the others waits for them. -/
theorem Session.Valid.chain (hok : session.Valid) {seq : ℤ} {charged : Option ℕ}
    (hstrict : charged.isSome = true → 0 < seq ∧ session.strict.isSome = true)
    (hstarted : session.strict.isSome = true ∨ session.runs ≠ []) :
    (session.chain seq charged).Valid := by
  have hbegin : (session.chain seq charged).begin = session.begin := by
    have hfirst : (session.chain seq charged).firstSettled = session.firstSettled := by
      unfold Session.firstSettled
      by_cases hsome : session.strict.isSome = true
      · exact (if_pos hsome).trans (if_pos hsome).symm
      · refine (if_neg hsome).trans (Eq.trans ?_ (if_neg hsome).symm)
        cases hruns : session.runs with
        | nil => exact absurd hruns (hstarted.resolve_left hsome)
        | cons run rest => simp only [Session.chain, hruns, cons_append]
    rw [Session.begin, Session.begin, hfirst]
  have hmem : ∀ run ∈ (session.chain seq charged).runs,
      run ∈ session.runs ∨ run = ⟨seq, charged, .waiting, false, none⟩ := by
    intro run hrun
    rcases mem_append.mp hrun with hrun | hrun
    · exact Or.inl hrun
    · exact Or.inr (mem_singleton.mp hrun)
  refine ⟨⟨?_, ?_, ?_⟩, fun hunblocked run hrun hrunStrict => ?_, hok.fenced.fingerprints,
    fun run hrun hrunStrict => ?_, fun hall run hrun appliedSeq happlied => ?_⟩
  · refine pairwise_append.mpr ⟨hok.inOrder.turn, pairwise_singleton _ _, ?_⟩
    intro earlier _ later hlater
    rw [mem_singleton.mp hlater]
    exact Or.inl rfl
  · rw [hbegin]
    exact fitting_append.mpr ⟨hok.inOrder.fitting, .waiting rfl rfl rfl, trivial⟩
  · rw [hbegin]
    refine hok.inOrder.progress.trans ?_
    change _ = replay session.begin (session.runs ++ _)
    rw [replay_append]
    rfl
  · rcases hmem run hrun with hrun | rfl
    · exact hok.fenced.unblocked hunblocked run hrun hrunStrict
    · exact ⟨by rintro ⟨⟩, by rintro ⟨⟩, fun _ => by rintro ⟨⟩⟩
  · rcases hmem run hrun with hrun | rfl
    · exact hok.fenced.strictRuns run hrun hrunStrict
    · exact hstrict hrunStrict
  · rcases hmem run hrun with hrun | rfl
    · obtain ⟨writer, hwriter, hsettled⟩ := hok.fenced.applied
        (fun other hother => hall other (mem_append_left _ hother)) run hrun appliedSeq happlied
      exact ⟨writer, mem_append_left _ hwriter, hsettled⟩
    · cases happlied

theorem valid_newPlainSession (seq : ℤ) : ((newPlainSession seq).chain seq none).Valid := by
  refine ⟨⟨pairwise_singleton _ _, ⟨.waiting rfl rfl rfl, trivial⟩, rfl⟩,
    fun _ run hrun hstrict => ?_,
    fun strict hstrict => (by cases hstrict), fun run hrun hstrict => ?_,
    fun _ run hrun _ happlied => ?_⟩
  · rw [mem_singleton.mp hrun] at hstrict
    cases hstrict
  · rw [mem_singleton.mp hrun] at hstrict
    cases hstrict
  · rw [mem_singleton.mp hrun] at happlied
    cases happlied

theorem valid_newStrictSession (token : ℕ) (binding : TerminalInputSessionBinding) :
    (newStrictSession token binding).Valid := by
  refine ⟨⟨List.Pairwise.nil, trivial, rfl⟩, fun _ run hrun => (by cases hrun),
    fun strict hstrict => ?_, fun run hrun => (by cases hrun),
    fun _ run hrun => (by cases hrun)⟩
  cases hstrict
  exact ⟨nofun, nodup_nil, Nat.zero_le _⟩

variable {fingerprints : List (ℤ × String)}

/-- From one list of stored texts to a later one: some are added behind them, and the
oldest are given up only while as many as the limit are left. -/
def KeepsTexts (fingerprints later : List (ℤ × String)) : Prop :=
  ∃ added forgotten, fingerprints ++ added = forgotten ++ later ∧
    (forgotten ≠ [] → TERMINAL_INPUT_SEQUENCE_LEDGER_MAX_UNKNOWN_SEQS ≤ later.length)

theorem KeepsTexts.refl (fingerprints : List (ℤ × String)) : KeepsTexts fingerprints fingerprints :=
  ⟨[], [], append_nil _, nofun⟩

theorem KeepsTexts.trans {later last : List (ℤ × String)} (hfirst : KeepsTexts fingerprints later)
    (hsecond : KeepsTexts later last) : KeepsTexts fingerprints last := by
  obtain ⟨added, forgotten, heq, hfull⟩ := hfirst
  obtain ⟨more, dropped, heqNext, hfullNext⟩ := hsecond
  refine ⟨added ++ more, forgotten ++ dropped, ?_, fun hsome => ?_⟩
  · rw [← append_assoc, heq, append_assoc, heqNext, append_assoc]
  · cases dropped with
    | cons entry rest => exact hfullNext nofun
    | nil =>
      rw [append_nil] at hsome
      have hlength := congrArg length heqNext
      rw [length_append, nil_append] at hlength
      have := hfull hsome
      omega

/-- The numbers that are not refused: those above what is settled, and those stored with
the text that is sent. -/
theorem new_or_known {appliedSeq seq : ℤ} {fingerprint : String}
    (hsame : ¬ (fingerprints.lookup seq ≠ none ∧ fingerprints.lookup seq ≠ some fingerprint))
    (hnew : ¬ (seq ≤ appliedSeq ∧ fingerprints.lookup seq = none)) :
    appliedSeq < seq ∧ fingerprints.lookup seq = none ∨
      fingerprints.lookup seq = some fingerprint := by
  cases hprior : fingerprints.lookup seq with
  | none => exact Or.inl ⟨not_le.mp fun hle => hnew ⟨hle, hprior⟩, rfl⟩
  | some known =>
    rw [hprior] at hsame
    exact Or.inr (by_contra fun hother => hsame ⟨nofun, hother⟩)

/-- A number that was stored with this text stays as it is. -/
theorem Session.FingerprintsOk.setFingerprint_known (hok : FingerprintsOk fingerprints) {seq : ℤ}
    {fingerprint : String} (hprior : fingerprints.lookup seq = some fingerprint) :
    setFingerprint fingerprints seq fingerprint = fingerprints := by
  have hmem : (seq, fingerprint) ∈ fingerprints := by
    obtain ⟨before, after, rfl, _⟩ := lookup_eq_some_iff.mp hprior
    exact mem_append_right _ mem_cons_self
  have hany : fingerprints.any (·.1 = seq) = true :=
    any_eq_true.mpr ⟨_, hmem, decide_eq_true rfl⟩
  have hmap : (fingerprints.map fun entry =>
      if entry.1 = seq then (seq, fingerprint) else entry) = fingerprints := by
    refine (map_congr_left fun entry hentry => ?_).trans (map_id _)
    split_ifs with hseq
    · exact inj_on_of_nodup_map hok.once hmem hentry hseq.symm
    · rfl
  unfold setFingerprint
  dsimp only
  rw [if_pos hany, hmap, if_neg (not_lt.mpr hok.capped)]

/-- A new number comes last, and the oldest one is given up for it where the list is full. -/
theorem setFingerprint_new {seq : ℤ} {fingerprint : String}
    (hprior : fingerprints.lookup seq = none) :
    setFingerprint fingerprints seq fingerprint =
      if TERMINAL_INPUT_SEQUENCE_LEDGER_MAX_UNKNOWN_SEQS < fingerprints.length + 1 then
        fingerprints.tail ++ [(seq, fingerprint)]
      else fingerprints ++ [(seq, fingerprint)] := by
  have hany : ¬ fingerprints.any (·.1 = seq) = true := by
    intro hany
    obtain ⟨entry, hentry, hseq⟩ := any_eq_true.mp hany
    exact absurd (of_decide_eq_true hseq).symm
      (by simpa using lookup_eq_none_iff.mp hprior entry hentry)
  have hlimit : 0 < TERMINAL_INPUT_SEQUENCE_LEDGER_MAX_UNKNOWN_SEQS := by
    unfold TERMINAL_INPUT_SEQUENCE_LEDGER_MAX_UNKNOWN_SEQS
    decide
  unfold setFingerprint
  dsimp only
  rw [if_neg hany, length_append, length_singleton]
  split_ifs with hfull
  · cases fingerprints with
    | nil =>
      rw [length_nil] at hfull
      omega
    | cons oldest rest => rfl
  · rfl

/-- A new text is remembered and the oldest may be forgotten. -/
theorem Session.FingerprintsOk.set (hok : FingerprintsOk fingerprints) {seq : ℤ} (hseq : 0 < seq)
    {fingerprint : String} (hprior : fingerprints.lookup seq = none ∨
      fingerprints.lookup seq = some fingerprint) :
    FingerprintsOk (setFingerprint fingerprints seq fingerprint) ∧
      KeepsTexts fingerprints (setFingerprint fingerprints seq fingerprint) ∧
        (setFingerprint fingerprints seq fingerprint).lookup seq = some fingerprint := by
  rcases hprior with hnew | hknown
  · have hfresh : seq ∉ fingerprints.map Prod.fst := by
      intro hmem
      obtain ⟨entry, hentry, rfl⟩ := mem_map.mp hmem
      simpa using lookup_eq_none_iff.mp hnew entry hentry
    have hlast : ∀ kept : List (ℤ × String), kept.lookup seq = none →
        (kept ++ [(seq, fingerprint)]).lookup seq = some fingerprint := by
      intro kept hkept
      rw [lookup_append, hkept, Option.none_or, lookup_cons_self]
    have hgrown : ∀ kept : List (ℤ × String), kept <:+ fingerprints →
        kept.length < TERMINAL_INPUT_SEQUENCE_LEDGER_MAX_UNKNOWN_SEQS →
          FingerprintsOk (kept ++ [(seq, fingerprint)]) := by
      intro kept hsuffix hroom
      refine ⟨fun entry hentry => ?_, ?_, ?_⟩
      · rcases mem_append.mp hentry with hentry | hentry
        · exact hok.positive entry (hsuffix.subset hentry)
        · rw [mem_singleton.mp hentry]
          exact hseq
      · have hkept := hok.once.sublist (hsuffix.sublist.map Prod.fst)
        have hnone : seq ∉ kept.map Prod.fst :=
          fun hmem => hfresh ((hsuffix.sublist.map Prod.fst).subset hmem)
        rw [map_append]
        exact hkept.append (nodup_singleton _) (by simpa using hnone)
      · rw [length_append, length_singleton]
        exact hroom
    rw [setFingerprint_new hnew]
    have hcapped := hok.capped
    split_ifs with hfull
    · cases fingerprints with
      | nil =>
        rw [length_nil] at hfull
        unfold TERMINAL_INPUT_SEQUENCE_LEDGER_MAX_UNKNOWN_SEQS at hfull
        omega
      | cons oldest rest =>
        rw [length_cons] at hfull hcapped
        rw [tail_cons]
        refine ⟨hgrown rest (suffix_cons _ _) (by omega),
          ⟨[(seq, fingerprint)], [oldest], rfl, fun _ => ?_⟩, hlast rest ?_⟩
        · rw [length_append, length_singleton]
          omega
        · exact lookup_eq_none_iff.mpr fun entry hentry =>
            lookup_eq_none_iff.mp hnew entry (mem_cons_of_mem _ hentry)
    · exact ⟨hgrown fingerprints suffix_rfl (by omega),
        ⟨[(seq, fingerprint)], [], rfl, nofun⟩, hlast fingerprints hnew⟩
  · rw [hok.setFingerprint_known hknown]
    exact ⟨hok, .refl _, hknown⟩

theorem Session.Valid.appliedSeq_nonneg (hok : session.Valid)
    (hsome : session.strict.isSome = true) : 0 ≤ session.appliedSeq := by
  have hfirst : session.begin.appliedSeq = 0 := by
    rw [Session.begin, Session.firstSettled, if_pos hsome]
  have hle := appliedSeq_le_replay hok.inOrder.fitting
  rwa [← hok.inOrder.progress, hfirst] at hle

theorem Session.Valid.charge (hok : session.Valid) {strict charged : Strict}
    (hstrict : session.strict = some strict) (hblocked : charged.blocked = strict.blocked)
    (hfingerprints : FingerprintsOk charged.fingerprints) :
    ({ session with strict := some charged } : Session).Valid := by
  have hbegin : ({ session with strict := some charged } : Session).begin = session.begin := by
    rw [Session.begin, Session.begin, Session.firstSettled, Session.firstSettled, hstrict]
    rfl
  refine ⟨⟨hok.inOrder.turn, ?_, ?_⟩, fun hunblocked run hrun hrunStrict => ?_,
    fun other hother => ?_, fun run hrun hrunStrict =>
      ⟨(hok.fenced.strictRuns run hrun hrunStrict).1, rfl⟩, hok.fenced.applied⟩
  · rw [hbegin]
    exact hok.inOrder.fitting
  · rw [hbegin]
    exact hok.inOrder.progress
  · refine hok.fenced.unblocked ?_ run hrun hrunStrict
    rw [Session.isBlocked, hstrict, ← hunblocked, Session.isBlocked]
    exact hblocked.symm
  · cases hother
    exact hfingerprints

end Steps

def TerminalInputSequenceLedger.Ok (ledger : TerminalInputSequenceLedger) : Prop :=
  ∀ session ∈ ledger.heap, session.Valid ∧ (session.strict.isSome = true ∨ session.runs ≠ [])

namespace TerminalInputSequenceLedger

variable {ledger : TerminalInputSequenceLedger}

@[simp] theorem heap_refresh (ledger : TerminalInputSequenceLedger) (key : String) (id : ℕ) :
    (ledger.refresh key id).heap = ledger.heap := rfl

@[simp] theorem heap_evictOverflow (fuel : ℕ) (ledger : TerminalInputSequenceLedger) :
    (evictOverflow fuel ledger).heap = ledger.heap := by
  induction fuel generalizing ledger with
  | zero => rfl
  | succ fuel ih =>
    unfold evictOverflow
    split_ifs
    · split
      · rfl
      · exact ih _
    · rfl

end TerminalInputSequenceLedger

/-- How one step may change a session object. -/
inductive Change (session : Session) : Session → Prop
  | start (index : ℕ) (assertBinding : TerminalInputSessionBinding → Bool) :
      Change session (session.start index assertBinding)
  | writeEnds (index : ℕ) (outcome : TerminalInputWriteOutcome) :
      Change session (session.writeEnds index outcome)
  | finish (index : ℕ) : Change session (session.finish index).1
  | block : Change session session.block
  | chainPlain (seq : ℤ) : Change session (session.chain seq none)
  | chainStrict (seq : ℤ) (bytes : ℕ) (fingerprint : String) (strict charged : Strict)
      (hstrict : session.strict = some strict) (hunblocked : strict.blocked = false)
      (hblocked : charged.blocked = strict.blocked)
      (hprior : session.appliedSeq < seq ∧ strict.fingerprints.lookup seq = none ∨
        strict.fingerprints.lookup seq = some fingerprint)
      (hfingerprints :
        charged.fingerprints = setFingerprint strict.fingerprints seq fingerprint) :
      Change session (({ session with strict := some charged } : Session).chain seq (some bytes))

inductive Fresh : Session → Prop
  | plain (seq : ℤ) : Fresh ((newPlainSession seq).chain seq none)
  | strict (token : ℕ) (binding : TerminalInputSessionBinding) :
      Fresh (newStrictSession token binding)

/-- A step on the session objects: one of them changes, or a new one comes after them. -/
inductive HeapStep (heap next : List Session) : Prop
  | change (id : ℕ) (session changed : Session) (hsession : heap[id]? = some session)
      (hchange : Change session changed) (hnext : next = heap.set id changed)
  | fresh (session : Session) (hfresh : Fresh session) (hnext : next = heap ++ [session])
  | same (hnext : next = heap)

theorem heapStep_modify {heap : List Session} (id : ℕ) {change : Session → Session}
    (hchange : ∀ session, heap[id]? = some session → Change session (change session)) :
    HeapStep heap (heap.modify id change) := by
  cases hsession : heap[id]? with
  | none =>
    refine .same ?_
    rw [modify_eq_self]
    exact getElem?_eq_none_iff.mp hsession
  | some session =>
    refine .change id session (change session) hsession (hchange session hsession) ?_
    rw [modify_eq_set_getElem?, hsession]
    rfl

namespace TerminalInputSequenceLedger

variable {ledger : TerminalInputSequenceLedger}

theorem heapStep_openStrictSession (owner : String) (binding : TerminalInputSessionBinding) :
    HeapStep ledger.heap (ledger.openStrictSession owner binding).1.heap := by
  unfold openStrictSession
  dsimp only
  split_ifs
  · exact .same rfl
  · split
    · exact .same rfl
    · exact .fresh _ (.strict _ _) rfl
  · exact .fresh _ (.strict _ _) rfl

theorem heapStep_admitStrict (ptyId owner : String) (token : ℕ) (seq : ℤ) (bytes : ℕ)
    (fingerprint : String) (assertBinding : TerminalInputSessionBinding → Bool) :
    HeapStep ledger.heap
      (ledger.admitStrict ptyId owner token seq bytes fingerprint assertBinding).1.heap := by
  unfold admitStrict
  dsimp only
  split
  · exact .same rfl
  · rename_i id _
    split
    · exact .same rfl
    · rename_i session hsession
      split
      · exact .same rfl
      · rename_i strict hstrict
        by_cases htoken : strict.token ≠ token
        · rw [if_pos htoken]
          exact .same rfl
        rw [if_neg htoken]
        by_cases hblocked : strict.blocked = true
        · rw [if_pos hblocked]
          split_ifs <;> exact .same rfl
        rw [if_neg hblocked]
        by_cases hbinding : ¬ assertBinding strict.binding = true
        · rw [if_pos hbinding]
          exact heapStep_modify id fun _ _ => .block
        rw [if_neg hbinding]
        split_ifs with hrefused
        · exact heapStep_modify id fun _ _ => .block
        · refine heapStep_modify id fun other hother => ?_
          rw [hsession] at hother
          obtain rfl := Option.some.inj hother
          simp only [not_or] at hrefused
          refine .chainStrict seq bytes fingerprint strict _ hstrict
            (Bool.eq_false_iff.mpr hblocked) rfl
            (new_or_known hrefused.2.1 hrefused.2.2.1) rfl

theorem heapStep_admitInput (ptyId inputSessionId : String) (seq : ℤ) :
    HeapStep ledger.heap (ledger.admitInput ptyId inputSessionId seq).heap := by
  unfold admitInput update
  cases hfind : ledger.find (plainKey ptyId inputSessionId) with
  | some id =>
    simp only [heap_evictOverflow, heap_refresh, hfind]
    exact heapStep_modify id fun session _ => .chainPlain seq
  | none =>
    simp only [heap_evictOverflow, heap_refresh, hfind]
    refine .fresh _ (.plain seq) ?_
    rw [modify_eq_set_getElem?]
    simp

theorem heapStep_step (event : Event) : HeapStep ledger.heap (ledger.step event).heap := by
  cases event with
  | trackLegacy ptyId owner => exact .same rfl
  | legacySettles ptyId owner => exact .same rfl
  | openStrictSession owner binding => exact heapStep_openStrictSession owner binding
  | admitStrict ptyId owner token seq bytes fingerprint assertBinding =>
    exact heapStep_admitStrict ptyId owner token seq bytes fingerprint assertBinding
  | admitInput ptyId inputSessionId seq => exact heapStep_admitInput ptyId inputSessionId seq
  | inputFrame ptyId inputSessionId seq =>
    change HeapStep _ (ledger.handleMultiplexInputFrame ptyId inputSessionId seq).heap
    unfold handleMultiplexInputFrame
    split
    · exact .same rfl
    · exact heapStep_admitInput _ _ _
  | start id index assertBinding =>
    exact heapStep_modify id fun session _ => .start index assertBinding
  | writeEnds id index outcome => exact heapStep_modify id fun session _ => .writeEnds index outcome
  | finish id index => exact heapStep_modify id fun session _ => .finish index

end TerminalInputSequenceLedger

section Invariant

variable {session changed : Session}

/-- What a strict write that is chained leaves of the stored texts. -/
theorem Session.Valid.set (hok : session.Valid) {strict : Strict}
    (hstrict : session.strict = some strict) {seq : ℤ} {fingerprint : String}
    (hprior : session.appliedSeq < seq ∧ strict.fingerprints.lookup seq = none ∨
      strict.fingerprints.lookup seq = some fingerprint) :
    0 < seq ∧ FingerprintsOk (setFingerprint strict.fingerprints seq fingerprint) ∧
      KeepsTexts strict.fingerprints (setFingerprint strict.fingerprints seq fingerprint) ∧
        (setFingerprint strict.fingerprints seq fingerprint).lookup seq = some fingerprint := by
  have hknown := hok.fenced.fingerprints strict hstrict
  have hpositive : 0 < seq := by
    rcases hprior with ⟨habove, _⟩ | hstored
    · have hnonneg := hok.appliedSeq_nonneg (by rw [hstrict]; rfl)
      omega
    · obtain ⟨before, after, heq, _⟩ := lookup_eq_some_iff.mp hstored
      exact hknown.positive (seq, fingerprint) (heq ▸ mem_append_right _ mem_cons_self)
  exact ⟨hpositive, hknown.set hpositive (hprior.imp And.right id)⟩

theorem Change.valid (hchange : Change session changed) (hok : session.Valid)
    (hstarted : session.strict.isSome = true ∨ session.runs ≠ []) : changed.Valid := by
  cases hchange with
  | start index assertBinding => exact hok.start index assertBinding
  | writeEnds index outcome => exact hok.writeEnds index outcome
  | finish index => exact hok.finish index
  | block => exact hok.block
  | chainPlain seq => exact hok.chain (fun hsome => by cases hsome) hstarted
  | chainStrict seq bytes fingerprint strict charged hstrict hunblocked hblocked hprior
      hfingerprints =>
    obtain ⟨hpositive, hset, _⟩ := hok.set hstrict hprior
    exact (hok.charge hstrict hblocked (hfingerprints ▸ hset)).chain (fun _ => ⟨hpositive, rfl⟩)
      (Or.inl rfl)

end Invariant

/-- What a session object keeps as it goes on. -/
structure Continues (session next : Session) : Prop where
  length : session.runs.length ≤ next.runs.length
  blocked : session.isBlocked = true → next.isBlocked = true
  /-- A blocked session calls no further write function for a strict link. -/
  quiet : session.isBlocked = true → ∀ (index : ℕ) (run : Run), next.runs[index]? = some run →
    run.isStrict = true → run.ran = true →
      ∃ before, session.runs[index]? = some before ∧ before.isStrict = true ∧ before.ran = true
  /-- The text of a number is forgotten only for younger numbers, once the list is full. -/
  remembered : ∀ strict ∈ session.strict, ∃ later ∈ next.strict,
    KeepsTexts strict.fingerprints later.fingerprints

section Continues

variable {session next last : Session} {index : ℕ} {run moved : Run}

theorem Continues.refl (session : Session) : Continues session session :=
  ⟨le_rfl, id, fun _ _ run hrun hstrict hran => ⟨run, hrun, hstrict, hran⟩,
    fun strict hstrict => ⟨strict, hstrict, .refl _⟩⟩

theorem Continues.strict (hcontinues : Continues session next)
    (hsome : session.strict.isSome = true) : next.strict.isSome = true := by
  obtain ⟨strict, hstrict⟩ := Option.isSome_iff_exists.mp hsome
  obtain ⟨later, hlater, _⟩ := hcontinues.remembered strict hstrict
  exact Option.isSome_iff_exists.mpr ⟨later, hlater⟩

theorem remembers_block : ∀ strict ∈ session.strict, ∃ later ∈ session.block.strict,
    KeepsTexts strict.fingerprints later.fingerprints := by
  intro strict hstrict
  exact ⟨{ strict with blocked := true }, Option.map_eq_some_iff.mpr ⟨strict, hstrict, rfl⟩,
    .refl _⟩

theorem Continues.trans (hfirst : Continues session next) (hsecond : Continues next last) :
    Continues session last := by
  refine ⟨hfirst.length.trans hsecond.length,
    fun hblocked => hsecond.blocked (hfirst.blocked hblocked),
    fun hblocked index run hrun hstrict hran => ?_, fun strict hstrict => ?_⟩
  · obtain ⟨middle, hmiddle, hmiddleStrict, hmiddleRan⟩ :=
      hsecond.quiet (hfirst.blocked hblocked) index run hrun hstrict hran
    exact hfirst.quiet hblocked index middle hmiddle hmiddleStrict hmiddleRan
  · obtain ⟨middle, hmiddle, hkept⟩ := hfirst.remembered strict hstrict
    obtain ⟨later, hlater, hkeptNext⟩ := hsecond.remembered middle hmiddle
    exact ⟨later, hlater, hkept.trans hkeptNext⟩

section

variable (hrun : session.runs[index]? = some run)
include hrun

theorem continues_set
    (hnext : next.runs = session.runs.set index moved) (hstrict : moved.isStrict = run.isStrict)
    (hran : session.isBlocked = true → run.isStrict = true → moved.ran = true → run.ran = true)
    (hkept : ∀ strict ∈ session.strict, ∃ later ∈ next.strict,
      KeepsTexts strict.fingerprints later.fingerprints)
    (hblocked : session.isBlocked = true → next.isBlocked = true) : Continues session next := by
  refine ⟨?_, hblocked, fun hnow other found hfound hfoundStrict hfoundRan => ?_, hkept⟩
  · rw [hnext, length_set]
  · rw [hnext] at hfound
    by_cases heq : index = other
    · subst heq
      have hindex := (List.getElem?_eq_some_iff.mp hrun).1
      rw [List.getElem?_set_self hindex] at hfound
      obtain rfl := Option.some.inj hfound
      rw [hstrict] at hfoundStrict
      exact ⟨run, hrun, hfoundStrict, hran hnow hfoundStrict hfoundRan⟩
    · rw [getElem?_set_ne heq] at hfound
      exact ⟨found, hfound, hfoundStrict, hfoundRan⟩

theorem continues_conclude (outcome : TerminalInputWriteOutcome) :
    Continues session (session.conclude index run outcome) := by
  rw [Session.conclude_eq rfl]
  split_ifs
  · exact continues_set hrun rfl rfl (fun _ _ hran => hran) remembers_block
      fun hblocked => isBlocked_block_of_isBlocked hblocked
  · exact continues_set hrun rfl rfl (fun _ _ hran => hran)
      (fun strict hstrict => ⟨strict, hstrict, .refl _⟩) id

theorem continues_startStrict (assertBinding : TerminalInputSessionBinding → Bool) :
    Continues session (session.startStrict index run assertBinding) := by
  unfold Session.startStrict
  have hkept := (Continues.refl session).remembered
  have hanswer : ∀ reply, Continues session (session.setRun index (run.answer reply)) :=
    fun reply => continues_set hrun rfl rfl (fun _ _ hran => hran) hkept id
  split_ifs with hblocked
  · exact hanswer _
  · exact hanswer _
  · exact hanswer _
  · exact continues_set hrun rfl rfl (fun _ _ hran => hran) remembers_block
      fun hnow => isBlocked_block_of_isBlocked hnow
  · exact continues_set hrun rfl rfl (fun hnow _ _ => absurd hnow hblocked) hkept id
  · exact continues_conclude hrun .deliveryUnknown

end

/-- No change of a session gives up what the session stands for. -/
theorem Change.continues (hchange : Change session next) (hok : session.Valid) :
    Continues session next := by
  have hkept := (Continues.refl session).remembered
  cases hchange with
  | start index assertBinding =>
    unfold Session.start
    cases hrun : session.runs[index]? with
    | none => exact Continues.refl session
    | some run =>
      dsimp only
      split_ifs with hturn hstrict
      · exact continues_startStrict hrun assertBinding
      · have hplain : session.isBlocked = true → run.isStrict = true → True → run.ran = true :=
          fun _ hstrictNow _ => absurd hstrictNow hstrict
        unfold Session.startPlain
        split_ifs
        all_goals
          exact continues_set hrun rfl rfl (fun hnow hstrictNow _ =>
            hplain hnow hstrictNow trivial) hkept id
      · exact Continues.refl session
  | writeEnds index outcome =>
    unfold Session.writeEnds
    cases hrun : session.runs[index]? with
    | none => exact Continues.refl session
    | some run =>
      dsimp only
      split_ifs
      · exact continues_conclude hrun outcome
      · exact Continues.refl session
  | finish index =>
    unfold Session.finish
    cases hrun : session.runs[index]? with
    | none => exact Continues.refl session
    | some run =>
      dsimp only
      split
      · refine continues_set hrun rfl rfl (fun _ _ hran => hran) (fun strict hstrict => ?_)
          fun hnow => ?_
        · exact ⟨_, Option.map_eq_some_iff.mpr ⟨strict, hstrict, rfl⟩, .refl _⟩
        · rw [Session.isBlocked] at hnow ⊢
          rwa [Option.any_map]
      · exact Continues.refl session
  | block =>
    exact ⟨le_rfl, fun hblocked => isBlocked_block_of_isBlocked hblocked,
      (Continues.refl session).quiet, remembers_block⟩
  | chainPlain seq =>
    refine ⟨by simp [Session.chain], id, fun _ index run hrun hstrict hran => ?_, hkept⟩
    by_cases hindex : index < session.runs.length
    · rw [Session.chain, getElem?_append_left hindex] at hrun
      exact ⟨run, hrun, hstrict, hran⟩
    · rw [Session.chain, getElem?_append_right (not_lt.mp hindex)] at hrun
      obtain rfl := mem_singleton.mp (mem_of_getElem? hrun)
      cases hran
  | chainStrict seq bytes fingerprint strict charged hstrict hunblocked hblocked hprior
      hfingerprints =>
    have hopen : ¬ session.isBlocked = true := by
      rw [Session.isBlocked, hstrict, Option.any_some, hunblocked]
      rintro ⟨⟩
    refine ⟨by simp [Session.chain], fun hnow => absurd hnow hopen,
      fun hnow => absurd hnow hopen, fun other hother => ⟨charged, rfl, ?_⟩⟩
    obtain rfl := Option.some.inj (hstrict.symm.trans hother)
    rw [hfingerprints]
    exact (hok.set hstrict hprior).2.2.1

end Continues

namespace TerminalInputSequenceLedger

variable {ledger : TerminalInputSequenceLedger}

theorem Ok.step (hok : ledger.Ok) (event : Event) : (ledger.step event).Ok := by
  intro session hsession
  cases heapStep_step event with
  | change id old changed hold hchange hnext =>
    rw [hnext] at hsession
    rcases mem_or_eq_of_mem_set hsession with hsession | rfl
    · exact hok session hsession
    · obtain ⟨hvalid, hstarted⟩ := hok old (mem_of_getElem? hold)
      have hcontinues := hchange.continues hvalid
      refine ⟨hchange.valid hvalid hstarted, hstarted.imp hcontinues.strict fun hruns hnil => ?_⟩
      have hlength := hcontinues.length
      rw [hnil] at hlength
      exact hruns (length_eq_zero_iff.mp (Nat.le_zero.mp hlength))
  | fresh made hfresh hnext =>
    rw [hnext] at hsession
    rcases mem_append.mp hsession with hsession | hsession
    · exact hok session hsession
    · rw [mem_singleton.mp hsession]
      cases hfresh with
      | plain seq => exact ⟨valid_newPlainSession seq, Or.inr nofun⟩
      | strict token binding => exact ⟨valid_newStrictSession token binding, Or.inl rfl⟩
  | same hnext =>
    rw [hnext] at hsession
    exact hok session hsession

theorem Ok.run (hok : ledger.Ok) (events : List Event) : (ledger.run events).Ok := by
  induction events generalizing ledger with
  | nil => exact hok
  | cons event events ih => exact ih (hok.step event)

end TerminalInputSequenceLedger

section Writes

variable {session : Session} {before after done rest : List Run} {run : Run}

section

variable (hok : session.InOrder) {middle : List Run} {later : Run}
  (hruns : session.runs = done ++ run :: (middle ++ later :: rest)) (hrun : run.attempted = true)
  (hlater : later.attempted = true)
include hok hruns hrun hlater

end

end Writes

section Claims

variable {session : Session}

end Claims

namespace TerminalInputSequenceLedger

variable {ledger : TerminalInputSequenceLedger}

def strictSession (ledger : TerminalInputSequenceLedger) (ptyId owner : String) : Option Session :=
  (ledger.find (strictKey ptyId owner)).bind fun id => ledger.heap[id]?

/-- What a strict write may be told at once. -/
def AnswersFrom (ledger : TerminalInputSequenceLedger) (ptyId owner : String) (seq : ℤ)
    (reply : TerminalInputAdmission) : Prop :=
  (reply = ⟨.resend, ((ledger.strictSession ptyId owner).map fun session =>
      lastSettled session.firstSettled session.runs).getD 0⟩) ∨
    reply = ⟨.deliveryUnknown, seq⟩ ∧ ∃ session, ledger.strictSession ptyId owner = some session ∧
      ∃ writer ∈ session.runs, writer.seq = seq ∧ writer.outcome = some .deliveryUnknown

variable {ptyId owner : String}

theorem not_current_of_block {id : ℕ} {session : Session}
    (hfind : ledger.find (strictKey ptyId owner) = some id)
    (hsession : ledger.heap[id]? = some session) (token : ℕ) :
    (ledger.update id Session.block).isStrictSessionCurrent ptyId owner token = false := by
  have hsame : (ledger.update id Session.block).find (strictKey ptyId owner) = some id := hfind
  have hblocked : (ledger.update id Session.block).heap[id]? = some session.block := by
    change (ledger.heap.modify id Session.block)[id]? = _
    rw [getElem?_modify_eq, hsession]
    rfl
  unfold isStrictSessionCurrent strictOf
  rw [hsame, Option.bind_some, hblocked, Option.bind_some]
  cases hstrict : session.strict with
  | none => simp [Session.block, hstrict]
  | some strict => simp [Session.block, hstrict]

/-- What a write with a current token meets: a place in the chain with its text stored, or
a refusal that blocks the session. A lost binding, and another text under a number whose
text is stored, are refused at once. -/
structure MeetsCurrent (ledger : TerminalInputSequenceLedger) (id : ℕ) (session : Session)
    (strict : Strict) (seq : ℤ) (fingerprint : String)
    (assertBinding : TerminalInputSessionBinding → Bool)
    (admitted : TerminalInputSequenceLedger × Option TerminalInputAdmission) : Prop where
  refused : admitted.2 ≠ none → admitted =
    (ledger.update id Session.block,
      some ⟨.resend, lastSettled session.firstSettled session.runs⟩)
  mismatch : (assertBinding strict.binding = false ∨
    ∃ stored, strict.fingerprints.lookup seq = some stored ∧ stored ≠ fingerprint) →
      admitted.2 ≠ none
  stored : admitted.2 = none → ∃ chained, admitted.1.heap[id]? = some chained ∧
    ∃ charged ∈ chained.strict, charged.fingerprints.lookup seq = some fingerprint

theorem MeetsCurrent.answers {id : ℕ} {session : Session} {strict : Strict}
    (hfind : ledger.find (strictKey ptyId owner) = some id)
    (hsession : ledger.heap[id]? = some session) {token : ℕ} {seq : ℤ} {fingerprint : String}
    {assertBinding : TerminalInputSessionBinding → Bool}
    {admitted : TerminalInputSequenceLedger × Option TerminalInputAdmission}
    (hmeets : ledger.MeetsCurrent id session strict seq fingerprint assertBinding admitted) :
    ∀ reply, admitted.2 = some reply → ledger.AnswersFrom ptyId owner seq reply ∧
      admitted.1.isStrictSessionCurrent ptyId owner token = false := by
  intro reply hreply
  have heq := hmeets.refused (by rw [hreply]; nofun)
  rw [heq] at hreply ⊢
  obtain rfl := Option.some.inj hreply
  refine ⟨Or.inl ?_, not_current_of_block hfind hsession token⟩
  rw [strictSession, hfind, Option.bind_some, hsession]
  rfl

end TerminalInputSequenceLedger

open TerminalInputSequenceLedger

end Wakii.TerminalInput
