import Wakii.Workspaces.LifecycleSteps

/-!
# Runs of the lifecycle queue

Over any interleaving the history of every workspace obeys the laws, and every
command starts and every reply settles at most once.
-/

namespace Wakii.WorkspaceLifecycle

open List Precedence

variable {queue : WorkspaceQueue} {history : List Event} {change : Change} {seq : ℕ}
  {command : LifecycleCommand}

section Replies

def settledOf (replies : List Reply) : List ℕ :=
  replies.filterMap fun reply => match reply with
    | .settled seq => some seq
    | .shared _ _ => none

@[simp]
theorem settledOf_append (first second : List Reply) :
    settledOf (first ++ second) = settledOf first ++ settledOf second := filterMap_append

def Holds (queue : WorkspaceQueue) (seq : ℕ) : Prop :=
  ∃ entry ∈ queue.entries, entry.command.isSome = true ∧ entry.seq = seq

/-- What a change of a queue may do to commands and replies, with the command
that comes to it. -/
structure Settles (arriving : Option ℕ) (queue : WorkspaceQueue) (change : Change) : Prop where
  nodup : (settledOf change.replies).Nodup
  own : ∀ seq ∈ settledOf change.replies, some seq = arriving ∨ Holds queue seq
  gone : ∀ seq ∈ settledOf change.replies, ¬ Holds change.queue seq
  held : ∀ seq, Holds change.queue seq → some seq = arriving ∨ Holds queue seq
  shared : ∀ seq pending, .shared seq pending ∈ change.replies → some seq = arriving ∧
    change.events = [] ∧ settledOf change.replies = [] ∧
      ∀ seq, Holds change.queue seq → Holds queue seq
  entered : ∀ seq command, .entered seq command ∈ change.events → some seq = arriving ∧
    seq ∉ settledOf change.replies
  heldEntered : ∀ seq, some seq = arriving → Holds change.queue seq → Holds queue seq ∨
    ∃ command, .entered seq command ∈ change.events

theorem settles_silently {arriving : Option ℕ} (hreplies : change.replies = [])
    (hheld : ∀ seq, Holds change.queue seq → Holds queue seq)
    (hevents : ∀ seq command, .entered seq command ∉ change.events) :
    Settles arriving queue change where
  nodup := by
    rw [hreplies]
    exact nodup_nil
  own seq hseq := by
    rw [hreplies] at hseq
    cases hseq
  gone seq hseq := by
    rw [hreplies] at hseq
    cases hseq
  held seq hholds := Or.inr (hheld seq hholds)
  shared seq pending hshared := by
    rw [hreplies] at hshared
    cases hshared
  entered seq command hentered := absurd hentered (hevents seq command)
  heldEntered seq _ hholds := Or.inl (hheld seq hholds)

theorem holds_congr {first second : WorkspaceQueue} (hentries : first.entries = second.entries)
    (seq : ℕ) : Holds first seq → Holds second seq := by
  rw [Holds, Holds, hentries]
  exact id

/-- The running command is no other one of the queue. -/
theorem Explained.waits_of_ne (hexplained : Explained queue history) {entry : Entry}
    (hentry : entry ∈ queue.entries) (hcommand : entry.command.isSome = true)
    (hrunning : entry.running = true) :
    ∃ command, queue.phase = .running entry.seq command ∧
      ∃ rest, queue.entries = entry :: rest ∧ Ordered rest := by
  have hnone (hordered : Ordered queue.entries) : False := by
    obtain ⟨creates, waiting, hentries, hcreates, hwaiting, _⟩ := hordered
    rw [hentries] at hentry
    rcases mem_append.mp hentry with hcreate | hwaits
    · rw [(hcreates entry hcreate).2] at hcommand
      cases hcommand
    · rw [(hwaiting entry hwaits).1] at hrunning
      cases hrunning
  have hshape := hexplained.shape
  cases hphase : queue.phase with
  | running seq command =>
    simp only [Shape, hphase] at hshape
    obtain ⟨rest, hentries, hordered⟩ := hshape
    rw [hentries] at hentry
    rcases mem_cons.mp hentry with rfl | hrest
    · exact ⟨command, rfl, rest, hentries, hordered⟩
    · obtain ⟨creates, waiting, rfl, hcreates, hwaiting, _⟩ := hordered
      rcases mem_append.mp hrest with hcreate | hwaits
      · rw [(hcreates entry hcreate).2] at hcommand
        cases hcommand
      · rw [(hwaiting entry hwaits).1] at hrunning
        cases hrunning
  | _ =>
    simp only [Shape, hphase] at hshape
    exact (hnone hshape).elim

theorem Explained.entered_of_holds (hexplained : Explained queue history)
    (hserialized : Serialized history) (hholds : Holds queue seq) :
    ∃ command, .entered seq command ∈ history := by
  obtain ⟨entry, hentry, hcommand, rfl⟩ := hholds
  cases hruns : entry.running with
  | false =>
    obtain ⟨command, _, hentered, _⟩ := hexplained.waiting entry hentry hruns
    exact ⟨command, hentered⟩
  | true =>
    obtain ⟨command, hphase, _⟩ := hexplained.waits_of_ne hentry hcommand hruns
    have hstarted := hexplained.running entry.seq command hphase
    exact ⟨command, first_mem (hserialized.entered entry.seq command hstarted)⟩

theorem Explained.seq_ne (hexplained : Explained queue history) {waits runs : Entry}
    (hwaits : waits ∈ queue.entries) (hwaiting : waits.running = false)
    (hruns : runs ∈ queue.entries) (hcommand : runs.command.isSome = true)
    (hrunning : runs.running = true) : runs.seq ≠ waits.seq := by
  intro hsame
  obtain ⟨command, hphase, _⟩ := hexplained.waits_of_ne hruns hcommand hrunning
  rw [hsame] at hphase
  exact hexplained.unstarted hwaits hwaiting command (hexplained.running waits.seq command hphase)

theorem settledOf_cancelled (queue : WorkspaceQueue) :
    settledOf (cancelled queue) = (queue.entries.filter (!·.running)).map (·.seq) := by
  rw [cancelled, settledOf, filterMap_map]
  exact congrFun (filterMap_eq_map (f := fun entry : Entry => entry.seq)) _

theorem waiting_sorted (hexplained : Explained queue history) :
    (queue.entries.filter (!·.running)).Pairwise (·.seq < ·.seq) := by
  have hordered : ∀ entries : List Entry, Ordered entries →
      (entries.filter (!·.running)).Pairwise (·.seq < ·.seq) := by
    rintro _ ⟨creates, waiting, rfl, hcreates, hwaiting, hsorted⟩
    have hnone : creates.filter (!·.running) = [] :=
      filter_eq_nil_iff.mpr fun entry hentry => by simp [(hcreates entry hentry).1]
    rw [filter_append, hnone, nil_append]
    exact hsorted.sublist filter_sublist
  have hshape := hexplained.shape
  cases hphase : queue.phase with
  | running seq command =>
    simp only [Shape, hphase] at hshape
    obtain ⟨rest, hentries, hrest⟩ := hshape
    rw [hentries, filter_cons_of_neg (by simp)]
    exact hordered rest hrest
  | _ =>
    simp only [Shape, hphase] at hshape
    exact hordered _ hshape

/-- A command that comes settles only those it cancels. -/
theorem settles_accept (hexplained : Explained queue history)
    (hnew : ∀ other, .entered seq other ∉ history) :
    Settles (some seq) queue (accept seq command queue) := by
  have hwaits : ∀ entry ∈ queue.entries, entry.running = false → entry.seq ≠ seq := by
    rintro entry hentry hwaiting rfl
    obtain ⟨other, _, hentered, _⟩ := hexplained.waiting entry hentry hwaiting
    exact hnew other hentered
  have hcancelled : ∀ seq' ∈ settledOf (cancelled queue), ∃ entry ∈ queue.entries,
      entry.running = false ∧ entry.seq = seq' := by
    intro seq' hseq
    rw [settledOf_cancelled, mem_map] at hseq
    obtain ⟨entry, hentry, hof⟩ := hseq
    obtain ⟨hmem, hwaiting⟩ := mem_filter.mp hentry
    exact ⟨entry, hmem, by simpa using hwaiting, hof⟩
  have hheld (base : List Entry) (hbase : ∀ entry ∈ base, entry ∈ queue.entries) (seq' : ℕ)
      (hholds : Holds (enter seq command { queue with entries := base }) seq') :
      seq' = seq ∨ ∃ entry ∈ base, entry.command.isSome = true ∧ entry.seq = seq' := by
    obtain ⟨entry, hentry, hcommand, hof⟩ := hholds
    rcases mem_splice.mp hentry with rfl | hentry
    · exact Or.inl hof.symm
    · exact Or.inr ⟨entry, hentry, hcommand, hof⟩
  rw [accept]
  split_ifs with hdelete
  · refine
      { nodup := ?_
        own := fun seq' hseq => ?_
        gone := fun seq' hseq hholds => ?_
        held := fun seq' hholds => ?_
        shared := fun seq' pending hshared => ?_
        entered := fun seq' command' hentered => ?_
        heldEntered := fun seq' harriving _ => ?_ }
    · rw [settledOf_cancelled]
      exact (pairwise_map.mpr (waiting_sorted hexplained)).imp Nat.ne_of_lt
    · obtain ⟨entry, hentry, hwaiting, hof⟩ := hcancelled seq' hseq
      obtain ⟨command', hcommand, _⟩ := hexplained.waiting entry hentry hwaiting
      exact Or.inr ⟨entry, hentry, by rw [hcommand]; rfl, hof⟩
    · obtain ⟨waits, hmem, hwaiting, rfl⟩ := hcancelled seq' hseq
      rcases hheld _ (fun entry hentry => mem_of_mem_filter hentry) _ hholds with
        hsame | ⟨entry, hentry, hcommand, hof⟩
      · exact hwaits waits hmem hwaiting hsame
      · obtain ⟨hentry, hrunning⟩ := mem_filter.mp hentry
        exact hexplained.seq_ne hmem hwaiting hentry hcommand hrunning hof
    · rcases hheld _ (fun entry hentry => mem_of_mem_filter hentry) seq' hholds with
        rfl | ⟨entry, hentry, hcommand, hof⟩
      · exact Or.inl rfl
      · exact Or.inr ⟨entry, mem_of_mem_filter hentry, hcommand, hof⟩
    · obtain ⟨_, _, h⟩ := mem_map.mp hshared
      cases h
    · cases mem_singleton.mp hentered
      refine ⟨rfl, fun hseq => ?_⟩
      obtain ⟨entry, hentry, hwaiting, hof⟩ := hcancelled seq hseq
      exact hwaits entry hentry hwaiting hof
    · cases harriving
      exact Or.inr ⟨command, mem_cons_self⟩
  · refine
      { nodup := nodup_nil
        own := fun _ hseq => (by cases hseq)
        gone := fun _ hseq => (by cases hseq)
        held := fun seq' hholds => ?_
        shared := fun _ _ hshared => (by cases hshared)
        entered := fun seq' command' hentered => ?_
        heldEntered := fun seq' harriving _ => ?_ }
    · rcases hheld queue.entries (fun _ => id) seq' hholds with rfl | hholds
      · exact Or.inl rfl
      · exact Or.inr hholds
    · cases mem_singleton.mp hentered
      exact ⟨rfl, fun hseq => by cases hseq⟩
    · cases harriving
      exact Or.inr ⟨command, mem_cons_self⟩

theorem settles_refused (hnone : ¬ Holds queue seq) :
    Settles (some seq) queue { queue, replies := [.settled seq] } where
  nodup := pairwise_singleton _ seq
  own seq' hseq := Or.inl (congrArg some (mem_singleton.mp hseq))
  gone seq' hseq := by
    obtain rfl : seq' = seq := mem_singleton.mp hseq
    exact hnone
  held _ hholds := Or.inr hholds
  shared _ _ hshared := by cases mem_singleton.mp hshared
  entered _ _ hentered := by cases hentered
  heldEntered _ _ hholds := Or.inl hholds

theorem settles_joined (pending : ℕ) :
    Settles (some seq) queue { queue, replies := [.shared seq pending] } where
  nodup := nodup_nil
  own _ hseq := by cases hseq
  gone _ hseq := by cases hseq
  held _ hholds := Or.inr hholds
  shared seq' pending' hshared := by
    cases mem_singleton.mp hshared
    exact ⟨rfl, rfl, rfl, fun _ => id⟩
  entered _ _ hentered := by cases hentered
  heldEntered _ _ hholds := Or.inl hholds

theorem settles_enqueue (hexplained : Explained queue history) (hserialized : Serialized history)
    (hnew : ∀ other, .entered seq other ∉ history) :
    Settles (some seq) queue (enqueue seq command queue) := by
  have hnone : ¬ Holds queue seq := fun hholds => by
    obtain ⟨other, hentered⟩ := hexplained.entered_of_holds hserialized hholds
    exact hnew other hentered
  rw [enqueue]
  split
  next => exact settles_accept hexplained hnew
  next pending _ =>
    split_ifs
    · exact settles_refused hnone
    · exact settles_joined pending.seq
    · exact settles_refused hnone
    · exact settles_accept hexplained hnew

theorem settles_drain {mustWait : ℕ → Bool} (hdrained : drain mustWait queue = some change) :
    Settles none queue change := by
  obtain ⟨_, ⟨hevents, hreplies, hentries, _⟩ | ⟨pause, _, _, rfl⟩ |
    ⟨head, rest, command, hentries, _, hcommand, _, rfl⟩⟩ := drain_cases hdrained
  · refine settles_silently hreplies (holds_congr hentries) fun _ _ h => ?_
    rw [hevents] at h
    cases h
  · exact settles_silently rfl (fun _ => id) fun _ _ h => (by cases h)
  · refine settles_silently rfl (fun seq hholds => ?_) fun _ _ h => by cases mem_singleton.mp h
    obtain ⟨entry, hentry, hcommand, hof⟩ := hholds
    rcases mem_cons.mp hentry with rfl | hentry
    · exact ⟨head, hentries ▸ mem_cons_self, hcommand, hof⟩
    · exact ⟨entry, hentries ▸ mem_cons_of_mem _ hentry, hcommand, hof⟩

theorem settles_bindCreate (hbound : bindCreate seq queue = some change) :
    Settles none queue change := by
  rw [bindCreate] at hbound
  split_ifs at hbound
  obtain rfl := Option.some.inj hbound
  refine settles_silently rfl (fun seq' hholds => ?_) fun _ _ h => by cases mem_singleton.mp h
  obtain ⟨entry, hentry, hcommand, hof⟩ := hholds
  rcases mem_splice.mp hentry with rfl | hentry
  · cases hcommand
  · exact ⟨entry, hentry, hcommand, hof⟩

theorem settles_finishEntry (hfinished : finishEntry seq queue = some change) :
    Settles none queue change := by
  rw [finishEntry] at hfinished
  split_ifs at hfinished
  obtain rfl := Option.some.inj hfinished
  refine settles_silently rfl (fun seq' hholds => ?_) fun _ _ h => (by cases h)
  obtain ⟨entry, hentry, hcommand, hof⟩ := hholds
  exact ⟨entry, mem_of_mem_eraseP hentry, hcommand, hof⟩

theorem settles_runEnded {attempt : LifecycleAttempt} (hexplained : Explained queue history)
    (hended : runEnded attempt queue = some change) : Settles none queue change := by
  rw [runEnded] at hended
  split at hended
  next seq command hrunning =>
    obtain rfl := Option.some.inj hended
    have hshape := hexplained.shape
    simp only [Shape, hrunning] at hshape
    obtain ⟨rest, hentries, hordered⟩ := hshape
    have herased : queue.entries.eraseP (isCommand seq) = rest := by
      rw [hentries, eraseP_cons_of_pos (by simp [isCommand])]
    refine
      { nodup := pairwise_singleton _ seq
        own := fun seq' hseq => ?_
        gone := fun seq' hseq hholds => ?_
        held := fun seq' hholds => ?_
        shared := fun _ _ hshared => by cases mem_singleton.mp hshared
        entered := fun _ _ hentered => by cases mem_singleton.mp hentered
        heldEntered := fun _ harriving => by cases harriving }
    · obtain rfl : seq' = seq := mem_singleton.mp hseq
      exact Or.inr ⟨_, hentries ▸ mem_cons_self, rfl, rfl⟩
    · obtain rfl : seq' = seq := mem_singleton.mp hseq
      obtain ⟨entry, hentry, hcommand, hof⟩ := hholds
      have hentry : entry ∈ rest := herased ▸ hentry
      obtain ⟨creates, waiting, rfl, hcreates, hwaiting, _⟩ := hordered
      rcases mem_append.mp hentry with hcreate | hwaits
      · rw [(hcreates entry hcreate).2] at hcommand
        cases hcommand
      · refine hexplained.seq_ne (hentries ▸ mem_cons_of_mem _ hentry) (hwaiting entry hwaits).1
          (hentries ▸ mem_cons_self) rfl rfl hof.symm
    · obtain ⟨entry, hentry, hcommand, hof⟩ := hholds
      exact Or.inr ⟨entry, mem_of_mem_eraseP hentry, hcommand, hof⟩
  next => cases hended

theorem settles_same (hreplies : change.replies = [])
    (hentries : change.queue.entries = queue.entries)
    (hevents : change.events = [] ∨ change.events = [.answered]) : Settles none queue change := by
  refine settles_silently hreplies (holds_congr hentries) fun _ _ h => ?_
  rcases hevents with hevents | hevents
  · rw [hevents] at h
    cases h
  · rw [hevents] at h
    cases mem_singleton.mp h

theorem settles_ownerAnswered {ok : Bool} (hanswered : ownerAnswered ok queue = some change) :
    Settles none queue change := by
  rw [ownerAnswered] at hanswered
  split_ifs at hanswered
  · obtain rfl := Option.some.inj hanswered
    exact settles_same rfl rfl (Or.inr rfl)
  · obtain rfl := Option.some.inj hanswered
    exact settles_same rfl rfl (Or.inl rfl)

theorem settles_resumed (hresumed : woken queue = some change ∨ retried queue = some change ∨
      lookupWaited queue = some change ∨ listed queue = some change ∨
      membershipShown queue = some change) : Settles none queue change := by
  rcases hresumed with h | h | h | h | h
  · rw [woken] at h
    split_ifs at h
    obtain rfl := Option.some.inj h
    exact settles_same rfl rfl (Or.inl rfl)
  · rw [retried] at h
    split_ifs at h
    obtain rfl := Option.some.inj h
    exact settles_same rfl rfl (Or.inl rfl)
  · rw [lookupWaited] at h
    split_ifs at h
    obtain rfl := Option.some.inj h
    exact settles_same rfl rfl (Or.inl rfl)
  · rw [listed] at h
    split_ifs at h
    obtain rfl := Option.some.inj h
    exact settles_same rfl rfl (Or.inl rfl)
  · rw [membershipShown] at h
    split_ifs at h
    obtain rfl := Option.some.inj h
    exact settles_same rfl rfl (Or.inl rfl)

end Replies

section Steps

variable {K : Type}

/-- Every step of a queue keeps its laws and its replies. -/
theorem queueStep_sound {lookups : List Lookup} {action : Action K} {key : K}
    {step : WorkspaceQueue → Option Change} (hstep : queueStep lookups action = some (key, step))
    (hexplained : Explained queue history) (hserialized : Serialized history)
    (hchange : step queue = some change) : Sound history change ∧ Settles none queue change := by
  cases action with
  | submit | submitResolving | resolved | directEnded | bindCreate => cases hstep
  | finishCreate key seq =>
    cases hstep
    exact ⟨finishEntry_sound hexplained hserialized hchange, settles_finishEntry hchange⟩
  | drain key now =>
    cases hstep
    exact ⟨drain_sound hexplained hserialized hchange, settles_drain hchange⟩
  | lookupWaited key =>
    cases hstep
    exact ⟨resumed_sound hexplained hserialized (Or.inr (Or.inr hchange)),
      settles_resumed (Or.inr (Or.inr (Or.inl hchange)))⟩
  | runEnded key attempt =>
    cases hstep
    exact ⟨runEnded_sound hexplained hserialized hchange, settles_runEnded hexplained hchange⟩
  | membershipShown key =>
    cases hstep
    exact ⟨membershipShown_sound hexplained hserialized hchange,
      settles_resumed (Or.inr (Or.inr (Or.inr (Or.inr hchange))))⟩
  | ownerAnswered key ok =>
    cases hstep
    exact ⟨ownerAnswered_sound hexplained hserialized hchange, settles_ownerAnswered hchange⟩
  | woken key =>
    cases hstep
    exact ⟨resumed_sound hexplained hserialized (Or.inl hchange), settles_resumed (Or.inl hchange)⟩
  | retried key =>
    cases hstep
    exact ⟨resumed_sound hexplained hserialized (Or.inr (Or.inl hchange)),
      settles_resumed (Or.inr (Or.inl hchange))⟩
  | listed key =>
    cases hstep
    exact ⟨listed_sound hexplained hserialized hchange,
      settles_resumed (Or.inr (Or.inr (Or.inr (Or.inl hchange))))⟩

end Steps

section Runs

variable {K : Type} [DecidableEq K] {state : Lifecycle K} {key : K}

/-- A reply that is settled, or shared with another one. -/
def HasReply (replies : List Reply) (seq : ℕ) : Prop :=
  seq ∈ settledOf replies ∨ ∃ pending, .shared seq pending ∈ replies

def Lifecycle.Knows (state : Lifecycle K) (seq : ℕ) : Prop :=
  (∃ key command, .entered seq command ∈ state.histories key) ∨
    seq ∈ state.startedDirectly ∨ HasReply state.replies seq

/-- Every command is at one place at a time, and is answered once. -/
structure Accounted (state : Lifecycle K) : Prop where
  explained : ∀ key, Explained (state.queues key) (state.histories key)
  serialized : ∀ key, Serialized (state.histories key)
  lookups : (state.resolving.map (·.seq)).Nodup
  lookupsOld : ∀ lookup ∈ state.resolving, lookup.seq < state.nextSeq
  lookupsNew : ∀ lookup ∈ state.resolving, ¬ state.Knows lookup.seq
  known : ∀ seq, state.Knows seq → seq < state.nextSeq
  entered : ∀ key other seq command again, .entered seq command ∈ state.histories key →
    .entered seq again ∈ state.histories other → key = other
  directly : ∀ seq ∈ state.startedDirectly, ∀ key command,
    .entered seq command ∉ state.histories key
  startedDirectly : state.startedDirectly.Nodup
  direct : state.direct.Nodup
  directStarted : ∀ seq ∈ state.direct, seq ∈ state.startedDirectly
  settled : (settledOf state.replies).Nodup
  unsettled : ∀ key seq, Holds (state.queues key) seq → seq ∉ settledOf state.replies
  directUnsettled : ∀ seq ∈ state.direct, seq ∉ settledOf state.replies
  shared : ∀ seq pending, .shared seq pending ∈ state.replies →
    seq ∉ settledOf state.replies ∧ seq ∉ state.startedDirectly ∧
      ∀ key command, .entered seq command ∉ state.histories key

omit [DecidableEq K] in
theorem accounted_start : Accounted ({} : Lifecycle K) where
  explained _ := explained_nil
  serialized _ := serialized_nil
  lookups := Pairwise.nil
  lookupsOld _ h := by cases h
  lookupsNew _ h := by cases h
  known seq hknown := by
    rcases hknown with ⟨_, _, h⟩ | h | h | ⟨_, h⟩
    · cases h
    · cases h
    · cases h
    · cases h
  entered _ _ _ _ _ h := by cases h
  directly _ h := by cases h
  startedDirectly := Pairwise.nil
  direct := Pairwise.nil
  directStarted _ h := by cases h
  settled := Pairwise.nil
  unsettled _ _ _ h := by cases h
  directUnsettled _ h := by cases h
  shared _ _ h := by cases h

@[simp]
theorem put_queues_self (change : Change) : (state.put key change).queues key = change.queue :=
  Function.update_self ..

theorem put_queues_of_ne {other : K} (hne : other ≠ key) (change : Change) :
    (state.put key change).queues other = state.queues other := Function.update_of_ne hne ..

@[simp]
theorem put_histories_self (change : Change) :
    (state.put key change).histories key = state.histories key ++ change.events :=
  Function.update_self ..

theorem put_histories_of_ne {other : K} (hne : other ≠ key) (change : Change) :
    (state.put key change).histories other = state.histories other := Function.update_of_ne hne ..

theorem entered_put {other : K} (hentered : .entered seq command ∈
      (state.put key change).histories other) :
    .entered seq command ∈ state.histories other ∨
      (other = key ∧ .entered seq command ∈ change.events) := by
  rcases eq_or_ne other key with rfl | hne
  · rw [put_histories_self] at hentered
    exact (mem_append.mp hentered).imp_right fun h => ⟨rfl, h⟩
  · rw [put_histories_of_ne hne] at hentered
    exact Or.inl hentered

theorem hasReply_append {first second : List Reply} (hreply : HasReply (first ++ second) seq) :
    HasReply first seq ∨ HasReply second seq := by
  rcases hreply with hsettled | ⟨pending, hshared⟩
  · rw [settledOf_append] at hsettled
    exact (mem_append.mp hsettled).imp Or.inl Or.inl
  · exact (mem_append.mp hshared).imp (fun h => Or.inr ⟨pending, h⟩) fun h => Or.inr ⟨pending, h⟩

theorem knows_put {arriving : Option ℕ} (hsettles : Settles arriving (state.queues key) change)
    (hknows : (state.put key change).Knows seq) :
    state.Knows seq ∨ some seq = arriving ∨ Holds (state.queues key) seq := by
  rcases hknows with ⟨other, command, hentered⟩ | hdirect | hreply
  · rcases entered_put hentered with hearlier | ⟨_, hnewest⟩
    · exact Or.inl (Or.inl ⟨other, command, hearlier⟩)
    · exact Or.inr (Or.inl (hsettles.entered seq command hnewest).1)
  · exact Or.inl (Or.inr (Or.inl hdirect))
  · rcases hasReply_append hreply with hearlier | hsettled | ⟨pending, hshared⟩
    · exact Or.inl (Or.inr (Or.inr hearlier))
    · exact Or.inr (hsettles.own seq hsettled)
    · exact Or.inr (Or.inl (hsettles.shared seq pending hshared).1)

omit [DecidableEq K] in
theorem knows_of_holds (haccounted : Accounted state) (hholds : Holds (state.queues key) seq) :
    state.Knows seq := by
  obtain ⟨command, hentered⟩ :=
    (haccounted.explained key).entered_of_holds (haccounted.serialized key) hholds
  exact Or.inl ⟨key, command, hentered⟩

section Put

variable {arriving : Option ℕ} (haccounted : Accounted state)
  (hsettles : Settles arriving (state.queues key) change)
  (hnew : ∀ seq, some seq = arriving → ¬ state.Knows seq)
include haccounted hnew

omit [DecidableEq K] in
theorem unsettled_of_held (hheld : some seq = arriving ∨ Holds (state.queues key) seq) :
    seq ∉ settledOf state.replies := by
  intro hsettled
  rcases hheld with harriving | hholds
  · exact hnew seq harriving (Or.inr (Or.inr (Or.inl hsettled)))
  · exact haccounted.unsettled key seq hholds hsettled

omit [DecidableEq K] in
theorem undirected_of_held (hheld : some seq = arriving ∨ Holds (state.queues key) seq) :
    seq ∉ state.startedDirectly := by
  intro hstarted
  rcases hheld with harriving | hholds
  · exact hnew seq harriving (Or.inr (Or.inl hstarted))
  · obtain ⟨command, hentered⟩ :=
      (haccounted.explained key).entered_of_holds (haccounted.serialized key) hholds
    exact haccounted.directly seq hstarted key command hentered

include hsettles

theorem entered_once_put {first second : K} {command again : LifecycleCommand}
    (hfirst : .entered seq command ∈ (state.put key change).histories first)
    (hsecond : .entered seq again ∈ (state.put key change).histories second) :
    first = second := by
  have hone : ∀ other command, .entered seq command ∈ state.histories other →
      ∀ again, .entered seq again ∉ change.events := fun other command hentered again hnewest =>
    hnew seq (hsettles.entered seq again hnewest).1 (Or.inl ⟨other, command, hentered⟩)
  rcases entered_put hfirst with hearlier | ⟨hkey, hnewest⟩
  · rcases entered_put hsecond with hother | ⟨_, hother⟩
    · exact haccounted.entered first second seq command again hearlier hother
    · exact absurd hother (hone first command hearlier again)
  · rcases entered_put hsecond with hother | ⟨hsame, _⟩
    · exact absurd hnewest (hone second again hother command)
    · exact hkey.trans hsame.symm

theorem unsettled_put {other : K} (hholds : Holds ((state.put key change).queues other) seq) :
    seq ∉ settledOf (state.replies ++ change.replies) := by
  intro hsettled
  rw [settledOf_append] at hsettled
  rcases eq_or_ne other key with rfl | hne
  · rw [put_queues_self] at hholds
    rcases mem_append.mp hsettled with hearlier | hnewest
    · exact unsettled_of_held haccounted hnew (hsettles.held seq hholds) hearlier
    · exact hsettles.gone seq hnewest hholds
  · rw [put_queues_of_ne hne] at hholds
    rcases mem_append.mp hsettled with hearlier | hnewest
    · exact haccounted.unsettled other seq hholds hearlier
    · rcases hsettles.own seq hnewest with harriving | hthere
      · exact hnew seq harriving (knows_of_holds haccounted hholds)
      · -- no command is in two queues
        obtain ⟨command, hentered⟩ :=
          (haccounted.explained other).entered_of_holds (haccounted.serialized other) hholds
        obtain ⟨again, hagain⟩ :=
          (haccounted.explained key).entered_of_holds (haccounted.serialized key) hthere
        exact hne (haccounted.entered other key seq command again hentered hagain)

theorem shared_put {pending : ℕ} (hshared : .shared seq pending ∈ state.replies ++ change.replies) :
    seq ∉ settledOf (state.replies ++ change.replies) ∧ seq ∉ state.startedDirectly ∧
      ∀ other command, .entered seq command ∉ (state.put key change).histories other := by
  rw [settledOf_append, mem_append]
  rcases mem_append.mp hshared with hearlier | hnewest
  · obtain ⟨hunsettled, hundirected, hunentered⟩ := haccounted.shared seq pending hearlier
    have hknown : state.Knows seq := Or.inr (Or.inr (Or.inr ⟨pending, hearlier⟩))
    refine ⟨fun h => ?_, hundirected, fun other command hentered => ?_⟩
    · rcases h with h | h
      · exact hunsettled h
      · rcases hsettles.own seq h with harriving | hholds
        · exact hnew seq harriving hknown
        · obtain ⟨command, hentered⟩ :=
            (haccounted.explained key).entered_of_holds (haccounted.serialized key) hholds
          exact hunentered key command hentered
    · rcases entered_put hentered with hentered | ⟨_, hentered⟩
      · exact hunentered other command hentered
      · exact hnew seq (hsettles.entered seq command hentered).1 hknown
  · obtain ⟨harriving, hevents, hnone, _⟩ := hsettles.shared seq pending hnewest
    have hunknown := hnew seq harriving
    refine ⟨fun h => ?_, fun h => hunknown (Or.inr (Or.inl h)), fun other command hentered => ?_⟩
    · rcases h with h | h
      · exact hunknown (Or.inr (Or.inr (Or.inl h)))
      · rw [hnone] at h
        cases h
    · rcases entered_put hentered with hentered | ⟨_, hentered⟩
      · exact hunknown (Or.inl ⟨other, command, hentered⟩)
      · rw [hevents] at hentered
        cases hentered

/-- A change of one queue keeps the accounts, where what comes to it is new. -/
theorem accounted_put (hsound : Sound (state.histories key) change)
    (hold : ∀ seq, some seq = arriving → seq < state.nextSeq)
    (hlookups : ∀ lookup ∈ state.resolving, some lookup.seq ≠ arriving) :
    Accounted (state.put key change) where
  explained other := by
    rcases eq_or_ne other key with rfl | hne
    · rw [put_queues_self, put_histories_self]
      exact hsound.1
    · rw [put_queues_of_ne hne, put_histories_of_ne hne]
      exact haccounted.explained other
  serialized other := by
    rcases eq_or_ne other key with rfl | hne
    · rw [put_histories_self]
      exact hsound.2
    · rw [put_histories_of_ne hne]
      exact haccounted.serialized other
  lookups := haccounted.lookups
  lookupsOld := haccounted.lookupsOld
  lookupsNew lookup hlookup hknows := by
    rcases knows_put hsettles hknows with hearlier | harriving | hholds
    · exact haccounted.lookupsNew lookup hlookup hearlier
    · exact hlookups lookup hlookup harriving
    · exact haccounted.lookupsNew lookup hlookup (knows_of_holds haccounted hholds)
  known seq hknows := by
    rcases knows_put hsettles hknows with hearlier | harriving | hholds
    · exact haccounted.known seq hearlier
    · exact hold seq harriving
    · exact haccounted.known seq (knows_of_holds haccounted hholds)
  entered _ _ _ _ _ := entered_once_put haccounted hsettles hnew
  directly seq hstarted other command hentered := by
    rcases entered_put hentered with hearlier | ⟨_, hnewest⟩
    · exact haccounted.directly seq hstarted other command hearlier
    · exact @undirected_of_held seq K state key arriving haccounted hnew
        (Or.inl (hsettles.entered seq command hnewest).1) hstarted
  startedDirectly := haccounted.startedDirectly
  direct := haccounted.direct
  directStarted := haccounted.directStarted
  settled := by
    change (settledOf (state.replies ++ change.replies)).Nodup
    rw [settledOf_append]
    refine nodup_append.mpr ⟨haccounted.settled, hsettles.nodup, ?_⟩
    rintro seq hearlier _ hnewest rfl
    exact unsettled_of_held haccounted hnew (hsettles.own seq hnewest) hearlier
  unsettled _ _ := unsettled_put haccounted hsettles hnew
  directUnsettled seq hrunning hsettled := by
    change seq ∈ settledOf (state.replies ++ change.replies) at hsettled
    rw [settledOf_append] at hsettled
    rcases mem_append.mp hsettled with hearlier | hnewest
    · exact haccounted.directUnsettled seq hrunning hearlier
    · exact undirected_of_held haccounted hnew (hsettles.own seq hnewest)
        (haccounted.directStarted seq hrunning)
  shared _ _ := shared_put haccounted hsettles hnew

end Put

omit [DecidableEq K] in
theorem accounted_next (haccounted : Accounted state) {nextSeq : ℕ}
    (hle : state.nextSeq ≤ nextSeq) : Accounted { state with nextSeq } :=
  { haccounted with
    lookupsOld := fun lookup hlookup =>
      Nat.lt_of_lt_of_le (haccounted.lookupsOld lookup hlookup) hle
    known := fun seq hknows => Nat.lt_of_lt_of_le (haccounted.known seq hknows) hle }

omit [DecidableEq K] in
theorem unknown_next (haccounted : Accounted state) : ¬ state.Knows state.nextSeq := fun hknows =>
  Nat.lt_irrefl _ (haccounted.known _ hknows)

theorem accounted_enqueue (haccounted : Accounted state) (hnew : ¬ state.Knows seq)
    (hold : seq < state.nextSeq) (hlookups : ∀ lookup ∈ state.resolving, lookup.seq ≠ seq) :
    Accounted (state.enqueue key seq command) := by
  have hfresh : ∀ other, .entered seq other ∉ state.histories key := fun other hentered =>
    hnew (Or.inl ⟨key, other, hentered⟩)
  refine @accounted_put _ K _ state key (some seq) haccounted ?_ ?_ ?_ ?_ ?_
  · exact settles_enqueue (haccounted.explained key) (haccounted.serialized key) hfresh
  · intro other harriving
    cases harriving
    exact hnew
  · exact enqueue_sound (haccounted.explained key) (haccounted.serialized key) hfresh
  · intro other harriving
    cases harriving
    exact hold
  · exact fun lookup hlookup h => hlookups lookup hlookup (Option.some.inj h)

omit [DecidableEq K] in
theorem accounted_forget (haccounted : Accounted state) (seq : ℕ) :
    Accounted { state with resolving := state.resolving.filter (·.seq ≠ seq) } :=
  { haccounted with
    lookups := haccounted.lookups.sublist (filter_sublist.map _)
    lookupsOld := fun lookup hlookup => haccounted.lookupsOld lookup (mem_of_mem_filter hlookup)
    lookupsNew := fun lookup hlookup => haccounted.lookupsNew lookup (mem_of_mem_filter hlookup) }

omit [DecidableEq K] in
/-- A command answered on the spot is settled once. -/
theorem accounted_settled (haccounted : Accounted state) (hold : seq < state.nextSeq)
    (hlookups : ∀ lookup ∈ state.resolving, lookup.seq ≠ seq)
    (hunsettled : seq ∉ settledOf state.replies) (hnever : ∀ key, ¬ Holds (state.queues key) seq)
    (hended : seq ∉ state.direct) (hunshared : ∀ pending, .shared seq pending ∉ state.replies) :
    Accounted { state with replies := state.replies ++ [.settled seq] } := by
  have hreply : ∀ other, HasReply (state.replies ++ [.settled seq]) other →
      HasReply state.replies other ∨ other = seq := by
    intro other hhas
    rcases hasReply_append hhas with hearlier | hsettled | ⟨pending, hshared⟩
    · exact Or.inl hearlier
    · exact Or.inr (mem_singleton.mp hsettled)
    · cases mem_singleton.mp hshared
  have hknows : ∀ other, ({ state with replies := state.replies ++ [.settled seq] } :
      Lifecycle K).Knows other → state.Knows other ∨ other = seq := by
    rintro other (hentered | hdirect | hhas)
    · exact Or.inl (Or.inl hentered)
    · exact Or.inl (Or.inr (Or.inl hdirect))
    · exact (hreply other hhas).imp_left fun h => Or.inr (Or.inr h)
  have hsettled : ∀ other, other ∈ settledOf (state.replies ++ [.settled seq]) →
      other ∈ settledOf state.replies ∨ other = seq := fun other hmem => by
    rw [settledOf_append] at hmem
    exact (mem_append.mp hmem).imp_right mem_singleton.mp
  refine
    { haccounted with
      lookupsNew := fun lookup hlookup h => ?_
      known := fun other h => ?_
      settled := ?_
      unsettled := fun key other hholds h => ?_
      directUnsettled := fun other hdirect h => ?_
      shared := fun other pending h => ?_ }
  · rcases hknows lookup.seq h with h | h
    · exact haccounted.lookupsNew lookup hlookup h
    · exact hlookups lookup hlookup h
  · rcases hknows other h with h | rfl
    · exact haccounted.known other h
    · exact hold
  · rw [settledOf_append]
    refine nodup_append.mpr ⟨haccounted.settled, pairwise_singleton _ seq, ?_⟩
    rintro other hother _ hsame rfl
    rw [mem_singleton.mp hsame] at hother
    exact hunsettled hother
  · rcases hsettled other h with h | rfl
    · exact haccounted.unsettled key other hholds h
    · exact hnever key hholds
  · rcases hsettled other h with h | rfl
    · exact haccounted.directUnsettled other hdirect h
    · exact hended hdirect
  · rcases mem_append.mp h with hearlier | hnewest
    · obtain ⟨hother, hrest⟩ := haccounted.shared other pending hearlier
      refine ⟨fun hmem => ?_, hrest⟩
      rcases hsettled other hmem with hmem | rfl
      · exact hother hmem
      · exact hunshared pending hearlier
    · cases mem_singleton.mp hnewest

omit [DecidableEq K] in
/-- A command runs with no workspace to order it. -/
theorem accounted_direct (haccounted : Accounted state) (hnew : ¬ state.Knows seq)
    (hold : seq < state.nextSeq) (hlookups : ∀ lookup ∈ state.resolving, lookup.seq ≠ seq) :
    Accounted { state with
      direct := state.direct ++ [seq]
      startedDirectly := state.startedDirectly ++ [seq] } := by
  have hunstarted : seq ∉ state.startedDirectly := fun h => hnew (Or.inr (Or.inl h))
  have hknows : ∀ other, ({ state with
      direct := state.direct ++ [seq]
      startedDirectly := state.startedDirectly ++ [seq] } : Lifecycle K).Knows other →
      state.Knows other ∨ other = seq := by
    rintro other (hentered | hdirect | hhas)
    · exact Or.inl (Or.inl hentered)
    · exact (mem_append.mp hdirect).imp (fun h => Or.inr (Or.inl h)) mem_singleton.mp
    · exact Or.inl (Or.inr (Or.inr hhas))
  refine
    { haccounted with
      lookupsNew := fun lookup hlookup h => ?_
      known := fun other h => ?_
      directly := fun other h key command hentered => ?_
      startedDirectly := ?_
      direct := ?_
      directStarted := fun other h => ?_
      directUnsettled := fun other h hsettled => ?_
      shared := fun other pending h => ?_ }
  · rcases hknows lookup.seq h with h | h
    · exact haccounted.lookupsNew lookup hlookup h
    · exact hlookups lookup hlookup h
  · rcases hknows other h with h | rfl
    · exact haccounted.known other h
    · exact hold
  · rcases mem_append.mp h with h | h
    · exact haccounted.directly other h key command hentered
    · rw [mem_singleton.mp h] at hentered
      exact hnew (Or.inl ⟨key, command, hentered⟩)
  · refine nodup_append.mpr ⟨haccounted.startedDirectly, pairwise_singleton _ seq, ?_⟩
    rintro other hother _ hsame rfl
    rw [mem_singleton.mp hsame] at hother
    exact hunstarted hother
  · refine nodup_append.mpr ⟨haccounted.direct, pairwise_singleton _ seq, ?_⟩
    rintro other hother _ hsame rfl
    rw [mem_singleton.mp hsame] at hother
    exact hunstarted (haccounted.directStarted seq hother)
  · exact (mem_append.mp h).elim
      (fun h => mem_append_left _ (haccounted.directStarted other h)) (mem_append_right _)
  · rcases mem_append.mp h with h | h
    · exact haccounted.directUnsettled other h hsettled
    · rw [mem_singleton.mp h] at hsettled
      exact hnew (Or.inr (Or.inr (Or.inl hsettled)))
  · obtain ⟨hother, hdirected, hrest⟩ := haccounted.shared other pending h
    refine ⟨hother, fun hmem => ?_, hrest⟩
    rcases mem_append.mp hmem with hmem | hmem
    · exact hdirected hmem
    · rw [mem_singleton.mp hmem] at h
      exact hnew (Or.inr (Or.inr (Or.inr ⟨pending, h⟩)))

theorem accounted_resolve (haccounted : Accounted state) {lookup : Lookup}
    (hnew : ¬ state.Knows lookup.seq) (hold : lookup.seq < state.nextSeq)
    (hlookups : ∀ other ∈ state.resolving, other.seq ≠ lookup.seq) (result : LookupResult K) :
    Accounted (state.resolve lookup result) := by
  cases result with
  | failed =>
    refine accounted_settled haccounted hold hlookups (fun h => hnew (Or.inr (Or.inr (Or.inl h))))
      (fun key hholds => hnew (knows_of_holds haccounted hholds))
      (fun h => hnew (Or.inr (Or.inl (haccounted.directStarted _ h))))
      fun pending h => hnew (Or.inr (Or.inr (Or.inr ⟨pending, h⟩)))
  | none => exact accounted_direct haccounted hnew hold hlookups
  | key key => exact accounted_enqueue haccounted hnew hold hlookups

/-- Every action keeps account of every command. -/
theorem accounted_act (haccounted : Accounted state) {action : Action K} {next : Lifecycle K}
    (hact : act state action = some next) : Accounted next := by
  have hqueue (hstep : (queueStep state.resolving action).bind (fun keyed =>
      (keyed.2 (state.queues keyed.1)).map (state.put keyed.1)) = some next) : Accounted next := by
    obtain ⟨⟨key, step⟩, hfound, hmapped⟩ := Option.bind_eq_some_iff.mp hstep
    obtain ⟨change, hchange, rfl⟩ := Option.map_eq_some_iff.mp hmapped
    obtain ⟨hsound, hsettles⟩ := queueStep_sound hfound (haccounted.explained key)
      (haccounted.serialized key) hchange
    exact accounted_put haccounted hsettles (fun _ h => (by cases h)) hsound
      (fun _ h => (by cases h))
      fun _ _ h => (by cases h)
  cases action with
  | submit key command =>
    obtain rfl := Option.some.inj hact
    refine accounted_enqueue (accounted_next haccounted (Nat.le_succ _)) ?_
      (Nat.lt_succ_self _) fun lookup hlookup => ?_
    · exact unknown_next haccounted
    · exact Nat.ne_of_lt (haccounted.lookupsOld lookup hlookup)
  | submitResolving command now =>
    obtain rfl := Option.some.inj hact
    have hnext := accounted_next haccounted (Nat.le_succ state.nextSeq)
    refine
      { hnext with
        lookups := ?_
        lookupsOld := fun lookup hlookup => ?_
        lookupsNew := fun lookup hlookup => ?_ }
    · rw [map_append]
      refine nodup_append.mpr ⟨haccounted.lookups, pairwise_singleton _ _, ?_⟩
      rintro seq hseq _ hlast rfl
      obtain ⟨lookup, hlookup, rfl⟩ := mem_map.mp hseq
      exact Nat.ne_of_lt (haccounted.lookupsOld lookup hlookup) (mem_singleton.mp hlast)
    · rcases mem_append.mp hlookup with hlookup | hlookup
      · exact Nat.lt_succ_of_lt (haccounted.lookupsOld lookup hlookup)
      · rw [mem_singleton.mp hlookup]
        exact Nat.lt_succ_self _
    · rcases mem_append.mp hlookup with hlookup | hlookup
      · exact haccounted.lookupsNew lookup hlookup
      · rw [mem_singleton.mp hlookup]
        exact unknown_next haccounted
  | resolved seq result =>
    obtain ⟨lookup, hfound, rfl⟩ := Option.map_eq_some_iff.mp hact
    have hmem := mem_of_find?_eq_some hfound
    obtain rfl : lookup.seq = seq := by simpa using find?_some hfound
    refine accounted_resolve (accounted_forget haccounted lookup.seq)
      (haccounted.lookupsNew lookup hmem) (haccounted.lookupsOld lookup hmem)
      (fun other hother => ?_) result
    simpa using (mem_filter.mp hother).2
  | directEnded seq =>
    simp only [act] at hact
    split_ifs at hact with hdirect
    obtain rfl := Option.some.inj hact
    have hstarted := haccounted.directStarted seq hdirect
    have hknows : state.Knows seq := Or.inr (Or.inl hstarted)
    have hshorter : Accounted { state with direct := state.direct.erase seq } :=
      { haccounted with
        direct := haccounted.direct.erase seq
        directStarted := fun other h => haccounted.directStarted other (mem_of_mem_erase h)
        directUnsettled := fun other h => haccounted.directUnsettled other (mem_of_mem_erase h) }
    refine accounted_settled hshorter (haccounted.known seq hknows) (fun lookup hlookup h => ?_)
      (haccounted.directUnsettled seq hdirect) (fun key hholds => ?_)
      haccounted.direct.not_mem_erase fun pending h =>
        (haccounted.shared seq pending h).2.1 hstarted
    · exact haccounted.lookupsNew lookup hlookup (h ▸ hknows)
    · obtain ⟨command, hentered⟩ :=
        (haccounted.explained key).entered_of_holds (haccounted.serialized key) hholds
      exact haccounted.directly seq hstarted key command hentered
  | bindCreate key =>
    obtain ⟨change, hbound, rfl⟩ := Option.map_eq_some_iff.mp hact
    exact accounted_put (accounted_next haccounted (Nat.le_succ _)) (settles_bindCreate hbound)
      (fun _ h => (by cases h))
      (bindCreate_sound (haccounted.explained key) (haccounted.serialized key) hbound)
      (fun _ h => (by cases h)) fun _ _ h => (by cases h)
  | _ => exact hqueue hact

theorem accounted_run (actions : List (Action K)) (haccounted : Accounted state) :
    Accounted (run actions state) := by
  induction actions generalizing state with
  | nil => exact haccounted
  | cons action rest ih =>
    rw [run, foldl_cons, ← run]
    cases hact : act state action with
    | none => exact ih haccounted
    | some next => exact ih (accounted_act haccounted hact)

def runningCommands (queue : WorkspaceQueue) : List Entry :=
  queue.entries.filter fun entry => entry.running && entry.command.isSome

theorem runningCommands_length (hexplained : Explained queue history) :
    (runningCommands queue).length ≤ 1 := by
  have hnone : ∀ entries : List Entry, Ordered entries →
      entries.filter (fun entry => entry.running && entry.command.isSome) = [] := by
    rintro _ ⟨creates, waiting, rfl, hcreates, hwaiting, _⟩
    refine filter_eq_nil_iff.mpr fun entry hentry => ?_
    rcases mem_append.mp hentry with hentry | hentry
    · simp [(hcreates entry hentry).2]
    · simp [(hwaiting entry hentry).1]
  have hshape := hexplained.shape
  rw [runningCommands]
  cases hphase : queue.phase with
  | running seq command =>
    simp only [Shape, hphase] at hshape
    obtain ⟨rest, hentries, hrest⟩ := hshape
    rw [hentries, filter_cons_of_pos rfl, hnone rest hrest]
    exact Nat.le_refl _
  | _ =>
    simp only [Shape, hphase] at hshape
    rw [hnone _ hshape]
    exact Nat.zero_le _

def StartsOnce (state : Lifecycle K) : Prop :=
  (∀ key other seq command again, .started seq command ∈ state.histories key →
      .started seq again ∈ state.histories other → key = other) ∧
    state.startedDirectly.Nodup ∧
    ∀ seq ∈ state.startedDirectly, ∀ key command, .started seq command ∉ state.histories key

def SettlesOnce (state : Lifecycle K) : Prop :=
  (settledOf state.replies).Nodup ∧
    ∀ seq pending, .shared seq pending ∈ state.replies → seq ∉ settledOf state.replies ∧
      seq ∉ state.startedDirectly ∧ ∀ key command, .started seq command ∉ state.histories key

/-- Over any interleaving the commands of each workspace are serialized. -/
theorem queue_serializes (actions : List (Action K)) :
    (∀ key, Serialized ((run actions {}).histories key) ∧
      (runningCommands ((run actions {}).queues key)).length ≤ 1) ∧
    StartsOnce (run actions {}) ∧ SettlesOnce (run actions {}) := by
  have haccounted := accounted_run actions (accounted_start (K := K))
  have hentered : ∀ key seq command, .started seq command ∈ (run actions {}).histories key →
      .entered seq command ∈ (run actions {}).histories key := fun key seq command hstarted =>
    first_mem ((haccounted.serialized key).entered seq command hstarted)
  refine ⟨fun key => ⟨haccounted.serialized key, runningCommands_length (haccounted.explained key)⟩,
    ⟨fun key other seq command again hfirst hsecond => ?_, haccounted.startedDirectly,
      fun seq hdirect key command hstarted => ?_⟩,
    haccounted.settled, fun seq pending hshared => ?_⟩
  · exact haccounted.entered key other seq command again (hentered key seq command hfirst)
      (hentered other seq again hsecond)
  · exact haccounted.directly seq hdirect key command (hentered key seq command hstarted)
  · obtain ⟨hunsettled, hundirected, hunentered⟩ := haccounted.shared seq pending hshared
    exact ⟨hunsettled, hundirected, fun key command hstarted =>
      hunentered key command (hentered key seq command hstarted)⟩

end Runs

end Wakii.WorkspaceLifecycle
