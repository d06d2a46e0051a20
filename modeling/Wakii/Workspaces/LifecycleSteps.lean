import Wakii.Workspaces.LifecycleLaws

/-!
# What each step of a queue keeps

A queue explains its history: from its entries, its phase and its pause one can
tell which events may come next.  Every step keeps that.
-/

namespace Wakii.WorkspaceLifecycle

open List Precedence

variable {queue later : WorkspaceQueue} {history : List Event} {change : Change} {seq : ℕ}
  {command : LifecycleCommand}

structure Explained (queue : WorkspaceQueue) (history : List Event) : Prop where
  shape : Shape queue
  /-- What waits has entered and not started. -/
  waiting : ∀ entry ∈ queue.entries, entry.running = false → ∃ command,
    entry.command = some command ∧ .entered entry.seq command ∈ history ∧
      ∀ other, .started entry.seq other ∉ history
  inOrder : ∀ seq command next other, seq < next →
    [.entered seq command, .started next other] <+ history →
    ∀ entry ∈ queue.entries, entry.seq = seq → entry.running = true
  cancelled : ∀ seq command next delete, delete.isDelete = true →
    [.entered seq command, .entered next delete] <+ history →
    ∀ entry ∈ queue.entries, entry.seq = seq → entry.running = true
  /-- What started ended, or is the running command. -/
  started : ∀ seq command, .started seq command ∈ history →
    (∃ attempt, [.started seq command, .ended seq command attempt] <+ history) ∨
      queue.phase = .running seq command
  running : ∀ seq command, queue.phase = .running seq command → .started seq command ∈ history
  /-- A delete is over, or has its entry still. -/
  deletes : ∀ seq delete, delete.isDelete = true → .entered seq delete ∈ history →
    Over seq delete history [] ∨
      ∃ entry ∈ queue.entries, entry.seq = seq ∧ entry.command = some delete
  /-- Nothing waits besides a delete. -/
  sole : ∀ entry ∈ queue.entries, entry.isDelete = true →
    ∀ other ∈ queue.entries, other.running = false → other = entry
  pauses : AllObserved history → ∀ seq command attempt, attempt.isUnverifiable →
    .ended seq command attempt ∈ history →
    Lifted seq command attempt history [] ∨ queue.paused.isSome = true
  observers : AllObserved history → ∀ pause, queue.paused = some pause → pause.observes = true
  listing : queue.phase = .listing → ∀ seq command attempt, attempt.isUnverifiable →
    .ended seq command attempt ∈ history → Lifted seq command attempt history []

/-- A step after which the queue explains a lawful history again. -/
def Sound (history : List Event) (change : Change) : Prop :=
  Explained change.queue (history ++ change.events) ∧ Serialized (history ++ change.events)

section Phases

theorem explained_nil : Explained {} [] where
  shape := ⟨[], [], rfl, fun _ h => (by cases h), fun _ h => (by cases h), Pairwise.nil⟩
  waiting _ h := by cases h
  inOrder _ _ _ _ _ _ _ h := by cases h
  cancelled _ _ _ _ _ _ _ h := by cases h
  started _ _ h := by cases h
  running _ _ h := by cases h
  deletes _ _ _ h := by cases h
  sole _ h := by cases h
  pauses _ _ _ _ _ h := by cases h
  observers _ _ h := by cases h
  listing h := by cases h

theorem Explained.congr (hexplained : Explained queue history)
    (hentries : later.entries = queue.entries) (hphase : later.phase = queue.phase)
    (hpaused : later.paused = queue.paused) : Explained later history := by
  obtain ⟨entries, paused, settling, phase, wake⟩ := later
  obtain rfl : entries = queue.entries := hentries
  obtain rfl : phase = queue.phase := hphase
  obtain rfl : paused = queue.paused := hpaused
  exact ⟨hexplained.shape, hexplained.waiting, hexplained.inOrder, hexplained.cancelled,
    hexplained.started, hexplained.running, hexplained.deletes, hexplained.sole,
    hexplained.pauses, hexplained.observers, hexplained.listing⟩

def DrainPhase.isRunning : DrainPhase → Bool
  | .running _ _ => true
  | _ => false

theorem shape_of_entries (hphase : queue.phase.isRunning = false) :
    Shape queue ↔ Ordered queue.entries := by
  rw [Shape]
  cases hcase : queue.phase with
  | running seq command =>
    rw [hcase] at hphase
    cases hphase
  | _ => rfl

theorem shape_update {update : List Entry → List Entry} (hshape : Shape queue)
    (hhead : ∀ seq command rest,
      update ({ seq, running := true, command := some command } :: rest) =
      { seq, running := true, command := some command } :: update rest)
    (hordered : ∀ entries, entries ⊆ queue.entries → Ordered entries → Ordered (update entries)) :
    Shape { queue with entries := update queue.entries } := by
  cases hphase : queue.phase with
  | running running other =>
    simp only [Shape, hphase] at hshape ⊢
    obtain ⟨rest, hentries, hrest⟩ := hshape
    refine ⟨update rest, by rw [hentries, hhead], hordered rest ?_ hrest⟩
    rw [hentries]
    exact subset_cons_self _ _
  | _ =>
    simp only [Shape, hphase] at hshape ⊢
    exact hordered _ (Subset.refl _) hshape

/-- A history with more events, none of which the arrival or the start of a command. -/
structure Extends (history longer : List Event) : Prop where
  grown : history <+ longer
  entered : ∀ {seq command}, .entered seq command ∈ longer → .entered seq command ∈ history
  started : ∀ {seq command}, .started seq command ∈ longer → .started seq command ∈ history
  beforeEntered : ∀ {first seq command}, [first, .entered seq command] <+ longer →
    [first, .entered seq command] <+ history
  beforeStarted : ∀ {first seq command}, [first, .started seq command] <+ longer →
    [first, .started seq command] <+ history

section Extends

variable {longer : List Event} {event : Event} {delete : LifecycleCommand}
  {attempt : LifecycleAttempt}

theorem Extends.refl (history : List Event) : Extends history history :=
  ⟨Sublist.refl _, id, id, id, id⟩

theorem Extends.concat (hentered : ∀ seq command, event ≠ .entered seq command)
    (hstarted : ∀ seq command, event ≠ .started seq command) :
    Extends history (history ++ [event]) where
  grown := sublist_append_left _ _
  entered hmem := by simpa [(hentered _ _).symm] using hmem
  started hmem := by simpa [(hstarted _ _).symm] using hmem
  beforeEntered horder := (two_concat.mp horder).resolve_right fun h => hentered _ _ h.2.symm
  beforeStarted horder := (two_concat.mp horder).resolve_right fun h => hstarted _ _ h.2.symm

variable (hextends : Extends history longer)
include hextends

theorem Over.extend (hover : Over seq delete history []) : Over seq delete longer [] := by
  rcases hover with ⟨attempt, horder⟩ | ⟨next, force, hdelete, hforced, horder, hwaited⟩
  · exact Or.inl ⟨attempt, horder.trans hextends.grown⟩
  · exact Or.inr ⟨next, force, hdelete, hforced, horder.trans hextends.grown,
      fun hstarted => hwaited (hextends.beforeEntered hstarted)⟩

theorem Lifted.extend (hlifted : Lifted seq command attempt history []) :
    Lifted seq command attempt longer [] := by
  rcases hlifted with horder | ⟨other, delete, done, hdelete, hdone, horder⟩
  · exact Or.inl (horder.trans hextends.grown)
  · exact Or.inr ⟨other, delete, done, hdelete, hdone, horder.trans hextends.grown⟩

/-- What a step has to keep that lets no command arrive or start. -/
theorem Explained.extend (hexplained : Explained queue history) (hshape : Shape later)
    (hentries : ∀ entry ∈ later.entries, entry ∈ queue.entries ∨
      entry.running = true ∧ entry.isDelete = false)
    (hrunning : ∀ seq command, later.phase = .running seq command →
      queue.phase = .running seq command)
    (hended : ∀ seq command, queue.phase = .running seq command →
      (∃ attempt, [.started seq command, .ended seq command attempt] <+ longer) ∨
        later.phase = .running seq command)
    (hdeletes : ∀ entry ∈ queue.entries, ∀ delete, entry.command = some delete →
      delete.isDelete = true → Over entry.seq delete longer [] ∨ entry ∈ later.entries)
    (hpauses : AllObserved history → ∀ seq command attempt, attempt.isUnverifiable →
      .ended seq command attempt ∈ longer →
      Lifted seq command attempt longer [] ∨ later.paused.isSome = true)
    (hobservers : AllObserved longer → ∀ pause, later.paused = some pause → pause.observes = true)
    (hlisting : later.phase = .listing → ∀ seq command attempt, attempt.isUnverifiable →
      .ended seq command attempt ∈ longer → Lifted seq command attempt longer []) :
    Explained later longer where
  shape := hshape
  waiting entry hentry hwaits := by
    rcases hentries entry hentry with hentry | ⟨hruns, _⟩
    · obtain ⟨command, hof, hentered, hnever⟩ := hexplained.waiting entry hentry hwaits
      exact ⟨command, hof, hextends.grown.subset hentered, fun other hstarted =>
        hnever other (hextends.started hstarted)⟩
    · rw [hruns] at hwaits
      cases hwaits
  inOrder seq command next other hlt horder entry hentry hof :=
    (hentries entry hentry).elim (fun hentry => hexplained.inOrder seq command next other hlt
      (hextends.beforeStarted horder) entry hentry hof) (·.1)
  cancelled seq command next delete hdelete horder entry hentry hof :=
    (hentries entry hentry).elim (fun hentry => hexplained.cancelled seq command next delete
      hdelete (hextends.beforeEntered horder) entry hentry hof) (·.1)
  started seq command hstarted := (hexplained.started seq command (hextends.started hstarted)).elim
      (fun ⟨attempt, horder⟩ => Or.inl ⟨attempt, horder.trans hextends.grown⟩) (hended seq command)
  running seq command hphase :=
    hextends.grown.subset (hexplained.running seq command (hrunning seq command hphase))
  deletes seq delete hdelete hentered := by
    rcases hexplained.deletes seq delete hdelete (hextends.entered hentered) with
      hover | ⟨entry, hentry, rfl, hof⟩
    · exact Or.inl (hover.extend hextends)
    · exact (hdeletes entry hentry delete hof hdelete).imp_right fun hkept =>
        ⟨entry, hkept, rfl, hof⟩
  sole entry hentry hdelete other hother hwaits := by
    rcases hentries entry hentry with hentry | ⟨_, hnone⟩
    · rcases hentries other hother with hother | ⟨hruns, _⟩
      · exact hexplained.sole entry hentry hdelete other hother hwaits
      · rw [hruns] at hwaits
        cases hwaits
    · rw [hnone] at hdelete
      cases hdelete
  pauses hobserved := hpauses fun seq command hentered =>
    hobserved seq command (hextends.grown.subset hentered)
  observers := hobservers
  listing := hlisting

end Extends

theorem Explained.between (hexplained : Explained queue history)
    (hentries : later.entries = queue.entries) (hfrom : queue.phase.isRunning = false)
    (hto : later.phase.isRunning = false) (hlisting : later.phase ≠ .listing)
    (hpauses : AllObserved history → ∀ seq command attempt, attempt.isUnverifiable →
      .ended seq command attempt ∈ history →
      Lifted seq command attempt history [] ∨ later.paused.isSome = true)
    (hobservers : AllObserved history → ∀ pause, later.paused = some pause →
      pause.observes = true) : Explained later history := by
  refine hexplained.extend (.refl history) ?_ (fun entry hentry => Or.inl (hentries ▸ hentry))
    (fun seq command hphase => ?_) (fun seq command hphase => ?_)
    (fun entry hentry _ _ _ => Or.inr (hentries ▸ hentry)) hpauses hobservers
    fun hphase => absurd hphase hlisting
  · rw [shape_of_entries hto, hentries, ← shape_of_entries hfrom]
    exact hexplained.shape
  · rw [hphase] at hto
    cases hto
  · rw [hphase] at hfrom
    cases hfrom

theorem Explained.turn (hexplained : Explained queue history)
    (hentries : later.entries = queue.entries) (hpaused : later.paused = queue.paused)
    (hfrom : queue.phase.isRunning = false) (hto : later.phase.isRunning = false)
    (hlisting : later.phase ≠ .listing) : Explained later history :=
  hexplained.between hentries hfrom hto hlisting (hpaused ▸ hexplained.pauses)
    (hpaused ▸ hexplained.observers)

theorem Explained.startDrain (hexplained : Explained queue history) :
    Explained (startDrain queue) history := by
  by_cases hidle : queue.phase = .idle
  · refine hexplained.turn rfl rfl ?_ ?_ ?_
    · rw [hidle]
      rfl
    · simp [WorkspaceLifecycle.startDrain, hidle, DrainPhase.isRunning]
    · simp [WorkspaceLifecycle.startDrain, hidle]
  · refine hexplained.congr rfl ?_ rfl
    simp [WorkspaceLifecycle.startDrain, hidle]

theorem sound_silently (hexplained : Explained change.queue history)
    (hserialized : Serialized history) (hevents : change.events = []) : Sound history change := by
  rw [Sound, hevents, append_nil]
  exact ⟨hexplained, hserialized⟩

end Phases

section Entering

/-- The entries a command finds: those a delete cancels are gone. -/
structure Admits (queue : WorkspaceQueue) (base : List Entry) (command : LifecycleCommand) :
    Prop where
  shape : Shape { queue with entries := base }
  subset : ∀ entry ∈ base, entry ∈ queue.entries
  running : command.isDelete = true → ∀ entry ∈ base, entry.running = true
  noDelete : ∀ entry ∈ base, entry.isDelete = false
  replaced : ∀ entry ∈ queue.entries, entry.isDelete = true →
    entry.running = false ∧ command.isDelete = true ∧ command.isForced = true

theorem isDelete_of_command {entry : Entry} {delete : LifecycleCommand}
    (hcommand : entry.command = some delete) : entry.isDelete = delete.isDelete := by
  rw [Entry.isDelete, hcommand]
  rfl

theorem Explained.unstarted (hexplained : Explained queue history) {entry : Entry}
    (hentry : entry ∈ queue.entries) (hwaits : entry.running = false) (other : LifecycleCommand) :
    .started entry.seq other ∉ history :=
  let ⟨_, _, _, hnone⟩ := hexplained.waiting entry hentry hwaits
  hnone other

variable {base : List Entry}

theorem mayFollow_other {event : Event} (hentered : ∀ seq command, event ≠ .entered seq command)
    (hbound : ∀ next, event = .bound next → ∀ seq delete, delete.isDelete = true →
      .entered seq delete ∈ history → Over seq delete history [])
    (hstarted : ∀ seq command, event ≠ .started seq command) : MayFollow history event where
  fresh seq command h := absurd h (hentered seq command)
  entered seq command h := absurd h (hstarted seq command)
  once seq _ again _ := hstarted seq again
  alone _ _ next other _ h := absurd h (hstarted next other)
  inOrder seq _ _ _ again _ _ := hstarted seq again
  cancelled seq _ _ _ again _ _ := hstarted seq again
  exclusive _ _ next command _ _ h := absurd h (hentered next command)
  exclusiveCreate seq delete next hdelete hmem h := hbound next h seq delete hdelete hmem
  paused _ _ _ _ next other _ _ h := absurd h (hstarted next other)

theorem mayFollow_entered (hexplained : Explained queue history)
    (hadmits : Admits queue base command) (hnew : ∀ other, .entered seq other ∉ history) :
    MayFollow history (.entered seq command) where
  fresh seq' command' hevent := by
    cases hevent
    exact hnew
  entered _ _ h := by cases h
  once _ _ _ _ h := by cases h
  alone _ _ _ _ _ h := by cases h
  inOrder _ _ _ _ _ _ _ h := by cases h
  cancelled _ _ _ _ _ _ _ h := by cases h
  exclusive seq' delete next command' hdelete hentered hevent := by
    cases hevent
    rcases hexplained.deletes seq' delete hdelete hentered with hover | ⟨entry, hentry, rfl, hof⟩
    · exact Or.inl hover
    · obtain ⟨hwaits, hreplaces, hforced⟩ :=
        hadmits.replaced entry hentry ((isDelete_of_command hof).trans hdelete)
      exact Or.inr ⟨hreplaces, hforced, hexplained.unstarted hentry hwaits delete⟩
  exclusiveCreate _ _ _ _ _ h := by cases h
  paused _ _ _ _ _ _ _ _ h := by cases h

theorem shape_enter (hshape : Shape { queue with entries := base })
    (hnew : ∀ entry ∈ base, entry.running = false → entry.seq ≠ seq) :
    Shape { queue with entries := withCommand seq command base } :=
  shape_update hshape (fun _ _ _ => by rw [withCommand, splice, if_neg (by simp)]; rfl)
    fun _ hsubset hordered => ordered_enter hordered fun entry hentry => hnew entry (hsubset hentry)

section

variable (hexplained : Explained queue history) (hadmits : Admits queue base command)
  (hnew : ∀ other, .entered seq other ∉ history) (hnever : ∀ other, .started seq other ∉ history)
include hexplained hadmits hnew hnever

/-- An entered command waits behind those entered before. -/
theorem explained_entered : Explained { queue with entries := withCommand seq command base }
      (history ++ [.entered seq command]) := by
  have hfresh : Fresh (.entered seq command) history :=
    (mayFollow_entered hexplained hadmits hnew).fresh
  have hother : ∀ entry ∈ base, entry.running = false → entry.seq ≠ seq := by
    rintro entry hentry hwaits rfl
    obtain ⟨command', _, hentered, _⟩ :=
      hexplained.waiting entry (hadmits.subset entry hentry) hwaits
    exact hnew command' hentered
  have hstarted : ∀ seq' other, .started seq' other ∈ history ++ [.entered seq command] →
      .started seq' other ∈ history := fun seq' other hmem => by simpa using hmem
  have hended : ∀ seq' other attempt, .ended seq' other attempt ∈
      history ++ [.entered seq command] → .ended seq' other attempt ∈ history :=
    fun seq' other attempt hmem => by simpa using hmem
  refine
    { shape := shape_enter hadmits.shape hother
      waiting := fun entry hentry hwaits => ?_
      inOrder := fun seq' command' next other hlt horder entry hentry hof => ?_
      cancelled := fun seq' command' next delete hdelete horder entry hentry hof => ?_
      started := fun seq' command' hmem => ?_
      running := fun seq' command' hphase =>
        mem_append_left _ (hexplained.running seq' command' hphase)
      deletes := fun seq' delete hdelete hentered => ?_
      sole := fun entry hentry hdelete other hmem hwaits => ?_
      pauses := fun hobserved seq' command' attempt hattempt hmem => ?_
      observers := fun hobserved => hexplained.observers hobserved.earlier
      listing := fun hphase seq' command' attempt hattempt hmem =>
        (hexplained.listing hphase seq' command' attempt hattempt (hended _ _ _ hmem)).later }
  · rcases mem_splice.mp hentry with rfl | hentry
    · exact ⟨command, rfl, mem_append_right _ mem_cons_self, fun other hmem =>
        hnever other (hstarted _ _ hmem)⟩
    · obtain ⟨command', hof, hentered, hnone⟩ :=
        hexplained.waiting entry (hadmits.subset entry hentry) hwaits
      exact ⟨command', hof, mem_append_left _ hentered, fun other hmem =>
        hnone other (hstarted _ _ hmem)⟩
  · rcases two_concat.mp horder with horder | ⟨_, hevent⟩
    · rcases mem_splice.mp hentry with rfl | hentry
      · obtain rfl : seq = seq' := hof
        exact absurd (first_mem horder) (hnew command')
      · exact hexplained.inOrder seq' command' next other hlt horder entry
          (hadmits.subset entry hentry) hof
    · cases hevent
  · rcases two_concat.mp horder with horder | ⟨hentered, hevent⟩
    · rcases mem_splice.mp hentry with rfl | hentry
      · obtain rfl : seq = seq' := hof
        exact absurd (first_mem horder) (hnew command')
      · exact hexplained.cancelled seq' command' next delete hdelete horder entry
          (hadmits.subset entry hentry) hof
    · cases hevent
      rcases mem_splice.mp hentry with rfl | hentry
      · obtain rfl : seq = seq' := hof
        exact absurd hentered (hnew command')
      · exact hadmits.running hdelete entry hentry
  · exact (hexplained.started seq' command' (hstarted _ _ hmem)).imp_left fun ⟨attempt, horder⟩ =>
      ⟨attempt, order_later horder⟩
  · rcases mem_append.mp hentered with hearlier | hnewest
    · rcases hexplained.deletes seq' delete hdelete hearlier with hover | ⟨entry, hentry, rfl, hof⟩
      · exact Or.inl (hover.later hfresh)
      · -- the waiting delete is replaced by this one
        obtain ⟨hwaits, hreplaces, hforced⟩ :=
          hadmits.replaced entry hentry ((isDelete_of_command hof).trans hdelete)
        refine Or.inl (Or.inr ⟨seq, command, hreplaces, hforced, two_of_mem hearlier, fun h => ?_⟩)
        rcases two_concat.mp h with horder | ⟨hmem, _⟩
        · exact hnew command (last_mem horder)
        · exact hexplained.unstarted hentry hwaits delete hmem
    · cases mem_singleton.mp hnewest
      exact Or.inr ⟨_, mem_splice.mpr (Or.inl rfl), rfl, rfl⟩
  · rcases mem_splice.mp hentry with rfl | hentry
    · rcases mem_splice.mp hmem with rfl | hmem
      · rfl
      · rw [hadmits.running hdelete other hmem] at hwaits
        cases hwaits
    · rw [hadmits.noDelete entry hentry] at hdelete
      cases hdelete
  · exact (hexplained.pauses hobserved.earlier seq' command' attempt hattempt
      (hended _ _ _ hmem)).imp_left Lifted.later

theorem explained_enter : Explained (enter seq command { queue with entries := base })
      (history ++ [.entered seq command]) := by
  refine Explained.startDrain ?_
  exact (explained_entered hexplained hadmits hnew hnever).congr rfl rfl rfl

end

theorem admits_entries (hshape : Shape queue) (hdelete : command.isDelete = false)
    (hnone : ∀ entry ∈ queue.entries, entry.isDelete = false) :
    Admits queue queue.entries command where
  shape := hshape
  subset _ hentry := hentry
  running hof := by
    rw [hdelete] at hof
    cases hof
  noDelete := hnone
  replaced entry hentry hof := by
    rw [hnone entry hentry] at hof
    cases hof

theorem shape_cancel (hshape : Shape queue) :
    Shape { queue with entries := queue.entries.filter (·.running) } :=
  shape_update hshape (fun _ _ _ => filter_cons_of_pos rfl) fun _ _ => ordered_cancel

theorem admits_running (hshape : Shape queue)
    (hpending : ∀ entry ∈ queue.entries, entry.isDelete = true →
      entry.running = false ∧ command.isDelete = true ∧ command.isForced = true) :
    Admits queue (queue.entries.filter (·.running)) command where
  shape := shape_cancel hshape
  subset _ hentry := mem_of_mem_filter hentry
  running _ _ hentry := (mem_filter.mp hentry).2
  noDelete entry hentry := by
    obtain ⟨hmem, hrunning⟩ := mem_filter.mp hentry
    by_contra hdelete
    have hwaits := (hpending entry hmem (by simpa using hdelete)).1
    rw [hwaits] at hrunning
    cases hrunning
  replaced := hpending

section

variable (hexplained : Explained queue history) (hserialized : Serialized history)
  (hnew : ∀ other, .entered seq other ∉ history)
include hexplained hserialized hnew

theorem accept_sound (hpending : ∀ entry ∈ queue.entries, entry.isDelete = true →
      entry.running = false ∧ command.isDelete = true ∧ command.isForced = true) :
    Sound history (accept seq command queue) := by
  have hnever : ∀ other, .started seq other ∉ history := fun other hstarted =>
    hnew other (first_mem (hserialized.entered seq other hstarted))
  rw [accept]
  split_ifs with hdelete
  · have hadmits := admits_running hexplained.shape hpending
    exact ⟨explained_enter hexplained hadmits hnew hnever,
      serialized_concat hserialized (mayFollow_entered hexplained hadmits hnew)⟩
  · have hnone : ∀ entry ∈ queue.entries, entry.isDelete = false := fun entry hentry => by
      by_contra hpends
      exact hdelete (hpending entry hentry (by simpa using hpends)).2.1
    have hadmits := admits_entries hexplained.shape (by simpa using hdelete) hnone
    exact ⟨explained_enter hexplained hadmits hnew hnever,
      serialized_concat hserialized (mayFollow_entered hexplained hadmits hnew)⟩

theorem enqueue_sound : Sound history (enqueue seq command queue) := by
  rw [enqueue]
  cases hfound : pendingDelete queue with
  | none =>
    refine accept_sound hexplained hserialized hnew fun entry hentry hdelete => ?_
    exact absurd hdelete (find?_eq_none.mp hfound entry hentry)
  | some pending =>
    dsimp only
    split_ifs with hkind hjoins hrefused
    · exact sound_silently hexplained hserialized rfl
    · exact sound_silently hexplained hserialized rfl
    · exact sound_silently hexplained hserialized rfl
    · simp only [Bool.or_eq_true, Bool.not_eq_true', not_or, Bool.not_eq_false,
        Bool.not_eq_true] at hkind hrefused
      refine accept_sound hexplained hserialized hnew fun entry hentry hdelete => ?_
      -- the pending delete waits, so it is the only one
      obtain rfl : pending = entry := hexplained.sole entry hentry hdelete pending
        (mem_of_find?_eq_some hfound) hrefused.2
      exact ⟨hrefused.2, hkind, hrefused.1⟩

end

end Entering

section Creates

theorem noDelete_of_pending (hpending : ¬ (pendingDelete queue).isSome = true) :
    ∀ entry ∈ queue.entries, entry.isDelete = false := by
  rw [Bool.not_eq_true, Option.isSome_eq_false_iff, Option.isNone_iff_eq_none] at hpending
  intro entry hentry
  simpa using find?_eq_none.mp hpending entry hentry

theorem shape_bind (hshape : Shape queue) :
    Shape { queue with entries := withCreate seq queue.entries } :=
  shape_update hshape (fun _ _ _ => by rw [withCreate, splice, if_neg (by simp)]; rfl)
    fun _ _ hordered => ordered_bind hordered

theorem bindCreate_sound (hexplained : Explained queue history) (hserialized : Serialized history)
    (hbound : bindCreate seq queue = some change) : Sound history change := by
  rw [bindCreate] at hbound
  split_ifs at hbound with hpending
  have hnone := noDelete_of_pending hpending
  obtain rfl := Option.some.inj hbound
  have hextends : Extends history (history ++ [.bound seq]) :=
    .concat (fun _ _ => (by rintro ⟨⟩)) fun _ _ => (by rintro ⟨⟩)
  have hended : ∀ {seq' command attempt}, .ended seq' command attempt ∈ history ++ [.bound seq] →
      .ended seq' command attempt ∈ history := fun hmem => by simpa using hmem
  have hkept : ∀ entry ∈ queue.entries, ∀ delete, entry.command = some delete →
      delete.isDelete = true → False := fun entry hentry delete hof hdelete => by
    rw [← isDelete_of_command hof, hnone entry hentry] at hdelete
    cases hdelete
  have hdeletes : ∀ seq' delete, delete.isDelete = true →
      .entered seq' delete ∈ history → Over seq' delete history [] := by
    intro seq' delete hdelete hentered
    rcases hexplained.deletes seq' delete hdelete hentered with hover | ⟨entry, hentry, _, hof⟩
    · exact hover
    · exact (hkept entry hentry delete hof hdelete).elim
  refine ⟨?_, serialized_concat hserialized (mayFollow_other (fun _ _ => (by rintro ⟨⟩))
    (fun _ _ => hdeletes) fun _ _ => (by rintro ⟨⟩))⟩
  refine hexplained.extend hextends (shape_bind hexplained.shape) (fun entry hentry => ?_)
    (fun _ _ => id) (fun _ _ => Or.inr)
    (fun entry hentry delete hof hdelete => (hkept entry hentry delete hof hdelete).elim)
    (fun hobserved seq' command attempt hattempt hmem =>
      (hexplained.pauses hobserved seq' command attempt hattempt (hended hmem)).imp_left
        (Lifted.extend hextends))
    (fun hobserved => hexplained.observers hobserved.earlier)
    fun hphase seq' command attempt hattempt hmem =>
      (hexplained.listing hphase seq' command attempt hattempt (hended hmem)).extend hextends
  rcases mem_splice.mp hentry with rfl | hentry
  · exact Or.inr ⟨rfl, rfl⟩
  · exact Or.inl hentry

theorem shape_finish (hshape : Shape queue) :
    Shape { queue with entries := queue.entries.eraseP (isCreate seq) } :=
  shape_update hshape (fun _ _ _ => eraseP_cons_of_neg (by simp [isCreate])) fun _ _ hordered =>
    ordered_erase hordered

theorem finishEntry_sound (hexplained : Explained queue history) (hserialized : Serialized history)
    (hfinished : finishEntry seq queue = some change) : Sound history change := by
  rw [finishEntry] at hfinished
  split_ifs at hfinished
  obtain rfl := Option.some.inj hfinished
  refine sound_silently (Explained.startDrain ?_) hserialized rfl
  exact hexplained.extend (.refl history) (shape_finish hexplained.shape)
    (fun entry hentry => Or.inl (mem_of_mem_eraseP hentry)) (fun _ _ => id) (fun _ _ => Or.inr)
    (fun entry hentry delete hof _ =>
      Or.inr ((mem_eraseP_of_neg (by simp [isCreate, hof])).mpr hentry))
    hexplained.pauses hexplained.observers hexplained.listing

end Creates

section Running

variable {head : Entry} {rest : List Entry} {attempt : LifecycleAttempt}

theorem notRunning_of_looping (hlooping : queue.phase = .looping) :
    queue.phase.isRunning = false := by
  rw [hlooping]
  rfl

/-- The first entry may start once nothing runs and no pause holds it. -/
theorem mayFollow_started (hexplained : Explained queue history)
    (hlooping : queue.phase = .looping) (hentries : queue.entries = head :: rest)
    (hwaits : head.running = false) (hcommand : head.command = some command)
    (hpause : queue.paused = none ∨ command.isForced = true) :
    MayFollow history (.started head.seq command) where
  fresh _ _ h := by cases h
  entered seq other hevent := by
    cases hevent
    obtain ⟨known, hof, hentered, _⟩ := hexplained.waiting head (hentries ▸ mem_cons_self) hwaits
    obtain rfl := Option.some.inj (hcommand.symm.trans hof)
    exact hentered
  once seq other again hstarted hevent := by
    cases hevent
    exact hexplained.unstarted (hentries ▸ mem_cons_self) hwaits other hstarted
  alone seq other next started hstarted _ := by
    rcases hexplained.started seq other hstarted with hended | hrunning
    · exact hended
    · rw [hlooping] at hrunning
      cases hrunning
  inOrder seq other next started again hlt horder hevent := by
    cases hevent
    have hruns := hexplained.inOrder head.seq other next started hlt horder head
      (hentries ▸ mem_cons_self) rfl
    rw [hwaits] at hruns
    cases hruns
  cancelled seq other next delete again hdelete horder hevent := by
    cases hevent
    have hruns := hexplained.cancelled head.seq other next delete hdelete horder head
      (hentries ▸ mem_cons_self) rfl
    rw [hwaits] at hruns
    cases hruns
  exclusive _ _ _ _ _ _ h := by cases h
  exclusiveCreate _ _ _ _ _ h := by cases h
  paused hobserved seq other attempt next started hattempt hended hevent hforced := by
    cases hevent
    rcases hexplained.pauses hobserved seq other attempt hattempt hended with hlifted | hpaused
    · exact hlifted
    · rcases hpause with hnone | hforces
      · rw [hnone] at hpaused
        cases hpaused
      · rw [hforces] at hforced
        cases hforced

def startHead (queue : WorkspaceQueue) (head : Entry) (rest : List Entry)
    (command : LifecycleCommand) : WorkspaceQueue :=
  { queue with
    entries := { head with running := true } :: rest
    phase := .running head.seq command }

/-- The head starts and everything else waits on. -/
theorem explained_started (hexplained : Explained queue history)
    (hlooping : queue.phase = .looping) (hentries : queue.entries = head :: rest)
    (hwaits : head.running = false) (hcommand : head.command = some command) :
    Explained (startHead queue head rest command) (history ++ [.started head.seq command]) := by
  have hshape := hexplained.shape
  rw [shape_of_entries (notRunning_of_looping hlooping), hentries] at hshape
  obtain ⟨hrest, hordered⟩ := seq_lt_of_waiting hshape hwaits
  have hmem : ∀ entry ∈ rest, entry ∈ queue.entries := fun entry hentry =>
    hentries ▸ mem_cons_of_mem _ hentry
  have hhead : head ∈ queue.entries := hentries ▸ mem_cons_self
  have hevent : ∀ event, (∀ other, event ≠ .started head.seq other) →
      event ∈ history ++ [.started head.seq command] → event ∈ history :=
    fun event hne hevent => by simpa [hne command] using hevent
  have hfresh : Fresh (.started head.seq command) history := fun _ _ h => (by cases h)
  refine
    { shape := ⟨rest, by simp [startHead, hcommand], hordered⟩
      waiting := fun entry hentry hwaiting => ?_
      inOrder := fun seq other next started hlt horder entry hentry hof => ?_
      cancelled := fun seq other next delete hdelete horder entry hentry hof => ?_
      started := fun seq other hstarted => ?_
      running := fun seq other hphase => ?_
      deletes := fun seq delete hdelete hentered => ?_
      sole := fun entry hentry hdelete other hother hwaiting => ?_
      pauses := fun hobserved seq other attempt hattempt hended => ?_
      observers := fun hobserved => hexplained.observers hobserved.earlier
      listing := fun hphase => by cases hphase }
  · rcases mem_cons.mp hentry with rfl | hentry
    · cases hwaiting
    · obtain ⟨known, hof, hentered, hnever⟩ := hexplained.waiting entry (hmem entry hentry) hwaiting
      refine ⟨known, hof, mem_append_left _ hentered, fun other hstarted => ?_⟩
      rcases mem_append.mp hstarted with hearlier | hnewest
      · exact hnever other hearlier
      · have hseq := (hrest entry hentry).2
        rw [(Event.started.inj (mem_singleton.mp hnewest)).1] at hseq
        exact Nat.lt_irrefl _ hseq
  · rcases mem_cons.mp hentry with rfl | hentry
    · rfl
    · rcases two_concat.mp horder with horder | ⟨_, hnewest⟩
      · exact hexplained.inOrder seq other next started hlt horder entry (hmem entry hentry) hof
      · -- the entry arrived after the head, and so did the overtaken command
        have hseq := (hrest entry hentry).2
        rw [hof, ← (Event.started.inj hnewest).1] at hseq
        exact absurd hseq (Nat.lt_asymm hlt)
  · rcases mem_cons.mp hentry with rfl | hentry
    · rfl
    · rcases two_concat.mp horder with horder | ⟨_, hnewest⟩
      · exact hexplained.cancelled seq other next delete hdelete horder entry
          (hmem entry hentry) hof
      · cases hnewest
  · rcases mem_append.mp hstarted with hearlier | hnewest
    · rcases hexplained.started seq other hearlier with ⟨attempt, horder⟩ | hrunning
      · exact Or.inl ⟨attempt, order_later horder⟩
      · rw [hlooping] at hrunning
        cases hrunning
    · cases mem_singleton.mp hnewest
      exact Or.inr rfl
  · cases hphase
    exact mem_append_right _ mem_cons_self
  · rcases hexplained.deletes seq delete hdelete (hevent _ (fun _ => (by rintro ⟨⟩)) hentered) with
      hover | ⟨entry, hentry, hseq, hof⟩
    · exact Or.inl (hover.later hfresh)
    · rw [hentries] at hentry
      rcases mem_cons.mp hentry with rfl | hentry
      · exact Or.inr ⟨_, mem_cons_self, hseq, hof⟩
      · exact Or.inr ⟨entry, mem_cons_of_mem _ hentry, hseq, hof⟩
  · rcases mem_cons.mp hother with rfl | hother
    · cases hwaiting
    · rcases mem_cons.mp hentry with rfl | hentry
      · -- nothing waited besides a delete at the head
        have hseq := (hrest other hother).2
        rw [hexplained.sole head hhead hdelete other (hmem other hother) hwaiting] at hseq
        exact absurd hseq (Nat.lt_irrefl _)
      · exact hexplained.sole entry (hmem entry hentry) hdelete other (hmem other hother) hwaiting
  · exact (hexplained.pauses hobserved.earlier seq other attempt hattempt
      (hevent _ (fun _ => (by rintro ⟨⟩)) hended)).imp_left Lifted.later

/-- What one turn of the loop can be: it comes to an await or an end, lifts a
pause nobody observes, or starts the first entry. -/
theorem drain_cases {mustWait : ℕ → Bool} (hdrained : drain mustWait queue = some change) :
    queue.phase = .looping ∧
      ((change.events = [] ∧ change.replies = [] ∧ change.queue.entries = queue.entries ∧
          change.queue.paused = queue.paused ∧ change.queue.phase.isRunning = false ∧
          change.queue.phase ≠ .listing) ∨
        (∃ pause, queue.paused = some pause ∧ pause.observes = false ∧
          change = { queue := { queue with paused := none } }) ∨
        ∃ head rest command, queue.entries = head :: rest ∧ head.running = false ∧
          head.command = some command ∧ (queue.paused = none ∨ command.isForced = true) ∧
          change = { queue := startHead queue head rest command
                     events := [.started head.seq command] }) := by
  obtain ⟨entries, paused, settling, phase, wake⟩ := queue
  simp only [drain] at hdrained
  split_ifs at hdrained with hphase
  refine ⟨not_not.mp hphase, ?_⟩
  rcases entries with _ | ⟨⟨seq, running, _ | command⟩, rest⟩
  · obtain rfl := Option.some.inj hdrained
    exact Or.inl ⟨rfl, rfl, rfl, rfl, rfl, (by rintro ⟨⟩)⟩
  · obtain rfl := Option.some.inj hdrained
    exact Or.inl ⟨rfl, rfl, rfl, rfl, rfl, (by rintro ⟨⟩)⟩
  · dsimp only at hdrained
    split_ifs at hdrained with hruns hwait
    · obtain rfl := Option.some.inj hdrained
      exact Or.inl ⟨rfl, rfl, rfl, rfl, rfl, (by rintro ⟨⟩)⟩
    · obtain rfl := Option.some.inj hdrained
      exact Or.inl ⟨rfl, rfl, rfl, rfl, rfl, (by rintro ⟨⟩)⟩
    · have hwaits : running = false := by simpa using hruns
      rcases paused with _ | pause
      · obtain rfl := Option.some.inj hdrained
        exact Or.inr (Or.inr ⟨_, rest, command, rfl, hwaits, rfl, Or.inl rfl, rfl⟩)
      · cases hforced : command.isForced with
        | true =>
          rw [hforced] at hdrained
          obtain rfl := Option.some.inj hdrained
          exact Or.inr (Or.inr ⟨_, rest, command, rfl, hwaits, rfl, Or.inr hforced, rfl⟩)
        | false =>
          rw [hforced] at hdrained
          dsimp only at hdrained
          split_ifs at hdrained with hobserves
          · obtain rfl := Option.some.inj hdrained
            exact Or.inl ⟨rfl, rfl, rfl, rfl, rfl, (by rintro ⟨⟩)⟩
          · obtain rfl := Option.some.inj hdrained
            exact Or.inr (Or.inl ⟨pause, rfl, by simpa using hobserves, rfl⟩)

theorem Explained.unpause (hexplained : Explained queue history)
    (hentries : later.entries = queue.entries) (hfrom : queue.phase.isRunning = false)
    (hto : later.phase.isRunning = false) (hlisting : later.phase ≠ .listing)
    (hpaused : later.paused = none)
    (hlifted : AllObserved history → ∀ seq command attempt, attempt.isUnverifiable →
      .ended seq command attempt ∈ history → Lifted seq command attempt history []) :
    Explained later history :=
  hexplained.between hentries hfrom hto hlisting
    (fun hobserved seq command attempt hattempt hended =>
      Or.inl (hlifted hobserved seq command attempt hattempt hended)) fun _ pause hpause => by
        rw [hpaused] at hpause
        cases hpause

theorem drain_sound (hexplained : Explained queue history) (hserialized : Serialized history)
    {mustWait : ℕ → Bool} (hdrained : drain mustWait queue = some change) :
    Sound history change := by
  obtain ⟨hlooping, hcases⟩ := drain_cases hdrained
  have hfrom := notRunning_of_looping hlooping
  rcases hcases with ⟨hevents, _, hentries, hpaused, hto, hlisting⟩ |
    ⟨pause, hpaused, hblind, rfl⟩ |
    ⟨head, rest, command, hentries, hwaits, hcommand, hpause, rfl⟩
  · exact sound_silently (hexplained.turn hentries hpaused hfrom hto hlisting) hserialized hevents
  · refine sound_silently (hexplained.unpause rfl hfrom hfrom ?_ rfl fun hobserved => ?_)
      hserialized rfl
    · rw [hlooping]
      exact (by rintro ⟨⟩)
    · have hsees := hexplained.observers hobserved pause hpaused
      rw [hblind] at hsees
      cases hsees
  · exact ⟨explained_started hexplained hlooping hentries hwaits hcommand,
      serialized_concat hserialized
        (mayFollow_started hexplained hlooping hentries hwaits hcommand hpause)⟩

theorem pauseAfter_cases (command : LifecycleCommand) (attempt : LifecycleAttempt)
    (paused : Option Pause) :
    (attempt.isUnverifiable ∧ pauseAfter command attempt paused =
        some { kind := command.kind, observes := command.observes }) ∨
      (¬ attempt.isUnverifiable ∧ pauseAfter command attempt paused = none ∧
        command.isDelete = true ∧ attempt.isDone) ∨
      (¬ attempt.isUnverifiable ∧ pauseAfter command attempt paused = paused) := by
  rw [pauseAfter]
  split_ifs with hunverifiable hdone
  · exact Or.inl ⟨hunverifiable, rfl⟩
  · rw [Bool.and_eq_true, Bool.not_eq_true'] at hdone
    refine Or.inr (Or.inl ⟨hunverifiable, rfl, hdone.1, ?_, hdone.2⟩)
    cases hcase : attempt.outcome with
    | settled => rfl
    | unverifiable => exact absurd hcase hunverifiable
  · exact Or.inr (Or.inr ⟨hunverifiable, rfl⟩)

/-- An ended command leaves; a failed one may pause the queue. -/
theorem explained_ended (hexplained : Explained queue history) (hserialized : Serialized history)
    (hrunning : queue.phase = .running seq command)
    (hlater : later.entries = queue.entries.eraseP (isCommand seq) ∧ later.phase = .looping ∧
      later.paused = pauseAfter command attempt queue.paused) :
    Explained later (history ++ [.ended seq command attempt]) := by
  obtain ⟨hentries, hphase, hpaused⟩ := hlater
  have hshape := hexplained.shape
  simp only [Shape, hrunning] at hshape
  obtain ⟨rest, hqueued, hordered⟩ := hshape
  rw [hqueued, eraseP_cons_of_pos (by simp [isCommand])] at hentries
  have hstarted := hexplained.running seq command hrunning
  have hentered := first_mem (hserialized.entered seq command hstarted)
  have hearlier : ∀ {seq' other done}, .ended seq' other done ∈
      history ++ [.ended seq command attempt] → done ≠ attempt →
      .ended seq' other done ∈ history := fun hmem hne => by simpa [hne] using hmem
  have hextends : Extends history (history ++ [.ended seq command attempt]) :=
    .concat (fun _ _ => (by rintro ⟨⟩)) fun _ _ => (by rintro ⟨⟩)
  refine hexplained.extend hextends ?_ (fun entry hentry => Or.inl ?_) (fun seq' other hruns => ?_)
    (fun seq' other hruns => Or.inl ?_) (fun entry hentry delete hof hdelete => ?_)
    (fun hobserved seq' other done hdone hmem => ?_) (fun hobserved pause hpause => ?_)
    fun hlisting => ?_
  · rw [shape_of_entries (notRunning_of_looping hphase), hentries]
    exact hordered
  · rw [hqueued]
    exact mem_cons_of_mem _ (hentries ▸ hentry)
  · rw [hphase] at hruns
    cases hruns
  · rw [hrunning] at hruns
    cases hruns
    exact ⟨attempt, two_of_mem hstarted⟩
  · rw [hqueued] at hentry
    rcases mem_cons.mp hentry with rfl | hentry
    · obtain rfl := Option.some.inj hof
      exact Or.inl (Or.inl ⟨attempt, two_of_mem hentered⟩)
    · exact Or.inr (hentries ▸ hentry)
  · rw [hpaused]
    rcases pauseAfter_cases command attempt queue.paused with
      ⟨_, hpause⟩ | ⟨hdefinite, _, hdelete, hworked⟩ | ⟨hdefinite, hpause⟩
    · rw [hpause]
      exact Or.inr rfl
    · have hbefore := hearlier hmem fun hsame => hdefinite (hsame ▸ hdone)
      exact Or.inl (Or.inr ⟨seq, command, attempt, hdelete, hworked, two_of_mem hbefore⟩)
    · rw [hpause]
      have hbefore := hearlier hmem fun hsame => hdefinite (hsame ▸ hdone)
      exact (hexplained.pauses hobserved seq' other done hdone hbefore).imp_left
        (Lifted.extend hextends)
  · rw [hpaused] at hpause
    rcases pauseAfter_cases command attempt queue.paused with
      ⟨_, hafter⟩ | ⟨_, hafter, _⟩ | ⟨_, hafter⟩
    · rw [hafter] at hpause
      obtain rfl := Option.some.inj hpause
      exact hobserved seq command (mem_append_left _ hentered)
    · rw [hafter] at hpause
      cases hpause
    · rw [hafter] at hpause
      exact hexplained.observers hobserved.earlier pause hpause
  · rw [hphase] at hlisting
    cases hlisting

theorem runEnded_sound (hexplained : Explained queue history) (hserialized : Serialized history)
    (hended : runEnded attempt queue = some change) : Sound history change := by
  rw [runEnded] at hended
  split at hended
  next seq command hrunning =>
    obtain rfl := Option.some.inj hended
    exact ⟨explained_ended hexplained hserialized hrunning ⟨rfl, rfl, rfl⟩,
      serialized_concat hserialized (mayFollow_other (fun _ _ => (by rintro ⟨⟩))
        (fun _ => (by rintro ⟨⟩)) fun _ _ => (by rintro ⟨⟩))⟩
  next => cases hended

end Running

section Pausing

theorem explained_answered (hexplained : Explained queue history)
    (hobserving : queue.phase = .observing) :
    Explained { queue with phase := .listing } (history ++ [.answered]) := by
  have hfrom : queue.phase.isRunning = false := by
    rw [hobserving]
    rfl
  have hlifted : ∀ seq command attempt, .ended seq command attempt ∈ history ++ [.answered] →
      Lifted seq command attempt (history ++ [.answered]) [] := fun seq command attempt hmem =>
    Or.inl (two_of_mem (by simpa using hmem))
  refine hexplained.extend (.concat (fun _ _ => (by rintro ⟨⟩)) fun _ _ => (by rintro ⟨⟩))
    ((shape_of_entries hfrom).mp hexplained.shape) (fun _ => Or.inl) (fun _ _ => (by rintro ⟨⟩))
    (fun seq command hruns => ?_) (fun _ hentry _ _ _ => Or.inr hentry)
    (fun _ seq command attempt _ hmem => Or.inl (hlifted seq command attempt hmem))
    (fun hobserved => hexplained.observers hobserved.earlier)
    fun _ seq command attempt _ => hlifted seq command attempt
  rw [hobserving] at hruns
  cases hruns

section

variable (hexplained : Explained queue history) (hserialized : Serialized history)
include hexplained hserialized

theorem ownerAnswered_sound {ok : Bool} (hanswered : ownerAnswered ok queue = some change) :
    Sound history change := by
  rw [ownerAnswered] at hanswered
  split_ifs at hanswered with hphase hok
  · obtain rfl := Option.some.inj hanswered
    exact ⟨explained_answered hexplained (not_not.mp hphase), serialized_concat hserialized
      (mayFollow_other (fun _ _ => (by rintro ⟨⟩)) (fun _ => (by rintro ⟨⟩)) fun _ _ =>
        (by rintro ⟨⟩))⟩
  · obtain rfl := Option.some.inj hanswered
    refine sound_silently (hexplained.turn rfl rfl ?_ rfl (by rintro ⟨⟩)) hserialized rfl
    rw [not_not.mp hphase]
    rfl

theorem listed_sound (hlisted : listed queue = some change) : Sound history change := by
  rw [listed] at hlisted
  split_ifs at hlisted with hphase
  obtain rfl := Option.some.inj hlisted
  refine sound_silently (hexplained.unpause rfl ?_ rfl (by rintro ⟨⟩) rfl fun _ =>
    hexplained.listing hphase) hserialized rfl
  rw [hphase]
  rfl

/-- The other waits end in one more turn of the loop. -/
theorem resumed_sound (hresumed : woken queue = some change ∨ retried queue = some change ∨
      lookupWaited queue = some change) : Sound history change := by
  have hphase : queue.phase.isRunning = false ∧ change.events = [] ∧
      change.queue.entries = queue.entries ∧ change.queue.paused = queue.paused ∧
      change.queue.phase = .looping := by
    rcases hresumed with hwoken | hretried | hwaited
    · rw [woken] at hwoken
      split_ifs at hwoken with hphase
      obtain rfl := Option.some.inj hwoken
      refine ⟨?_, rfl, rfl, rfl, rfl⟩
      rcases hphase.1 with hcase | hcase
      · rw [hcase]
        rfl
      · rw [hcase]
        rfl
    · rw [retried] at hretried
      split_ifs at hretried with hphase
      obtain rfl := Option.some.inj hretried
      refine ⟨?_, rfl, rfl, rfl, rfl⟩
      rw [hphase]
      rfl
    · rw [lookupWaited] at hwaited
      split_ifs at hwaited with hphase
      obtain rfl := Option.some.inj hwaited
      refine ⟨?_, rfl, rfl, rfl, rfl⟩
      rw [hphase]
      rfl
  obtain ⟨hfrom, hevents, hentries, hpaused, hto⟩ := hphase
  refine sound_silently (hexplained.turn hentries hpaused hfrom (notRunning_of_looping hto) ?_)
    hserialized hevents
  rw [hto]
  exact (by rintro ⟨⟩)

theorem membershipShown_sound (hshown : membershipShown queue = some change) :
    Sound history change := by
  rw [membershipShown] at hshown
  split_ifs at hshown
  obtain rfl := Option.some.inj hshown
  exact sound_silently (hexplained.congr rfl rfl rfl) hserialized rfl

end

end Pausing

end Wakii.WorkspaceLifecycle
