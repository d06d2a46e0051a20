import Wakii.Library.Precedence
import Wakii.Workspaces.LifecycleQueue

/-!
# What the history of a workspace obeys

The laws say which events may follow which: they are about the order of events
alone.  A queue explains its history when the laws hold and what may come next
can be told from its entries, its phase and its pause.
-/

namespace Wakii.WorkspaceLifecycle

open List Precedence

variable {queue : WorkspaceQueue} {history : List Event}

section Laws

def LifecycleAttempt.isUnverifiable (attempt : LifecycleAttempt) : Prop :=
  attempt.outcome = .unverifiable

def LifecycleAttempt.isDone (attempt : LifecycleAttempt) : Prop :=
  attempt.outcome = .settled ∧ attempt.threw = false

def Replaced (seq : ℕ) (delete : LifecycleCommand) (history closing : List Event) :
    Prop :=
  ∃ by' force, force.isDelete = true ∧ force.isForced = true ∧
    [.entered seq delete, .entered by' force] ++ closing <+ history ∧
    ¬ [.started seq delete, .entered by' force] <+ history

def Over (seq : ℕ) (delete : LifecycleCommand) (history closing : List Event) :
    Prop :=
  (∃ attempt, [.entered seq delete, .ended seq delete attempt] ++ closing <+ history) ∨
    Replaced seq delete history closing

/-- An unverifiable end was followed by the owner's answer, or by a delete that
worked, before some later events. -/
def Lifted (seq : ℕ) (command : LifecycleCommand) (attempt : LifecycleAttempt)
    (history closing : List Event) : Prop :=
  [.ended seq command attempt, .answered] ++ closing <+ history ∨
    ∃ other delete done, delete.isDelete = true ∧ done.isDone ∧
      [.ended seq command attempt, .ended other delete done] ++ closing <+ history

def AllObserved (history : List Event) : Prop :=
  ∀ seq command, .entered seq command ∈ history → command.observes = true

structure Serialized (history : List Event) : Prop where
  /-- What starts has its own entry. -/
  entered : ∀ seq command, .started seq command ∈ history →
    [.entered seq command, .started seq command] <+ history
  once : ∀ seq command again, ¬ [.started seq command, .started seq again] <+ history
  /-- One command runs at a time. -/
  alone : ∀ seq command next other, [.started seq command, .started next other] <+ history →
    ∃ attempt, [.started seq command, .ended seq command attempt, .started next other] <+ history
  /-- A command known before a later-arrived one started starts before it. -/
  inOrder : ∀ seq command next other again, seq < next →
    ¬ [.entered seq command, .started next other, .started seq again] <+ history
  /-- What waited when a delete was accepted never starts. -/
  cancelled : ∀ seq command next delete again, delete.isDelete = true →
    ¬ [.entered seq command, .entered next delete, .started seq again] <+ history
  /-- While a delete is pending, only a forced one that replaces it gets an entry. -/
  exclusive : ∀ seq delete next command, delete.isDelete = true →
    [.entered seq delete, .entered next command] <+ history →
    Over seq delete history [.entered next command] ∨
      (command.isDelete = true ∧ command.isForced = true ∧
        ¬ [.started seq delete, .entered next command] <+ history)
  exclusiveCreate : ∀ seq delete next, delete.isDelete = true →
    [.entered seq delete, .bound next] <+ history → Over seq delete history [.bound next]
  /-- After an unverifiable end only a forced delete starts, until the owner answers. -/
  paused : AllObserved history → ∀ seq command attempt next other, attempt.isUnverifiable →
    [.ended seq command attempt, .started next other] <+ history → other.isForced = false →
    Lifted seq command attempt history [.started next other]

variable {event : Event} {seq : ℕ} {command delete : LifecycleCommand} {attempt : LifecycleAttempt}
  {closing closing' : List Event}

def Fresh (event : Event) (history : List Event) : Prop :=
  ∀ seq command, event = .entered seq command → ∀ other, .entered seq other ∉ history

theorem replaced_of (hfresh : Fresh event history) (hreplaced : Replaced seq delete history closing)
    (hlater : ∀ by' force, [.entered seq delete, .entered by' force] ++ closing <+ history →
      [.entered seq delete, .entered by' force] ++ closing' <+ history ++ [event]) :
    Replaced seq delete (history ++ [event]) closing' := by
  obtain ⟨by', force, hdelete, hforced, horder, hwaited⟩ := hreplaced
  refine ⟨by', force, hdelete, hforced, hlater by' force horder, fun hstarted => ?_⟩
  rcases two_concat.mp hstarted with hstarted | ⟨_, rfl⟩
  · exact hwaited hstarted
  · refine hfresh by' force rfl force (horder.subset ?_)
    exact mem_append_left _ (mem_cons_of_mem _ mem_cons_self)

theorem Over.later (hfresh : Fresh event history) (hover : Over seq delete history closing) :
    Over seq delete (history ++ [event]) closing := by
  rcases hover with ⟨attempt, horder⟩ | hreplaced
  · exact Or.inl ⟨attempt, order_later horder⟩
  · exact Or.inr (replaced_of hfresh hreplaced fun _ _ horder => order_later horder)

theorem Over.before (hfresh : Fresh event history) (hover : Over seq delete history []) :
    Over seq delete (history ++ [event]) [event] := by
  rcases hover with ⟨attempt, horder⟩ | hreplaced
  · exact Or.inl ⟨attempt, three_of_two horder⟩
  · exact Or.inr (replaced_of hfresh hreplaced fun _ _ horder => three_of_two horder)

theorem Lifted.later (hlifted : Lifted seq command attempt history closing) :
    Lifted seq command attempt (history ++ [event]) closing := by
  rcases hlifted with horder | ⟨other, delete, done, hdelete, hdone, horder⟩
  · exact Or.inl (order_later horder)
  · exact Or.inr ⟨other, delete, done, hdelete, hdone, order_later horder⟩

theorem Lifted.before (hlifted : Lifted seq command attempt history []) :
    Lifted seq command attempt (history ++ [event]) [event] := by
  rcases hlifted with horder | ⟨other, delete, done, hdelete, hdone, horder⟩
  · exact Or.inl (three_of_two horder)
  · exact Or.inr ⟨other, delete, done, hdelete, hdone, three_of_two horder⟩

theorem AllObserved.earlier (hobserved : AllObserved (history ++ [event])) :
    AllObserved history := fun seq command hentered =>
  hobserved seq command (mem_append_left _ hentered)

/-- What the laws ask of the next event. -/
structure MayFollow (history : List Event) (event : Event) : Prop where
  fresh : Fresh event history
  entered : ∀ seq command, event = .started seq command → .entered seq command ∈ history
  once : ∀ seq command again, .started seq command ∈ history → event ≠ .started seq again
  alone : ∀ seq command next other, .started seq command ∈ history → event = .started next other →
    ∃ attempt, [.started seq command, .ended seq command attempt] <+ history
  inOrder : ∀ seq command next other again, seq < next →
    [.entered seq command, .started next other] <+ history → event ≠ .started seq again
  cancelled : ∀ seq command next delete again, delete.isDelete = true →
    [.entered seq command, .entered next delete] <+ history → event ≠ .started seq again
  exclusive : ∀ seq delete next command, delete.isDelete = true → .entered seq delete ∈ history →
    event = .entered next command → Over seq delete history [] ∨
      (command.isDelete = true ∧ command.isForced = true ∧ .started seq delete ∉ history)
  exclusiveCreate : ∀ seq delete next, delete.isDelete = true → .entered seq delete ∈ history →
    event = .bound next → Over seq delete history []
  paused : AllObserved history → ∀ seq command attempt next other, attempt.isUnverifiable →
    .ended seq command attempt ∈ history → event = .started next other →
    other.isForced = false → Lifted seq command attempt history []

theorem serialized_nil : Serialized [] where
  entered _ _ hmem := absurd hmem not_mem_nil
  once _ _ _ horder := absurd (first_mem horder) not_mem_nil
  alone _ _ _ _ horder := absurd (first_mem horder) not_mem_nil
  inOrder _ _ _ _ _ _ horder := absurd (horder.subset mem_cons_self) not_mem_nil
  cancelled _ _ _ _ _ _ horder := absurd (horder.subset mem_cons_self) not_mem_nil
  exclusive _ _ _ _ _ horder := absurd (first_mem horder) not_mem_nil
  exclusiveCreate _ _ _ _ horder := absurd (first_mem horder) not_mem_nil
  paused _ _ _ _ _ _ _ horder := absurd (first_mem horder) not_mem_nil

/-- A history stays serial under an event that may follow. -/
theorem serialized_concat (hserialized : Serialized history) (hmay : MayFollow history event) :
    Serialized (history ++ [event]) := by
  refine
    { entered := fun seq command hstarted => ?_
      once := fun seq command again horder => ?_
      alone := fun seq command next other horder => ?_
      inOrder := fun seq command next other again hlt horder => ?_
      cancelled := fun seq command next delete again hdelete horder => ?_
      exclusive := fun seq delete next command hdelete horder => ?_
      exclusiveCreate := fun seq delete next hdelete horder => ?_
      paused := fun hobserved seq command attempt next other hattempt horder hforced => ?_ }
  · rcases mem_append.mp hstarted with hearlier | hnewest
    · exact order_later (hserialized.entered seq command hearlier)
    · obtain rfl := mem_singleton.mp hnewest
      exact two_of_mem (hmay.entered seq command rfl)
  · rcases two_concat.mp horder with hearlier | ⟨hstarted, rfl⟩
    · exact hserialized.once seq command again hearlier
    · exact hmay.once seq command again hstarted rfl
  · rcases two_concat.mp horder with hearlier | ⟨hstarted, rfl⟩
    · obtain ⟨attempt, hended⟩ := hserialized.alone seq command next other hearlier
      exact ⟨attempt, order_later hended⟩
    · obtain ⟨attempt, hended⟩ := hmay.alone seq command next other hstarted rfl
      exact ⟨attempt, three_of_two hended⟩
  · rcases three_concat.mp horder with hearlier | ⟨hknown, rfl⟩
    · exact hserialized.inOrder seq command next other again hlt hearlier
    · exact hmay.inOrder seq command next other again hlt hknown rfl
  · rcases three_concat.mp horder with hearlier | ⟨hknown, rfl⟩
    · exact hserialized.cancelled seq command next delete again hdelete hearlier
    · exact hmay.cancelled seq command next delete again hdelete hknown rfl
  · rcases two_concat.mp horder with hearlier | ⟨hentered, rfl⟩
    · rcases hserialized.exclusive seq delete next command hdelete hearlier with
        hover | ⟨hreplaces, hforced, hwaited⟩
      · exact Or.inl (hover.later hmay.fresh)
      · refine Or.inr ⟨hreplaces, hforced, fun hstarted => ?_⟩
        rcases two_concat.mp hstarted with hstarted | ⟨_, rfl⟩
        · exact hwaited hstarted
        · exact hmay.fresh next command rfl command (last_mem hearlier)
    · rcases hmay.exclusive seq delete next command hdelete hentered rfl with
        hover | ⟨hreplaces, hforced, hwaited⟩
      · exact Or.inl (hover.before hmay.fresh)
      · refine Or.inr ⟨hreplaces, hforced, fun hstarted => ?_⟩
        rcases two_concat.mp hstarted with hstarted | ⟨hstarted, _⟩
        · exact hmay.fresh next command rfl command (last_mem hstarted)
        · exact hwaited hstarted
  · rcases two_concat.mp horder with hearlier | ⟨hentered, rfl⟩
    · exact (hserialized.exclusiveCreate seq delete next hdelete hearlier).later hmay.fresh
    · exact (hmay.exclusiveCreate seq delete next hdelete hentered rfl).before hmay.fresh
  · rcases two_concat.mp horder with hearlier | ⟨hended, rfl⟩
    · exact (hserialized.paused hobserved.earlier seq command attempt next other hattempt hearlier
        hforced).later
    · exact (hmay.paused hobserved.earlier seq command attempt next other hattempt hended rfl
        hforced).before

end Laws

section Order

/-- Creates, and behind them what waits, in the order of arrival. -/
def Ordered (entries : List Entry) : Prop :=
  ∃ creates waiting, entries = creates ++ waiting ∧
    (∀ entry ∈ creates, entry.running = true ∧ entry.command = none) ∧
    (∀ entry ∈ waiting, entry.running = false ∧ entry.command.isSome = true) ∧
    waiting.Pairwise (·.seq < ·.seq)

/-- The running command comes first. -/
def Shape (queue : WorkspaceQueue) : Prop :=
  match queue.phase with
  | .running seq command => ∃ rest,
      queue.entries = { seq, running := true, command := some command } :: rest ∧ Ordered rest
  | _ => Ordered queue.entries

variable {entries rest : List Entry} {entry head : Entry} {isBehind : Entry → Bool}

theorem mem_splice : head ∈ splice isBehind entry entries ↔ head = entry ∨ head ∈ entries := by
  induction entries with
  | nil => simp [splice]
  | cons first rest ih =>
    rw [splice]
    split_ifs
    · rw [mem_cons]
    · rw [mem_cons, ih, mem_cons]
      exact or_left_comm

theorem splice_append {front : List Entry} (hfront : ∀ entry ∈ front, isBehind entry = false) :
    splice isBehind entry (front ++ rest) = front ++ splice isBehind entry rest := by
  induction front with
  | nil => rfl
  | cons first front ih =>
    rw [cons_append, splice, if_neg (by simp [hfront first mem_cons_self]), cons_append,
      ih fun other hother => hfront other (mem_cons_of_mem _ hother)]

theorem splice_sorted {seq : ℕ} {command : Option LifecycleCommand}
    (hwaiting : ∀ entry ∈ entries, entry.running = false)
    (hsorted : entries.Pairwise (·.seq < ·.seq)) (hnew : ∀ entry ∈ entries, entry.seq ≠ seq) :
    (splice (fun queued => !queued.running && seq < queued.seq)
      { seq, running := false, command } entries).Pairwise (·.seq < ·.seq) := by
  induction entries with
  | nil => exact pairwise_singleton _ _
  | cons first rest ih =>
    rw [pairwise_cons] at hsorted
    have hfirst := hwaiting first mem_cons_self
    rw [splice]
    split_ifs with hbehind
    · rw [hfirst] at hbehind
      have hlt : seq < first.seq := by simpa using hbehind
      refine pairwise_cons.mpr ⟨fun other hother => ?_, pairwise_cons.mpr hsorted⟩
      rcases mem_cons.mp hother with rfl | hrest
      · exact hlt
      · exact Nat.lt_trans hlt (hsorted.1 other hrest)
    · rw [hfirst] at hbehind
      have hle : first.seq ≤ seq := by simpa using hbehind
      refine pairwise_cons.mpr ⟨fun other hother => ?_, ih (fun other hother =>
        hwaiting other (mem_cons_of_mem _ hother)) hsorted.2 fun other hother =>
          hnew other (mem_cons_of_mem _ hother)⟩
      rcases mem_splice.mp hother with rfl | hrest
      · exact Nat.lt_of_le_of_ne hle (hnew first mem_cons_self)
      · exact hsorted.1 other hrest

section

variable (hordered : Ordered entries)
include hordered

theorem ordered_enter {seq : ℕ} {command : LifecycleCommand}
    (hnew : ∀ entry ∈ entries, entry.running = false → entry.seq ≠ seq) :
    Ordered (withCommand seq command entries) := by
  obtain ⟨creates, waiting, rfl, hcreates, hwaiting, hsorted⟩ := hordered
  rw [withCommand, splice_append fun entry hentry => by simp [(hcreates entry hentry).1]]
  refine ⟨creates, _, rfl, hcreates, fun entry hentry => ?_, ?_⟩
  · rcases mem_splice.mp hentry with rfl | hentry
    · exact ⟨rfl, rfl⟩
    · exact hwaiting entry hentry
  · refine splice_sorted (fun entry hentry => (hwaiting entry hentry).1) hsorted fun entry hentry =>
      hnew entry (mem_append_right _ hentry) (hwaiting entry hentry).1

theorem ordered_bind {seq : ℕ} : Ordered (withCreate seq entries) := by
  obtain ⟨creates, waiting, rfl, hcreates, hwaiting, hsorted⟩ := hordered
  have hfirst : splice (!·.running) { seq, running := true, command := none } waiting =
      { seq, running := true, command := none } :: waiting := by
    cases waiting with
    | nil => rfl
    | cons first rest => rw [splice, if_pos (by simp [(hwaiting first mem_cons_self).1])]
  rw [withCreate, splice_append fun entry hentry => by simp [(hcreates entry hentry).1], hfirst]
  refine ⟨creates ++ [{ seq, running := true, command := none }], waiting, by simp,
    fun entry hentry => ?_, hwaiting, hsorted⟩
  rcases mem_append.mp hentry with hentry | hentry
  · exact hcreates entry hentry
  · rw [mem_singleton.mp hentry]
    exact ⟨rfl, rfl⟩

theorem ordered_cancel : Ordered (entries.filter (·.running)) := by
  obtain ⟨creates, waiting, rfl, hcreates, hwaiting, _⟩ := hordered
  have hnone : waiting.filter (·.running) = [] :=
    filter_eq_nil_iff.mpr fun entry hentry => by simp [(hwaiting entry hentry).1]
  rw [filter_append, hnone, append_nil]
  refine ⟨creates.filter (·.running), [], (append_nil _).symm, fun entry hentry => ?_, ?_,
    Pairwise.nil⟩
  · exact hcreates entry (mem_of_mem_filter hentry)
  · exact fun entry hentry => absurd hentry not_mem_nil

theorem ordered_erase {seq : ℕ} : Ordered (entries.eraseP (isCreate seq)) := by
  obtain ⟨creates, waiting, rfl, hcreates, hwaiting, hsorted⟩ := hordered
  have hkept : waiting.eraseP (isCreate seq) = waiting :=
    eraseP_of_forall_not fun entry hentry => by
    have hcommand := (hwaiting entry hentry).2
    rw [Option.isSome_iff_ne_none] at hcommand
    simp [isCreate, hcommand]
  by_cases hany : ∃ entry ∈ creates, isCreate seq entry = true
  · obtain ⟨entry, hentry, hcreate⟩ := hany
    rw [eraseP_append_left hcreate waiting hentry]
    exact ⟨_, waiting, rfl, fun other hother => hcreates other (mem_of_mem_eraseP hother), hwaiting,
      hsorted⟩
  · rw [eraseP_append_right waiting fun entry hentry hcreate => hany ⟨entry, hentry, hcreate⟩,
      hkept]
    exact ⟨creates, waiting, rfl, hcreates, hwaiting, hsorted⟩

end

theorem seq_lt_of_waiting (hordered : Ordered (head :: rest)) (hhead : head.running = false) :
    (∀ other ∈ rest, other.running = false ∧ head.seq < other.seq) ∧ Ordered rest := by
  obtain ⟨creates, waiting, hentries, hcreates, hwaiting, hsorted⟩ := hordered
  cases creates with
  | cons create creates =>
    obtain rfl := head_eq_of_cons_eq hentries
    rw [(hcreates head mem_cons_self).1] at hhead
    cases hhead
  | nil =>
    obtain rfl : head :: rest = waiting := hentries
    rw [pairwise_cons] at hsorted
    refine ⟨fun other hother => ⟨(hwaiting other (mem_cons_of_mem _ hother)).1,
      hsorted.1 other hother⟩, [], rest, rfl, fun entry hentry => absurd hentry not_mem_nil,
      fun other hother => hwaiting other (mem_cons_of_mem _ hother), hsorted.2⟩

end Order

end Wakii.WorkspaceLifecycle
