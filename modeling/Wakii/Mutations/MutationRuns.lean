import Mathlib.Data.List.Nodup
import Wakii.Mutations.MutationSteps

/-!
# A durable request takes effect at most once

What holds of a slot in every run of the executor: the story of its runs, what
the waiting calls wait for, and what the calls that returned were given.
-/

namespace Wakii.Mutations

open Option List

variable {N : Type} (environment : Environment N) (requestId : Text)

def Awaited (run : Invocation N) : Prop :=
  run.fate = .open ∨ ∀ result, run.outcome = some (.returned result) → result ∈ run.results

inductive Answer (runs : List (Invocation N)) : Reply N → Prop
  | replayed {reply : Reply N} {result : Value N} (hproduced : Produced runs result)
      (hvalue : reply.value = attachMutationReceipt result.json requestId true) : Answer runs reply
  | replaced {reply : Reply N} {result : Value N} (hproduced : Produced runs result)
      {replayed : Bool} (hvalue : reply.value = attachMutationReceipt
        (markReplayedPromptIncarnationReplaced
          (attachMutationReceipt result.json requestId replayed)) requestId true) :
      Answer runs reply
  | first {reply : Reply N} {id : ℕ} {run : Invocation N} {result : Value N}
      (hleader : reply.leader = some id) (hrun : runs[id]? = some run)
      (hruns : run.isReplay = false) (hresult : result ∈ run.results)
      (hvalue : reply.value = attachMutationReceipt result.json requestId false) :
      Answer runs reply

structure Sound (slot : Slot N) : Prop where
  told : Told environment requestId slot
  joins : ∀ id ∈ slot.joins, ∃ run, slot.invocations[id]? = some run ∧ Awaited run
  replies : ∀ reply ∈ slot.replies, Answer requestId slot.invocations reply
  stopped : ∀ reply ∈ slot.replies, ∀ id ∈ reply.leader, ∃ run,
    slot.invocations[id]? = some run ∧ run.fate ≠ .open
  leaders : (slot.replies.filterMap (·.leader)).Nodup

def Grown (runs later : List (Invocation N)) : Prop :=
  ∀ (id : ℕ) (run : Invocation N), runs[id]? = some run → ∃ next, later[id]? = some next ∧
    next.toLaunch = run.toLaunch ∧ run.results ⊆ next.results ∧
      (run.fate ≠ .open → next.fate ≠ .open)

theorem of_mem_some {α : Type} {p : α → Prop} {item : α} (hitem : p item) :
    ∀ other ∈ some item, p other := by
  intro other hother
  rwa [← mem_some.mp hother]

section Growth

variable {environment requestId} {runs later past : List (Invocation N)} {run next : Invocation N}

theorem Grown.refl : Grown runs runs :=
  fun _ run hrun => ⟨run, hrun, rfl, fun _ hresult => hresult, id⟩

theorem Grown.append : Grown runs (runs ++ later) := by
  intro id run hrun
  have hlt := (List.getElem?_eq_some_iff.mp hrun).1
  exact ⟨run, by rw [List.getElem?_append_left hlt, hrun], rfl, fun _ hresult => hresult,
    fun h => h⟩

theorem getElem?_singleton_eq_some {α : Type} {item found : α} {index : ℕ}
    (hfound : [item][index]? = some found) : index = 0 ∧ found = item := by
  cases index with
  | zero => exact ⟨rfl, (some_inj.mp hfound).symm⟩
  | succ index => cases hfound

theorem Grown.last (hlaunch : next.toLaunch = run.toLaunch) (hresults : run.results ⊆ next.results)
    (hopen : run.fate = .open) : Grown (past ++ [run]) (past ++ [next]) := by
  intro id other hother
  rcases Nat.lt_or_ge id past.length with hlt | hge
  · rw [List.getElem?_append_left hlt] at hother
    exact ⟨other, by rw [List.getElem?_append_left hlt, hother], rfl, fun _ hresult => hresult,
      fun h => h⟩
  · rw [getElem?_append_right hge] at hother
    obtain ⟨hindex, rfl⟩ := getElem?_singleton_eq_some hother
    refine ⟨next, ?_, hlaunch, hresults, fun hover => absurd hopen hover⟩
    rw [getElem?_append_right hge, hindex]
    rfl

theorem Grown.produced {result : Value N} (hgrown : Grown runs later)
    (hproduced : Produced runs result) : Produced later result := by
  obtain ⟨run, hrun, hresult⟩ := hproduced
  obtain ⟨id, hid⟩ := mem_iff_getElem?.mp hrun
  obtain ⟨next, hnext, -, hresults, -⟩ := hgrown id run hid
  exact ⟨next, mem_of_getElem? hnext, hresults hresult⟩

theorem isReplay_congr (hlaunch : next.toLaunch = run.toLaunch) : next.isReplay = run.isReplay := by
  simp only [Invocation.isReplay, Invocation.isObservation, Invocation.isResumed, hlaunch]

theorem Grown.answer {reply : Reply N} (hgrown : Grown runs later)
    (hanswer : Answer requestId runs reply) : Answer requestId later reply := by
  cases hanswer with
  | replayed hproduced hvalue => exact .replayed (hgrown.produced hproduced) hvalue
  | replaced hproduced hvalue => exact .replaced (hgrown.produced hproduced) hvalue
  | first hleader hrun hruns hresult hvalue =>
    obtain ⟨next, hnext, hlaunch, hresults, -⟩ := hgrown _ _ hrun
    exact .first hleader hnext ((isReplay_congr hlaunch).trans hruns) (hresults hresult) hvalue

end Growth

section Updates

variable {environment requestId} {slot slot' : Slot N} {past : List (Invocation N)}
  {run next : Invocation N} {found : Option MutationReceiptRow}

section

variable (hsound : Sound environment requestId slot)
include hsound

theorem Sound.update (htold : Told environment requestId slot')
    (hgrown : Grown slot.invocations slot'.invocations) (hreplies : slot'.replies = slot.replies)
    (hjoins : ∀ id ∈ slot'.joins, ∃ run, slot'.invocations[id]? = some run ∧ Awaited run) :
    Sound environment requestId slot' := by
  refine ⟨htold, hjoins, ?_, ?_, ?_⟩
  · rw [hreplies]
    exact fun reply hreply => hgrown.answer (hsound.replies reply hreply)
  · rw [hreplies]
    intro reply hreply id hid
    obtain ⟨run, hrun, hover⟩ := hsound.stopped reply hreply id hid
    obtain ⟨next, hnext, -, -, hstays⟩ := hgrown id run hrun
    exact ⟨next, hnext, hstays hover⟩
  · rw [hreplies]
    exact hsound.leaders

theorem Sound.advance (hbusy : Busy environment requestId slot past run found)
    (hinvocations : slot'.invocations = past ++ [next]) (hlaunch : next.toLaunch = run.toLaunch)
    (hresults : run.results ⊆ next.results) (hawaited : Awaited next)
    (hjoins : slot'.joins = slot.joins) (hreplies : slot'.replies = slot.replies)
    (htold : Told environment requestId slot') : Sound environment requestId slot' := by
  have hgrown : Grown slot.invocations slot'.invocations := by
    rw [hbusy.invocations, hinvocations]
    exact .last hlaunch hresults hbusy.running
  refine hsound.update htold hgrown hreplies fun id hid => ?_
  rw [hjoins] at hid
  obtain ⟨other, hother, hwaits⟩ := hsound.joins id hid
  rw [hbusy.invocations] at hother
  rw [hinvocations]
  rcases Nat.lt_or_ge id past.length with hlt | hge
  · rw [List.getElem?_append_left hlt] at hother ⊢
    exact ⟨other, hother, hwaits⟩
  · rw [getElem?_append_right hge] at hother ⊢
    rw [(getElem?_singleton_eq_some hother).1]
    exact ⟨next, rfl, hawaited⟩

theorem Sound.reply {value : Json N} {leader : Option ℕ}
    (hanswer : Answer requestId slot.invocations ⟨value, leader⟩)
    (hover : ∀ id ∈ leader, ∃ run, slot.invocations[id]? = some run ∧ run.fate ≠ .open)
    (hnew : ∀ id ∈ leader, id ∉ slot.replies.filterMap (·.leader)) :
    Sound environment requestId (slot.reply value leader) := by
  refine ⟨?_, hsound.joins, ?_, ?_, ?_⟩
  · cases hsound.told with
    | idle hinFlight hstory => exact .idle hinFlight hstory
    | busy hbusy =>
      exact .busy ⟨hbusy.invocations, hbusy.inFlight, hbusy.running, hbusy.story, hbusy.begun,
        hbusy.reached, hbusy.returned⟩
  · intro reply hreply
    rcases mem_append.mp hreply with hreply | hreply
    · exact hsound.replies reply hreply
    · rw [mem_singleton.mp hreply]
      exact hanswer
  · intro reply hreply
    rcases mem_append.mp hreply with hreply | hreply
    · exact hsound.stopped reply hreply
    · rw [mem_singleton.mp hreply]
      exact hover
  · have hreplies : (slot.reply value leader).replies = slot.replies ++ [⟨value, leader⟩] := rfl
    rw [hreplies]
    rw [filterMap_append]
    cases leader with
    | none => simpa using hsound.leaders
    | some id =>
      refine nodup_append.mpr ⟨hsound.leaders, nodup_singleton id, ?_⟩
      rintro other hother _ hid rfl
      exact hnew id rfl (mem_singleton.mp hid ▸ hother)

end

end Updates

section Reaching

variable {environment requestId} {past : List (Invocation N)} {run next : Invocation N}
  {row : Option MutationReceiptRow}

section

variable (hlaunch : next.toLaunch = run.toLaunch)
include hlaunch

theorem isObservation_congr : next.isObservation = run.isObservation := by
  rw [Invocation.isObservation, Invocation.isObservation, hlaunch]

theorem isAtomic_congr : next.isAtomic = run.isAtomic := by
  rw [Invocation.isAtomic, Invocation.isAtomic, hlaunch]

theorem isOf_congr {row : MutationReceiptRow} : row.isOf next = row.isOf run := by
  rw [MutationReceiptRow.isOf, MutationReceiptRow.isOf, hlaunch]

end

theorem produced_last (hresults : run.results ⊆ next.results) {result : Value N}
    (hproduced : Produced (past ++ [run]) result) : Produced (past ++ [next]) result := by
  obtain ⟨other, hother, hresult⟩ := hproduced
  rcases mem_append.mp hother with hother | hother
  · exact ⟨other, mem_append_left _ hother, hresult⟩
  · rw [mem_singleton.mp hother] at hresult
    exact ⟨next, mem_append_right _ (mem_singleton_self next), hresults hresult⟩

theorem isReceipt_last (hresults : run.results ⊆ next.results) {receipt : Json N}
    (hreceipt : IsReceipt requestId (past ++ [run]) receipt) :
    IsReceipt requestId (past ++ [next]) receipt :=
  let ⟨value, replayed, hproduced, hattached⟩ := hreceipt
  ⟨value, replayed, produced_last hresults hproduced, hattached⟩

theorem Reached.update (hreached : Reached environment requestId past run row)
    (hlaunch : next.toLaunch = run.toLaunch) (hresults : next.results = run.results)
    (haccepted : next.accepted = run.accepted) : Reached environment requestId past next row where
  missing := by
    rw [isObservation_congr hlaunch, isAtomic_congr hlaunch, hresults, haccepted, hlaunch]
    exact hreached.missing
  isOf found hfound := (isOf_congr hlaunch).trans (hreached.isOf found hfound)
  observing := by
    rw [isObservation_congr hlaunch]
    exact hreached.observing
  settled := by
    rw [isObservation_congr hlaunch, hresults]
    exact hreached.settled
  accepted := by
    rw [isObservation_congr hlaunch, isAtomic_congr hlaunch, haccepted]
    exact hreached.accepted
  receipt found hfound hcompleted :=
    let ⟨receipt, hreceipt, htext⟩ := hreached.receipt found hfound hcompleted
    ⟨receipt, isReceipt_last (hresults ▸ List.Subset.refl _) hreceipt, htext⟩

theorem Reached.complete {found : MutationReceiptRow} {result : Value N} {replayed : Bool}
    (hreached : Reached environment requestId past run (some found))
    (hlaunch : next.toLaunch = run.toLaunch) (hresults : next.results = run.results ++ [result])
    (haccepted : next.accepted = run.accepted) :
    Reached environment requestId past next (some { found with
      state := .completed
      receipt := some (Json.stringify environment.format
        (attachMutationReceipt result.json requestId replayed)) }) where
  missing hnone := by cases hnone
  isOf := of_mem_some ((isOf_congr hlaunch).trans (hreached.isOf found rfl))
  observing := of_mem_some fun _ => rfl
  settled := by
    refine of_mem_some fun _ => iff_of_true rfl ?_
    rw [hresults]
    exact append_ne_nil_of_right_ne_nil _ (cons_ne_nil _ _)
  accepted := by
    rw [isObservation_congr hlaunch, isAtomic_congr hlaunch, haccepted]
    exact of_mem_some (hreached.accepted found rfl)
  receipt := by
    refine of_mem_some fun _ => ⟨_, ⟨result, replayed, ⟨next, ?_, ?_⟩, rfl⟩, rfl⟩
    · exact mem_append_right _ (mem_singleton_self next)
    · rw [hresults]
      exact mem_append_right _ (mem_singleton_self result)

theorem Reached.note (hreached : Reached environment requestId past run row)
    (allowed : MutationReceiptRow → Bool) (receipt : Text) :
    Reached environment requestId past run (row.map fun row =>
      if row.state = .pending ∧ allowed row then { row with receipt := some receipt }
      else row) := by
  cases row with
  | none => exact hreached
  | some found =>
    rw [map_some]
    split_ifs with hpending
    · refine ⟨fun hnone => (by cases hnone), ?_, ?_, ?_, ?_, ?_⟩
      · exact of_mem_some (hreached.isOf found rfl)
      · exact of_mem_some (hreached.observing found rfl)
      · exact of_mem_some (hreached.settled found rfl)
      · exact of_mem_some (hreached.accepted found rfl)
      · exact of_mem_some fun hcompleted => by cases hpending.1.symm.trans hcompleted
    · exact hreached

theorem Reached.completedRow {slot : Slot N} (receipt : Json N)
    (hreached : Reached environment requestId past run slot.row)
    (hrow : slot.row = none → run.isObservation = false → run.isAtomic = true →
      run.accepted = true) :
    ∃ found, slot.row = some found ∧ slot.completedRow environment run receipt = some { found with
        state := .completed, receipt := some (Json.stringify environment.format receipt) } := by
  cases hslot : slot.row with
  | none =>
    obtain ⟨hobserves, -, hatomic, haccepted, -⟩ := hreached.missing hslot
    rw [hrow hslot hobserves hatomic] at haccepted
    cases haccepted
  | some found =>
    have hof := hreached.isOf found hslot
    refine ⟨found, rfl, ?_⟩
    rw [Slot.completedRow, hslot, filter_some, if_pos hof]
    rfl

end Reaching

section Acting

variable {environment requestId} {slot : Slot N} {past : List (Invocation N)}
  {run : Invocation N} {found : Option MutationReceiptRow}

variable {row : Option MutationReceiptRow} {f : Invocation N → Invocation N}

theorem Sound.step (hsound : Sound environment requestId slot)
    (hbusy : Busy environment requestId slot past run found)
    (hlaunch : (f run).toLaunch = run.toLaunch) (hresults : run.results ⊆ (f run).results)
    (hrunning : (f run).fate = .open) (hreached : Reached environment requestId past (f run) row)
    (hreturned : ∀ result, (f run).outcome = some (.returned result) →
      (f run).isObservation = false → (f run).isAtomic = true → (f run).accepted = true) :
    Sound environment requestId ({ slot with row := row }.change past.length f) := by
  have hnext := hbusy.advance hlaunch hrunning hreached hreturned
  exact hsound.advance hbusy hnext.invocations hlaunch hresults (Or.inl hrunning) rfl rfl
    (.busy hnext)

theorem Busy.withRow (hbusy : Busy environment requestId slot past run found)
    (hreached : Reached environment requestId past run row) :
    Busy environment requestId { slot with row := row } past run found :=
  ⟨hbusy.invocations, hbusy.inFlight, hbusy.running, hbusy.story, hbusy.begun, hreached,
    hbusy.returned⟩

section

variable (hsound : Sound environment requestId slot)
  (hbusy : Busy environment requestId slot past run found)
include hsound hbusy

theorem Sound.withRow (hreached : Reached environment requestId past run row) :
    Sound environment requestId { slot with row := row } :=
  hsound.advance hbusy hbusy.invocations rfl (List.Subset.refl _) (Or.inl hbusy.running) rfl rfl
    (.busy (hbusy.withRow hreached))

theorem Sound.acceptWorker (receipt : Value N) :
    Sound environment requestId (slot.acceptWorker environment past.length run receipt) := by
  unfold Slot.acceptWorker
  split_ifs with haccepts
  · obtain ⟨hatomic, hobserves, hrow⟩ := haccepts
    rw [Bool.not_eq_true] at hobserves
    obtain ⟨-, -, -, -, hresults⟩ := hbusy.reached.missing (isNone_iff_eq_none.mp hrow)
    refine hsound.step (f := fun invocation => { invocation with accepted := true }) hbusy rfl
      (List.Subset.refl _) hbusy.running ?_ fun _ _ _ _ => rfl
    refine ⟨fun hnone => (by cases hnone), ?_, ?_, ?_, fun _ _ _ _ => rfl, ?_⟩
    · exact of_mem_some (isOf_iff.mpr ⟨rfl, rfl⟩)
    · intro _ _ hobserving
      exact absurd (hobserves.symm.trans hobserving) Bool.false_ne_true
    · exact of_mem_some fun _ => iff_of_false nofun fun hne => hne hresults
    · exact of_mem_some nofun
  · exact hsound

theorem Sound.noteReceipt (allowed : MutationReceiptRow → Bool) (receipt : Text) :
    Sound environment requestId (slot.noteReceipt allowed receipt) :=
  hsound.withRow hbusy (hbusy.reached.note allowed receipt)

theorem Sound.recordReceipt (houtcome : run.outcome = none) (result : Value N) :
    Sound environment requestId
      (slot.recordReceipt environment requestId past.length run result) := by
  have hrecorded : slot.recordReceipt environment requestId past.length run result = slot ∨
      ∃ last, slot.row = some last ∧ slot.completedRow environment run
          (attachMutationReceipt result.json requestId run.isReplay) = some { last with
            state := .completed
            receipt := some (Json.stringify environment.format
              (attachMutationReceipt result.json requestId run.isReplay)) } := by
    cases hrow : slot.row with
    | none =>
      left
      rw [Slot.recordReceipt, Slot.completedRow, hrow]
      rfl
    | some last =>
      right
      refine ⟨last, rfl, ?_⟩
      rw [Slot.completedRow, hrow, filter_some, if_pos (hbusy.reached.isOf last hrow)]
      rfl
  rcases hrecorded with hsame | ⟨last, hrow, hcompleted⟩
  · rw [hsame]
    exact hsound
  · rw [Slot.recordReceipt, hcompleted]
    have hreached := hbusy.reached
    rw [hrow] at hreached
    refine hsound.step hbusy rfl (subset_append_left _ _) hbusy.running
      (hreached.complete rfl rfl rfl) fun _ hreturned => ?_
    exact absurd (houtcome.symm.trans hreturned) nofun

theorem Sound.settle {outcome : Outcome N} (hmay : Slot.maySettle run outcome = true) :
    Sound environment requestId (slot.change past.length fun invocation =>
      { invocation with outcome := some outcome }) := by
  refine hsound.step (f := fun invocation => { invocation with outcome := some outcome })
    hbusy rfl (List.Subset.refl _) hbusy.running (hbusy.reached.update rfl rfl rfl) ?_
  intro result hreturned hobserves hatomic
  obtain rfl := some_inj.mp hreturned
  change (run.isObservation || !run.isAtomic || run.accepted) = true at hmay
  change run.isObservation = false at hobserves
  change run.isAtomic = true at hatomic
  rwa [hobserves, hatomic] at hmay

theorem Sound.leave {row left : Option MutationReceiptRow} {fate : Fate}
    (hlaunch : (f run).toLaunch = run.toLaunch) (hresults : run.results ⊆ (f run).results)
    (hreached : Reached environment requestId past (f run) row)
    (hleft : Left { f run with fate } row left)
    (hgiven : ∀ result, (f run).outcome = some (.returned result) → result ∈ (f run).results) :
    Sound environment requestId
        (({ slot with row := left }.change past.length f).leave past.length fate) ∧
      (({ slot with row := left }.change past.length f).leave past.length fate).invocations =
        past ++ [{ f run with fate }] := by
  have hinvocations : (({ slot with row := left }.change past.length f).leave past.length
      fate).invocations = past ++ [{ f run with fate }] := by
    change (slot.invocations.modify past.length f).modify past.length _ = _
    rw [hbusy.invocations, modify_concat, modify_concat]
  have hstory : Story environment requestId (past ++ [{ f run with fate }]) left :=
    hbusy.leave hlaunch (hreached.update rfl rfl rfl) hleft
  refine ⟨hsound.advance hbusy hinvocations hlaunch hresults (Or.inr hgiven) rfl rfl
    (.idle rfl ?_), hinvocations⟩
  rw [hinvocations]
  exact hstory

theorem Sound.leave_reply {row left : Option MutationReceiptRow} {fate : Fate} {value : Json N}
    (hlaunch : (f run).toLaunch = run.toLaunch) (hresults : run.results ⊆ (f run).results)
    (hreached : Reached environment requestId past (f run) row)
    (hleft : Left { f run with fate } row left)
    (hgiven : ∀ result, (f run).outcome = some (.returned result) → result ∈ (f run).results)
    (hanswer : Answer requestId (past ++ [{ f run with fate }]) ⟨value, some past.length⟩) :
    Sound environment requestId ((({ slot with row := left }.change past.length f).leave
      past.length fate).reply value (some past.length)) := by
  obtain ⟨hleaves, hinvocations⟩ := hsound.leave hbusy hlaunch hresults hreached hleft hgiven
  refine hleaves.reply ?_ ?_ ?_
  · rw [hinvocations]
    exact hanswer
  · intro id hid
    obtain rfl := mem_some.mp hid
    rw [hinvocations]
    exact ⟨_, getElem?_concat_length, hleft.stopped⟩
  · intro id hid hleader
    obtain rfl := mem_some.mp hid
    -- The run was open until now, so no call it was made for was answered before.
    obtain ⟨reply, hreply, hof⟩ := mem_filterMap.mp hleader
    obtain ⟨other, hother, hover⟩ := hsound.stopped reply hreply past.length hof
    rw [hbusy.invocations, getElem?_concat_length] at hother
    exact hover (some_inj.mp hother ▸ hbusy.running)

end

@[simp]
theorem change_id (id : ℕ) : slot.change id (fun invocation => invocation) = slot := by
  rw [Slot.change]
  exact congrArg (fun runs => { slot with invocations := runs }) (modify_id id _)

section

variable (hsound : Sound environment requestId slot)
  (hbusy : Busy environment requestId slot past run found)
include hsound hbusy

theorem Sound.leave_silent {left : Option MutationReceiptRow} {fate : Fate}
    (hleft : Left { run with fate } slot.row left)
    (houtcome : ∀ result, run.outcome ≠ some (.returned result)) :
    Sound environment requestId ({ slot with row := left }.leave past.length fate) := by
  have hleaves := (hsound.leave (f := fun invocation => invocation) hbusy rfl
    (List.Subset.refl _) hbusy.reached hleft fun result hreturned =>
      absurd hreturned (houtcome result)).1
  rwa [change_id] at hleaves

theorem Sound.fail {code : ErrorCode} (hobserves : run.isObservation = false) (houtcome : ∀ result,
      run.outcome ≠ some (.returned result)) :
    Sound environment requestId (slot.fail past.length run code) := by
  unfold Slot.fail
  split_ifs with hdiscards hcompleted
  · obtain ⟨last, hrow, hstate⟩ := (Option.any_eq_true _ _).mp hcompleted
    refine hsound.leave_silent hbusy (.stays (Or.inl rfl) fun _ => Or.inr ?_) houtcome
    exact (hbusy.reached.settled last hrow hobserves).mp (of_decide_eq_true hstate)
  · refine hsound.leave_silent hbusy (.discarded rfl hobserves ?_ ?_) houtcome
    · cases hrow : slot.row with
      | none => exact (hbusy.reached.missing hrow).2.2.2.2
      | some last =>
        by_contra hne
        rw [hrow] at hcompleted
        exact hcompleted (decide_eq_true ((hbusy.reached.settled last hrow hobserves).mpr hne))
    · rintro ⟨hprompt, heffect⟩
      exact hdiscards.1.elim (fun hnot => hnot hprompt) fun hnot => hnot heffect
  · exact hsound.leave_silent hbusy (.stays (Or.inr (Or.inl rfl)) nofun) houtcome

end

theorem Begun.replays {launch : Launch N} {receipt : Json N}
    (hbegun : Begun environment requestId past found launch)
    (hreplayed : launch.replayedReceipt = some receipt) : IsReceipt requestId past receipt := by
  cases hbegun with
  | started hobserves | resumed _ hobserves =>
    rw [hreplayed] at hobserves
    cases hobserves
  | observed _ hobserves hreceipt =>
    rw [hreplayed] at hobserves
    obtain rfl := some_inj.mp hobserves
    exact hreceipt

section

variable (hsound : Sound environment requestId slot)
include hsound

theorem Sound.giveUp (hbusy : Busy environment requestId slot past run found) {receipt : Json N}
    (hreplayed : run.replayedReceipt = some receipt)
    (houtcome : ∀ result, run.outcome ≠ some (.returned result)) :
    Sound environment requestId ((slot.leave past.length .completed).reply
      (attachMutationReceipt receipt requestId true) (some past.length)) := by
  obtain ⟨value, replayed, hproduced, rfl⟩ := hbusy.begun.replays hreplayed
  rw [attach_attach]
  have hobserves : run.isObservation = true := congrArg Option.isSome hreplayed
  have hanswer : Answer requestId (past ++ [{ run with fate := .completed }])
      ⟨attachMutationReceipt value.json requestId true, some past.length⟩ :=
    .replayed (hproduced.mono (subset_append_left _ _)) rfl
  have hanswers := hsound.leave_reply (f := fun invocation => invocation) hbusy rfl
    (List.Subset.refl _) hbusy.reached (.stays (Or.inl rfl) fun _ => Or.inl hobserves)
    (fun result hreturned => absurd hreturned (houtcome result)) hanswer
  rwa [change_id] at hanswers

/-- A run that is over leaves its row as its outcome says. -/
theorem Sound.conclude
    (hbusy : Busy environment requestId slot past run found) {outcome : Outcome N}
    (houtcome : run.outcome = some outcome) :
    Sound environment requestId
      (slot.conclude environment requestId past.length run outcome) := by
  cases outcome with
  | threw code =>
    have hthrew : ∀ result, run.outcome ≠ some (.returned result) := fun result hreturned =>
      nomatch houtcome.symm.trans hreturned
    cases hreplayed : run.replayedReceipt with
    | none =>
      rw [Slot.conclude]
      simp only [hreplayed]
      exact hsound.fail hbusy (congrArg Option.isSome hreplayed) hthrew
    | some receipt =>
      rw [Slot.conclude]
      simp only [hreplayed]
      exact hsound.giveUp hbusy hreplayed hthrew
  | returned result =>
    obtain ⟨last, hrow, hcompleted⟩ := hbusy.reached.completedRow
      (attachMutationReceipt result.json requestId run.isReplay)
      fun _ hobserves hatomic => hbusy.returned result houtcome hobserves hatomic
    rw [Slot.conclude]
    simp only [hcompleted]
    have hreached := hbusy.reached
    rw [hrow] at hreached
    have hresult : result ∈ run.results ++ [result] :=
      mem_append_right _ (mem_singleton_self result)
    refine hsound.leave_reply
      (f := fun invocation => { invocation with results := invocation.results ++ [result] })
      hbusy rfl (subset_append_left _ _) (hreached.complete rfl rfl rfl)
      (.stays (Or.inl rfl) fun _ => Or.inr ?_) ?_ ?_
    · exact append_ne_nil_of_right_ne_nil _ (cons_ne_nil _ _)
    · intro other hreturned
      have hsame : Outcome.returned result = .returned other :=
        some_inj.mp (houtcome.symm.trans hreturned)
      cases hsame
      exact hresult
    · cases hreplay : run.isReplay with
      | true => exact .replayed ⟨_, mem_append_right _ (mem_singleton_self _), hresult⟩ rfl
      | false => exact .first rfl getElem?_concat_length hreplay hresult rfl

theorem Sound.whileRunning {id : ℕ} {act : Invocation N → Slot N}
    (hact : ∀ past run found, Busy environment requestId slot past run found →
      run.outcome = none → id = past.length → Sound environment requestId (act run)) :
    Sound environment requestId (slot.whileRunning id act) := by
  unfold Slot.whileRunning
  split
  · next invocation hinvocation =>
    split_ifs with hrunning
    · rw [Invocation.isRunning, Bool.and_eq_true, decide_eq_true_eq] at hrunning
      obtain ⟨past, found, hbusy, hid⟩ := hsound.told.running hinvocation hrunning.1
      exact hact past invocation found hbusy (isNone_iff_eq_none.mp hrunning.2) hid
    · exact hsound
  · exact hsound

theorem Sound.answerJoin {index id : ℕ}
    {joined : Invocation N} {result : Value N} (hjoin : slot.joins[index]? = some id)
    (hjoined : slot.invocations[id]? = some joined) (hover : joined.fate ≠ .open)
    (houtcome : joined.outcome = some (.returned result)) :
    Sound environment requestId
      (slot.reply (attachMutationReceipt result.json requestId true) none) := by
  obtain ⟨run, hrun, hawaited⟩ := hsound.joins id (mem_of_getElem? hjoin)
  obtain rfl := some_inj.mp (hjoined.symm.trans hrun)
  have hresult := hawaited.resolve_left hover result houtcome
  exact hsound.reply (.replayed ⟨joined, mem_of_getElem? hjoined, hresult⟩ rfl)
    (fun _ hnone => (by cases hnone)) fun _ hnone => (by cases hnone)

/-- No action of the executor breaks its account. -/
theorem Sound.act (action : Action N) :
    Sound environment requestId (slot.act environment requestId action) := by
  cases action with
  | acceptWorker id receipt =>
    refine hsound.whileRunning fun past run found hbusy _ hid => ?_
    rw [hid]
    exact hsound.acceptWorker hbusy receipt
  | noteAccepted id receipt =>
    exact hsound.whileRunning fun past run found hbusy _ _ => hsound.noteReceipt hbusy _ _
  | markWorkerDoneEffectFree id =>
    refine hsound.whileRunning fun past run found hbusy _ _ => ?_
    split_ifs
    · exact hsound
    · exact hsound.noteReceipt hbusy _ _
  | markEffectPossible id =>
    refine hsound.whileRunning fun past run found hbusy houtcome hid => ?_
    split_ifs
    · exact hsound
    · rw [hid]
      exact hsound.step (f := fun invocation => { invocation with effectPossible := true })
        hbusy rfl (List.Subset.refl _) hbusy.running (hbusy.reached.update rfl rfl rfl)
        hbusy.returned
  | recordReceipt id result =>
    refine hsound.whileRunning fun past run found hbusy houtcome hid => ?_
    rw [hid]
    exact hsound.recordReceipt hbusy houtcome result
  | settle id outcome =>
    refine hsound.whileRunning fun past run found hbusy _ hid => ?_
    split_ifs with hmay
    · rw [hid]
      exact hsound.settle hbusy hmay
    · exact hsound
  | conclude id =>
    simp only [Slot.act]
    split
    · next invocation hinvocation =>
      split
      · next outcome hopen houtcome =>
        obtain ⟨past, found, hbusy, rfl⟩ := hsound.told.running hinvocation hopen
        exact hsound.conclude hbusy houtcome
      · exact hsound
    · exact hsound
  | answerJoin index =>
    simp only [Slot.act]
    split
    · next invocation hinvocation =>
      obtain ⟨id, hjoin, hid⟩ := bind_eq_some_iff.mp hinvocation
      split
      · exact hsound
      · next result houtcome hover =>
        exact hsound.answerJoin hjoin hid hover houtcome
      · exact hsound
    · exact hsound

end

/-- A restart comes before the run is over. -/
def Invocation.lose (run : Invocation N) : Invocation N :=
  if run.fate = .open then { run with fate := .lost } else run

theorem restart_invocations : slot.restart.invocations = slot.invocations.map Invocation.lose := rfl

theorem map_lose {runs : List (Invocation N)}
    (hstory : Story environment requestId runs row) : runs.map Invocation.lose = runs := by
  refine (map_congr_left fun run hrun => ?_).trans (map_id runs)
  rw [Invocation.lose, if_neg (hstory.stopped run hrun)]
  rfl

theorem Sound.restart (hsound : Sound environment requestId slot) :
    Sound environment requestId slot.restart := by
  have hgrown : Grown slot.invocations slot.restart.invocations := by
    intro id run hrun
    refine ⟨run.lose, ?_, ?_, ?_, ?_⟩
    · rw [restart_invocations, getElem?_map, hrun]
      rfl
    · unfold Invocation.lose
      split_ifs <;> rfl
    · unfold Invocation.lose
      split_ifs <;> exact List.Subset.refl _
    · intro hover
      rwa [Invocation.lose, if_neg hover]
  refine hsound.update (.idle rfl ?_) hgrown rfl fun id hid => (by cases hid)
  rw [restart_invocations]
  cases hsound.told with
  | idle _ hstory =>
    rw [map_lose hstory]
    exact hstory
  | @busy past run found hbusy =>
    rw [hbusy.invocations, map_append, map_lose hbusy.story, map_singleton,
      Invocation.lose, if_pos hbusy.running]
    exact hbusy.leave (f := fun invocation => invocation) rfl (hbusy.reached.update rfl rfl rfl)
      (.stays (Or.inr (Or.inr rfl)) nofun)

end Acting

section Running

variable {environment requestId} {slot : Slot N} {request : Request N}

def Slot.isStartingWorker (slot : Slot N) : Bool := slot.inFlight.isSome && slot.row.isNone

theorem Sound.launch {launch : Launch N} {row found : Option MutationReceiptRow}
    (hsound : Sound environment requestId slot)
    (hstory : Story environment requestId slot.invocations found)
    (hbegun : Begun environment requestId slot.invocations found launch)
    (hreached : Reached environment requestId slot.invocations launch.begin row) :
    Sound environment requestId ({ slot with row := row }.launch launch) := by
  refine hsound.update (.busy (Busy.of_launch hstory hbegun hreached)) Grown.append rfl
    fun id hid => ?_
  obtain ⟨run, hrun, hawaited⟩ := hsound.joins id hid
  refine ⟨run, ?_, hawaited⟩
  change (slot.invocations ++ _)[id]? = some run
  rw [List.getElem?_append_left (List.getElem?_eq_some_iff.mp hrun).1, hrun]

theorem Sound.start {payloadHash : Text} (hsound : Sound environment requestId slot)
    (hstory : Story environment requestId slot.invocations slot.row) (hrow : slot.row = none) :
    Sound environment requestId
      ((if isAtomicWorkerAcceptance request.method then slot
        else { slot with row := some ⟨request.method, payloadHash, .pending, none⟩ }).launch
          ⟨request.method, request.params, payloadHash, none, none⟩) := by
  rw [hrow] at hstory
  split_ifs with hatomic
  · have hreached : Reached environment requestId slot.invocations (Launch.begin
        ⟨request.method, request.params, payloadHash, none, none⟩) slot.row := by
      rw [hrow]
      exact .of_launch (fun _ => ⟨rfl, rfl, hatomic⟩) nofun nofun nofun nofun
    exact hsound.launch hstory (.started rfl rfl) hreached
  · refine hsound.launch hstory (.started rfl rfl) (.of_launch nofun ?_ ?_ ?_ ?_)
    · exact of_mem_some ⟨rfl, rfl⟩
    · exact of_mem_some (iff_of_false nofun nofun)
    · intro _ _ _
      exact Bool.eq_false_iff.mpr hatomic
    · exact of_mem_some nofun

variable {row : MutationReceiptRow}

section

variable (hsound : Sound environment requestId slot)
  (hstory : Story environment requestId slot.invocations slot.row) (hrow : slot.row = some row)
include hsound hstory hrow

theorem Sound.observe
    (hcompleted : row.state = .completed) (hmethod : row.method = request.method) :
    Sound environment requestId (slot.launch ⟨request.method, request.params, row.payloadHash,
      some (parseReceipt environment row), none⟩) := by
  rw [hrow] at hstory
  have hreached : Reached environment requestId slot.invocations (Launch.begin
      ⟨request.method, request.params, row.payloadHash, some (parseReceipt environment row), none⟩)
      slot.row := by
    rw [hrow]
    refine .of_launch nofun ?_ ?_ nofun ?_
    · exact of_mem_some ⟨hmethod, rfl⟩
    · exact of_mem_some (iff_of_true hcompleted rfl)
    · exact hstory.accounts.receipt
  exact hsound.launch hstory (.observed hcompleted rfl (hstory.parseReceipt hcompleted) rfl
    hmethod rfl) hreached

theorem Sound.resume (hpending : row.state = .pending) (hmethod : row.method = request.method)
    (hway : request.method = "orchestration.workerRelease" ∨
      environment.isResumablePendingWorkerDone request.method request.params row.receipt = true) :
    Sound environment requestId (slot.launch
      ⟨request.method, request.params, row.payloadHash, none, some row⟩) := by
  rw [hrow] at hstory
  have hatomic : isAtomicWorkerAcceptance request.method = false := by
    rcases hway with hrelease | hdone
    · rw [hrelease]
      decide
    · simp only [Environment.isResumablePendingWorkerDone, isWorkerDoneSend, Bool.and_eq_true,
        decide_eq_true_eq] at hdone
      rw [hdone.1.1]
      decide
  have hreached : Reached environment requestId slot.invocations (Launch.begin
      ⟨request.method, request.params, row.payloadHash, none, some row⟩) slot.row := by
    rw [hrow]
    refine .of_launch (by rintro ⟨⟩) ?_ ?_ (fun _ _ _ => hatomic) ?_
    · exact of_mem_some ⟨hmethod, rfl⟩
    · refine of_mem_some ?_
      rw [hpending]
      exact iff_of_false (by rintro ⟨⟩) (by rintro ⟨⟩)
    · exact of_mem_some fun hcompleted => by cases hpending.symm.trans hcompleted
  exact hsound.launch hstory (.resumed hpending rfl rfl hmethod hway) hreached

end

theorem Sound.join (hsound : Sound environment requestId slot) {past : List (Invocation N)}
    {run : Invocation N} {found : Option MutationReceiptRow}
    (hbusy : Busy environment requestId slot past run found) :
    Sound environment requestId { slot with joins := slot.joins ++ [past.length] } := by
  refine hsound.update (.busy ⟨hbusy.invocations, hbusy.inFlight, hbusy.running, hbusy.story,
    hbusy.begun, hbusy.reached, hbusy.returned⟩) Grown.refl rfl fun id hid => ?_
  rcases mem_append.mp hid with hid | hid
  · exact hsound.joins id hid
  · rw [mem_singleton.mp hid]
    refine ⟨run, ?_, Or.inl hbusy.running⟩
    change slot.invocations[past.length]? = some run
    rw [hbusy.invocations, getElem?_concat_length]

theorem answer_of_row {receipt : Json N} {leader : Option ℕ}
    (hstory : Story environment requestId slot.invocations (some row))
    (hcompleted : row.state = .completed) (hreceipt : receipt = parseReceipt environment row ∨
      receipt = markReplayedPromptIncarnationReplaced (parseReceipt environment row)) :
    Answer requestId slot.invocations
      ⟨attachMutationReceipt receipt requestId true, leader⟩ := by
  obtain ⟨value, replayed, hproduced, hparsed⟩ := hstory.parseReceipt hcompleted
  rcases hreceipt with rfl | rfl
  · refine .replayed hproduced ?_
    rw [hparsed, attach_attach]
  · rw [hparsed]
    exact .replaced hproduced rfl

theorem Sound.run (hsound : Sound environment requestId slot)
    (hstarting : slot.isStartingWorker = true → isAtomicWorkerAcceptance request.method = true) :
    Sound environment requestId (slot.run environment request requestId) := by
  unfold Slot.run
  cases htold : hsound.told with
  | busy hbusy =>
    have hrow : slot.row = none → isAtomicWorkerAcceptance request.method = true := by
      intro hrow
      apply hstarting
      rw [Slot.isStartingWorker, hbusy.inFlight, hrow]
      rfl
    rcases decide_of_inFlight hbusy.inFlight hrow with ⟨code, hrefused⟩ | hjoined
    · rw [hrefused]
      exact hsound
    · rw [hjoined]
      exact hsound.join hbusy
  | idle hinFlight hstory =>
    have hdecided := @decided N environment requestId slot request
    generalize slot.decide environment request requestId = decision at hdecided
    cases hdecided with
    | refused => exact hsound
    | joined hactive =>
      rw [hinFlight] at hactive
      cases hactive
    | answered hrow _ hcompleted hreceipt =>
      rw [hrow] at hstory
      exact hsound.reply (answer_of_row hstory hcompleted hreceipt)
        (fun _ hnone => (by cases hnone)) fun _ hnone => (by cases hnone)
    | observed hrow _ hcompleted hmethod => exact hsound.observe hstory hrow hcompleted hmethod
    | resumed hrow _ hpending hmethod hway =>
      exact hsound.resume hstory hrow hpending hmethod hway
    | started hrow => exact hsound.start hstory hrow

end Running

section Once

variable {environment requestId} {slot : Slot N}

section

variable (htold : Told environment requestId slot)
include htold

theorem Told.begun : ∀ before run after, slot.invocations = before ++ run :: after → ∃ found,
      Story environment requestId before found ∧
        Begun environment requestId before found run.toLaunch := by
  cases htold with
  | idle _ hstory => exact hstory.begun
  | @busy past run found hbusy =>
    intro before other after hsplit
    rw [hbusy.invocations] at hsplit
    rcases split_concat hsplit with ⟨-, rfl, rfl⟩ | ⟨rest, -, hrest⟩
    · exact ⟨found, hbusy.story, hbusy.begun⟩
    · exact hbusy.story.begun before other rest hrest

theorem Told.followed : ∀ before run middle later rest,
      slot.invocations = before ++ run :: (middle ++ later :: rest) →
      run.isObservation = false → later.isObservation = false →
      Spent (middle ++ [later]) run := by
  cases htold with
  | idle _ hstory => exact hstory.accounts.followed
  | busy hbusy =>
    rw [hbusy.invocations]
    exact hbusy.story.accounts.followed_concat hbusy.begun

/-- What a run of the body gave out, it or an observation of it says. -/
theorem Told.effective : ∀ (length : ℕ) before run after, before.length = length →
      slot.invocations = before ++ run :: after → run.results ≠ [] →
      ∃ first ∈ slot.invocations, first.isObservation = false ∧ first.results ≠ [] := by
  intro length
  induction length using Nat.strong_induction_on with
  | _ length ih =>
    intro before run after hlength hsplit hresults
    have hrun : run ∈ slot.invocations := by
      rw [hsplit]
      exact mem_append_right _ mem_cons_self
    cases hobserves : run.isObservation with
    | false => exact ⟨run, hrun, hobserves, hresults⟩
    | true =>
      -- What it replays was given out by a run before it.
      obtain ⟨receipt, hreplayed⟩ := isSome_iff_exists.mp hobserves
      obtain ⟨found, -, hbegun⟩ := htold.begun before run after hsplit
      obtain ⟨value, -, ⟨earlier, hearlier, hvalue⟩, -⟩ := hbegun.replays hreplayed
      obtain ⟨front, back, rfl⟩ := append_of_mem hearlier
      refine ih front.length ?_ front earlier (back ++ run :: after) rfl ?_ (ne_nil_of_mem hvalue)
      · rw [← hlength, length_append, length_cons]
        omega
      · rw [hsplit, append_assoc, cons_append]

end

/-- What one caller and request id may get of the executor. -/
structure AtMostOnce (requestId : Text) (environment : Environment N) (slot : Slot N) : Prop where
  /-- A run of the body follows another one only after that one was spent. -/
  again : ∀ before run middle later rest,
    slot.invocations = before ++ run :: (middle ++ later :: rest) →
    run.isObservation = false → later.isObservation = false → Spent (middle ++ [later]) run
  /-- Only these take up a row that is pending. -/
  resumed : ∀ run ∈ slot.invocations, ∀ row ∈ run.foundPending, row.state = .pending ∧
    row.method = run.method ∧ (run.method = "orchestration.workerRelease" ∨
      environment.isResumablePendingWorkerDone run.method run.params row.receipt = true)
  /-- An observation carries the receipt of a run before it. -/
  observed : ∀ before run after, slot.invocations = before ++ run :: after →
    ∀ receipt ∈ run.replayedReceipt, IsReceipt requestId before receipt
  /-- A call is given what the one effective run, or an observation of it, gave out. -/
  answered : ∀ reply ∈ slot.replies, ∃ first ∈ slot.invocations,
    first.isObservation = false ∧ first.results ≠ [] ∧
    ∃ run ∈ slot.invocations, (run = first ∨ run.isObservation = true) ∧
    ∃ result ∈ run.results, reply.value = attachMutationReceipt result.json requestId true ∨
      (run = first ∧ (∃ id, reply.leader = some id ∧ slot.invocations[id]? = some first) ∧
        reply.value = attachMutationReceipt result.json requestId false) ∨
      ∃ replayed, reply.value = attachMutationReceipt (markReplayedPromptIncarnationReplaced
        (attachMutationReceipt result.json requestId replayed)) requestId true
  /-- A receipt that does not say it was replayed goes to the call that made the effective run. -/
  unmarked : ∀ reply ∈ slot.replies, isMarkedReplayed reply.value = false → ∃ id run,
    reply.leader = some id ∧ slot.invocations[id]? = some run ∧ run.isObservation = false ∧
      run.results ≠ []
  /-- No two calls are given such a receipt. -/
  marked : ∀ (i j : ℕ) (first second : Reply N), slot.replies[i]? = some first →
    slot.replies[j]? = some second → isMarkedReplayed first.value = false →
      isMarkedReplayed second.value = false → i = j

theorem exists_split {α : Type} {items : List α} {i j : ℕ} {first second : α} (hlt : i < j)
    (hfirst : items[i]? = some first) (hsecond : items[j]? = some second) :
    ∃ before middle rest, items = before ++ first :: (middle ++ second :: rest) := by
  obtain ⟨hi, hget⟩ := List.getElem?_eq_some_iff.mp hfirst
  have hmem : second ∈ items.drop (i + 1) := by
    refine List.mem_iff_getElem?.mpr ⟨j - (i + 1), ?_⟩
    rw [getElem?_drop, ← hsecond]
    congr 1
    omega
  obtain ⟨middle, rest, hrest⟩ := append_of_mem hmem
  refine ⟨items.take i, middle, rest, ?_⟩
  rw [← hrest, ← hget, ← drop_eq_getElem_cons hi, take_append_drop]

theorem Told.effective_unique (htold : Told environment requestId slot) {i j : ℕ}
    {first second : Invocation N} (hfirst : slot.invocations[i]? = some first)
    (hsecond : slot.invocations[j]? = some second) (hfirstRuns : first.isObservation = false)
    (hsecondRuns : second.isObservation = false) (hfirstResults : first.results ≠ [])
    (hsecondResults : second.results ≠ []) : i = j := by
  rcases Nat.lt_trichotomy i j with hlt | heq | hgt
  · obtain ⟨before, middle, rest, hsplit⟩ := exists_split hlt hfirst hsecond
    exact absurd (htold.followed _ _ _ _ _ hsplit hfirstRuns hsecondRuns).noResult hfirstResults
  · exact heq
  · obtain ⟨before, middle, rest, hsplit⟩ := exists_split hgt hsecond hfirst
    exact absurd (htold.followed _ _ _ _ _ hsplit hsecondRuns hfirstRuns).noResult hsecondResults

theorem isObservation_of_not_replay {run : Invocation N} (hruns : run.isReplay = false) :
    run.isObservation = false :=
  (Bool.or_eq_false_iff.mp hruns).1

theorem Answer.unmarked {runs : List (Invocation N)} {reply : Reply N}
    (hanswer : Answer requestId runs reply) (hmarked : isMarkedReplayed reply.value = false) :
    ∃ id run, reply.leader = some id ∧ runs[id]? = some run ∧ run.isObservation = false ∧
      run.results ≠ [] := by
  cases hanswer with
  | replayed _ hvalue | replaced _ hvalue =>
    rw [hvalue, isMarkedReplayed_attach] at hmarked
    cases hmarked
  | first hleader hrun hruns hresult =>
    exact ⟨_, _, hleader, hrun, isObservation_of_not_replay hruns, ne_nil_of_mem hresult⟩

theorem Sound.answered (hsound : Sound environment requestId slot) {result : Value N}
    (hproduced : Produced slot.invocations result) :
    ∃ first ∈ slot.invocations, first.isObservation = false ∧ first.results ≠ [] ∧
      ∃ run ∈ slot.invocations, (run = first ∨ run.isObservation = true) ∧
        result ∈ run.results := by
  obtain ⟨run, hrun, hresult⟩ := hproduced
  cases hobserves : run.isObservation with
  | false =>
    exact ⟨run, hrun, hobserves, ne_nil_of_mem hresult, run, hrun, Or.inl rfl, hresult⟩
  | true =>
    obtain ⟨before, after, hsplit⟩ := append_of_mem hrun
    obtain ⟨first, hfirst, hruns, hresults⟩ :=
      hsound.told.effective _ before run after rfl hsplit (ne_nil_of_mem hresult)
    exact ⟨first, hfirst, hruns, hresults, run, hrun, Or.inr hobserves, hresult⟩

/-- What the account says of effects. -/
theorem Sound.atMostOnce (hsound : Sound environment requestId slot) :
    AtMostOnce requestId environment slot where
  again := hsound.told.followed
  resumed := by
    intro run hrun row hrow
    obtain ⟨before, after, hsplit⟩ := append_of_mem hrun
    obtain ⟨found, -, hbegun⟩ := hsound.told.begun before run after hsplit
    generalize hlaunch : run.toLaunch = launch at hbegun hrow ⊢
    cases hbegun with
    | started _ hfound | observed _ _ _ hfound =>
      rw [hfound] at hrow
      cases hrow
    | resumed hpending _ hfound hmethod hway =>
      rw [hfound] at hrow
      obtain rfl := mem_some.mp hrow
      exact ⟨hpending, hmethod, hway⟩
  observed := by
    intro before run after hsplit receipt hreceipt
    obtain ⟨found, -, hbegun⟩ := hsound.told.begun before run after hsplit
    exact hbegun.replays hreceipt
  answered := by
    intro reply hreply
    cases hsound.replies reply hreply with
    | replayed hproduced hvalue =>
      obtain ⟨first, hfirst, hruns, hresults, run, hrun, hof, hresult⟩ := hsound.answered hproduced
      exact ⟨first, hfirst, hruns, hresults, run, hrun, hof, _, hresult, Or.inl hvalue⟩
    | replaced hproduced hvalue =>
      obtain ⟨first, hfirst, hruns, hresults, run, hrun, hof, hresult⟩ := hsound.answered hproduced
      exact ⟨first, hfirst, hruns, hresults, run, hrun, hof, _, hresult,
        Or.inr (Or.inr ⟨_, hvalue⟩)⟩
    | first hleader hrun hruns hresult hvalue =>
      have hmem := mem_of_getElem? hrun
      exact ⟨_, hmem, isObservation_of_not_replay hruns, ne_nil_of_mem hresult, _, hmem,
        Or.inl rfl, _, hresult, Or.inr (Or.inl ⟨rfl, ⟨_, hleader, hrun⟩, hvalue⟩)⟩
  unmarked := fun reply hreply => (hsound.replies reply hreply).unmarked
  marked := by
    intro i j first second hfirst hsecond hfirstMarked hsecondMarked
    obtain ⟨id, run, hleader, hrun, hruns, hresults⟩ :=
      (hsound.replies first (mem_of_getElem? hfirst)).unmarked hfirstMarked
    obtain ⟨id', run', hleader', hrun', hruns', hresults'⟩ :=
      (hsound.replies second (mem_of_getElem? hsecond)).unmarked hsecondMarked
    obtain rfl := hsound.told.effective_unique hrun hrun' hruns hruns' hresults hresults'
    by_contra hne
    have hpairwise := pairwise_filterMap.mp hsound.leaders
    have hdistinct : ∀ {i j : ℕ} {first second : Reply N}, slot.replies[i]? = some first →
        slot.replies[j]? = some second → first.leader = some id → second.leader = some id →
        ¬i < j := by
      intro i j first second hi hj hfirst hsecond hlt
      obtain ⟨before, middle, rest, hsplit⟩ := exists_split hlt hi hj
      rw [hsplit] at hpairwise
      have hlast := (pairwise_cons.mp (pairwise_append.mp hpairwise).2.1).1 second
        (mem_append_right _ mem_cons_self)
      exact hlast id hfirst id hsecond rfl
    rcases Nat.lt_or_gt_of_ne hne with hlt | hgt
    · exact hdistinct hfirst hsecond hleader hleader' hlt
    · exact hdistinct hsecond hfirst hleader' hleader hgt

end Once

section Executors

variable (environment : Environment N)

/-- No request of another kind meets a worker start that has no row yet. -/
def Executor.isApart (executor : Executor N) : Event N → Prop
  | .run request => ∀ key ∈ request.key?, (executor key).isStartingWorker = true →
      isAtomicWorkerAcceptance request.method = true
  | _ => True

/-- So at every step of a run. -/
def Executor.areApart (executor : Executor N) : List (Event N) → Prop
  | [] => True
  | event :: rest =>
    executor.isApart event ∧ Executor.areApart (executor.step environment event) rest

variable {environment} {executor : Executor N}

section

variable (hsound : ∀ key : Key, Sound environment key.2 (executor key))
include hsound

theorem sound_update {key : Key} {slot : Slot N} (hslot : Sound environment key.2 slot) :
    ∀ other : Key, Sound environment other.2 (Function.update executor key slot other) := by
  intro other
  rcases eq_or_ne other key with rfl | hne
  · rw [Function.update_self]
    exact hslot
  · rw [Function.update_of_ne hne]
    exact hsound other

theorem sound_step {event : Event N} (hapart : executor.isApart event) :
    ∀ key : Key, Sound environment key.2 (executor.step environment event key) := by
  cases event with
  | run request =>
    cases hkey : request.key? with
    | none =>
      simp only [Executor.step, hkey]
      exact hsound
    | some key =>
      simp only [Executor.step, hkey]
      exact sound_update hsound ((hsound key).run (hapart key hkey))
  | act key action => exact sound_update hsound ((hsound key).act action)
  | restart => exact fun key => (hsound key).restart

theorem sound_runEvents {events : List (Event N)} (hapart : executor.areApart environment events) :
    ∀ key : Key, Sound environment key.2 (executor.runEvents environment events key) := by
  induction events generalizing executor with
  | nil => exact hsound
  | cons event rest ih => exact ih (sound_step hsound hapart.1) hapart.2

end

theorem sound_newExecutor (key : Key) : Sound environment key.2 (newExecutor N key) where
  told := .idle rfl .nil
  joins _ hid := by cases hid
  replies _ hreply := by cases hreply
  stopped _ hreply := by cases hreply
  leaders := nodup_nil

/-- A durable request takes effect at most once, in every run of the executor. -/
theorem takes_effect_at_most_once (environment : Environment N) (events : List (Event N))
    (hapart : (newExecutor N).areApart environment events) (key : Key) :
    AtMostOnce key.2 environment ((newExecutor N).runEvents environment events key) :=
  (sound_runEvents sound_newExecutor hapart key).atMostOnce

def sampleEnvironment (digest : String) : Environment ℕ :=
  ⟨Json.decimalFormat, fun value => 0 < value, fun _ => Text.ofString digest⟩

def sampleRequest (method : String) : Request ℕ :=
  ⟨Text.ofString "ca11", some (Text.ofString "request-1"), method, .object [], none,
    fun _ => none, fun _ => none⟩

def sampleKey : Key := (Text.ofString "ca11", Text.ofString "request-1")

def workerStartDigest : String :=
  "6c9d6855048aac6dba3d6d6525879edbbab963525bf197a116e30f0a6f887b44"

def workerReleaseDigest : String :=
  "ff45412bd88cc6734d58b158630cdf585d16b4d95d1359ccbe6ef7dc8a8eef83"

def sampleRuns (digest : String) (events : List (Event ℕ)) : List (Bool × Fate × Bool) :=
  (((newExecutor ℕ).runEvents (sampleEnvironment digest) events sampleKey).invocations.filter
    (!·.isObservation)).map fun run => (run.isRunning, run.fate, run.isResumed)

/-- Another request runs beside a worker start that has no row; a worker start without a
row runs again after a restart; a release that may have been accepted runs again. -/
theorem body_runs_again : sampleRuns workerStartDigest
        [.run (sampleRequest "orchestration.workerStart"),
          .run (sampleRequest "orchestration.runCreate")] =
      [(true, .open, false), (true, .open, false)] ∧
    sampleRuns workerStartDigest
        [.run (sampleRequest "orchestration.workerStart"), .restart,
          .run (sampleRequest "orchestration.workerStart")] =
      [(false, .lost, false), (true, .open, false)] ∧
    sampleRuns workerReleaseDigest
        [.run (sampleRequest "orchestration.workerRelease"),
          .act sampleKey (.settle 0 (.threw .operationUnknown)), .act sampleKey (.conclude 0),
          .run (sampleRequest "orchestration.workerRelease")] =
      [(false, .kept, false), (true, .open, true)] := by
  refine ⟨?_, ?_, ?_⟩ <;> decide

theorem takes_effect_at_most_once_sample :
    AtMostOnce sampleKey.2 (sampleEnvironment workerStartDigest)
      ((newExecutor ℕ).runEvents (sampleEnvironment workerStartDigest)
        [.run (sampleRequest "orchestration.workerStart"), .restart,
          .run (sampleRequest "orchestration.workerStart"),
          .act sampleKey (.acceptWorker 1 ⟨.object [], rfl⟩),
          .act sampleKey (.settle 1 (.returned ⟨.object [], rfl⟩)),
          .act sampleKey (.conclude 1), .run (sampleRequest "orchestration.workerStart")]
        sampleKey) := by
  refine takes_effect_at_most_once _ _ ?_ _
  have hatomic : isAtomicWorkerAcceptance "orchestration.workerStart" = true := by decide
  exact ⟨fun _ _ _ => hatomic, trivial, fun _ _ _ => hatomic, trivial, trivial, trivial,
    fun _ _ _ => hatomic, trivial⟩

end Executors

end Wakii.Mutations
