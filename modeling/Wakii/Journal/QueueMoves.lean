import Wakii.Journal.HandOffs
import Wakii.Library.Splice

/-!
# Moves of queued messages

A move hands the positions of the unsettled cards out anew: the moved card goes
next to its anchor and the others keep their order.  Settled cards keep theirs.
-/

namespace Wakii.QueueMoves

open Wakii.JournalRows Wakii.Reducer Wakii.HandOffs Splice

variable {P : Type}

/-- Only waiting and returned cards can be moved. -/
def isUnsettledQueuedMessage (row : QueuedMessageRow P) : Bool :=
  row.state = .waiting || row.state = .returned

inductive AgentSessionQueuedMessageMoveAnchor where
  | before (messageId : Option String)
  | after (messageId : String)
deriving DecidableEq

/-- `input.afterMessageId ?? input.beforeMessageId` -/
def AgentSessionQueuedMessageMoveAnchor.messageId :
    AgentSessionQueuedMessageMoveAnchor → Option String
  | .before messageId => messageId
  | .after messageId => some messageId

def AgentSessionQueuedMessageMoveAnchor.offset : AgentSessionQueuedMessageMoveAnchor → ℕ
  | .before _ => 0
  | .after _ => 1

inductive AgentSessionQueuedMessageMoveStatus where
  | moved | unchanged | gone | stale
deriving DecidableEq

structure JournalQueueCardChange (P : Type) where
  messageId : String
  change : JournalQueueChange P
deriving DecidableEq

structure QueuedMessageMovePlan (P : Type) where
  changes : List (JournalQueueCardChange P)
  messageId : String
  status : AgentSessionQueuedMessageMoveStatus
deriving DecidableEq

def movedChanges (rest unsettled : List (QueuedMessageRow P)) : List (JournalQueueCardChange P) :=
  (rest.zip unsettled).flatMap fun (card, slot) =>
    if slot.position = card.position then []
    else [{ messageId := card.messageId, change := .moved slot.position }]

/-- The index of the anchor among the other cards, or their end. -/
def neighborIndex (rest : List (QueuedMessageRow P)) : Option String → Option ℕ
  | none => some rest.length
  | some anchor => rest.findIdx? fun card => card.messageId = anchor

def queuedMessageMovePlan (cards : List (QueuedMessageRow P)) (messageId : String)
    (input : AgentSessionQueuedMessageMoveAnchor) : QueuedMessageMovePlan P :=
  let unsettled := cards.filter isUnsettledQueuedMessage
  let answer (status : AgentSessionQueuedMessageMoveStatus) : QueuedMessageMovePlan P :=
    { changes := [], messageId, status }
  match unsettled.find? fun card => card.messageId = messageId with
  | none => answer .gone
  | some moving =>
    if input.messageId = some moving.messageId then answer .unchanged
    else
      let rest := unsettled.eraseP fun card => card.messageId = messageId
      match neighborIndex rest input.messageId with
      | none => answer .stale
      | some neighbor =>
        let order := spliceAt rest (neighbor + input.offset) moving
        let changes := movedChanges order unsettled
        { changes, messageId, status := if changes.isEmpty then .unchanged else .moved }

def applyChanges (runtime : JournalRuntime P) (state : JournalReducerState P)
    (changes : List (JournalQueueCardChange P)) : JournalReducerState P :=
  changes.foldl (fun state change => applyQueueRow runtime state change.messageId change.change)
    state

def cardList (state : JournalReducerState P) (cards : List (QueuedMessageRow P)) :
    List (QueuedMessageRow P) :=
  sortBy QueuedMessageRow.position
    (cards.filterMap fun card => state.queue.cards.lookup card.messageId)

def queueOrder (cards : List (QueuedMessageRow P)) : List String :=
  (cards.filter isUnsettledQueuedMessage).map (·.messageId)

/-! ## Folding the changes -/

def moveCard (card : QueuedMessageRow P) (change : JournalQueueCardChange P) : QueuedMessageRow P :=
  match change.change with
  | .moved position =>
    if change.messageId = card.messageId then { card with position := position } else card
  | _ => card

variable {messageId : String}

theorem moveCard_self {card : QueuedMessageRow P} (hsame : messageId = card.messageId)
    (position : ℤ) :
    moveCard card ⟨messageId, .moved position⟩ = { card with position := position } :=
  if_pos hsame

variable {change : JournalQueueCardChange P}

theorem moveCard_ne {card : QueuedMessageRow P} (hne : change.messageId ≠ card.messageId) :
    moveCard card change = card := by
  rw [moveCard]
  split
  · exact if_neg hne
  · rfl

def moveCards (changes : List (JournalQueueCardChange P)) (card : QueuedMessageRow P) :
    QueuedMessageRow P :=
  changes.foldl moveCard card

def Holds (state : JournalReducerState P) (cards : List (QueuedMessageRow P)) : Prop :=
  ∀ card ∈ cards, state.queue.cards.lookup card.messageId = some card

variable (runtime : JournalRuntime P) (changes : List (JournalQueueCardChange P))

theorem exists_moveCards (card : QueuedMessageRow P) :
    ∃ position, moveCards changes card = { card with position := position } := by
  induction changes generalizing card with
  | nil => exact ⟨card.position, rfl⟩
  | cons change changes ih =>
    have hone : ∃ position, moveCard card change = { card with position := position } := by
      rw [moveCard]
      split
      · split_ifs
        · exact ⟨_, rfl⟩
        · exact ⟨card.position, rfl⟩
      · exact ⟨card.position, rfl⟩
    obtain ⟨position, hposition⟩ := hone
    obtain ⟨last, hlast⟩ := ih (moveCard card change)
    exact ⟨last, hlast.trans (by rw [hposition])⟩

@[simp]
theorem messageId_moveCards
    (card : QueuedMessageRow P) : (moveCards changes card).messageId = card.messageId := by
  obtain ⟨position, hposition⟩ := exists_moveCards changes card
  rw [hposition]

@[simp]
theorem isUnsettled_moveCards (card : QueuedMessageRow P) :
    isUnsettledQueuedMessage (moveCards changes card) = isUnsettledQueuedMessage card := by
  obtain ⟨position, hposition⟩ := exists_moveCards changes card
  rw [hposition]
  rfl

theorem moveCards_of_not_mem {changes : List (JournalQueueCardChange P)}
    {card : QueuedMessageRow P} (hnew : card.messageId ∉ changes.map (·.messageId)) :
    moveCards changes card = card := by
  induction changes with
  | nil => rfl
  | cons change changes ih =>
    rw [List.map_cons, List.mem_cons, not_or] at hnew
    calc
      moveCards (change :: changes) card = moveCards changes (moveCard card change) := rfl
      _ = card := by rw [moveCard_ne (Ne.symm hnew.1), ih hnew.2]

variable {state : JournalReducerState P} {cards : List (QueuedMessageRow P)}

theorem holds_applyChange (hheld : Holds state cards) (messageId : String) (position : ℤ)
    (hmem : messageId ∈ cards.map (·.messageId)) :
    Holds (applyQueueRow runtime state messageId (.moved position))
      (cards.map (moveCard · ⟨messageId, .moved position⟩)) := by
  obtain ⟨moved, hmoved, rfl⟩ := List.mem_map.mp hmem
  have happly : applyQueueRow runtime state moved.messageId (.moved position) =
      setCard state { moved with position := position } := by
    simp only [applyQueueRow, hheld moved hmoved]
  intro card hcard
  obtain ⟨prior, hprior, rfl⟩ := List.mem_map.mp hcard
  rw [happly]
  by_cases hsame : moved.messageId = prior.messageId
  · have heq : moved = prior := by
      have hlookup := hheld moved hmoved
      rw [hsame, hheld prior hprior] at hlookup
      exact (Option.some.inj hlookup).symm
    rw [moveCard_self hsame position, heq]
    exact lookup_setCard_self state { prior with position := position }
  · have hother := lookup_setCard_ne state { moved with position := position } (Ne.symm hsame)
    rw [moveCard_ne hsame]
    exact hother.trans (hheld prior hprior)

def MovesOf (cards : List (QueuedMessageRow P)) (changes : List (JournalQueueCardChange P)) :
    Prop :=
  ∀ change ∈ changes, change.messageId ∈ cards.map (·.messageId) ∧
    ∃ position, change.change = .moved position

theorem holds_applyChanges (hheld : Holds state cards) (hmoves : MovesOf cards changes) :
    Holds (applyChanges runtime state changes) (cards.map (moveCards changes)) := by
  induction changes generalizing state cards with
  | nil =>
    have hsame : cards.map (moveCards []) = cards := List.map_id' cards
    rw [hsame]
    exact hheld
  | cons change changes ih =>
    obtain ⟨hmem, position, hposition⟩ := hmoves change List.mem_cons_self
    have hnext := holds_applyChange runtime hheld change.messageId position hmem
    rw [← hposition] at hnext
    have hids : (cards.map (moveCard · change)).map (·.messageId) = cards.map (·.messageId) := by
      rw [List.map_map]
      exact List.map_congr_left fun card _ => messageId_moveCards [change] card
    have hrest := ih hnext fun other hother => by
      rw [hids]
      exact hmoves other (List.mem_cons_of_mem _ hother)
    rw [List.map_map] at hrest
    exact hrest

variable {state : JournalReducerState P} {cards later : List (QueuedMessageRow P)}

theorem filterMap_lookup (hheld : Holds state later)
    (hids : later.map (·.messageId) = cards.map (·.messageId)) :
    (cards.filterMap fun card => state.queue.cards.lookup card.messageId) = later := by
  calc
    (cards.filterMap fun card => state.queue.cards.lookup card.messageId) =
        (cards.map (·.messageId)).filterMap fun id => state.queue.cards.lookup id := by
      rw [List.filterMap_map]
      rfl
    _ = later.filterMap fun card => state.queue.cards.lookup card.messageId := by
      rw [← hids, List.filterMap_map]
      rfl
    _ = later.filterMap some := List.filterMap_congr hheld
    _ = later := List.filterMap_some

/-! ## Slots -/

def inSlot (card slot : QueuedMessageRow P) : QueuedMessageRow P :=
  { card with position := slot.position }

variable {order slots : List (QueuedMessageRow P)}

theorem mem_movedChanges (hchange : change ∈ movedChanges order slots) :
    change.messageId ∈ order.map (·.messageId) ∧ ∃ position, change.change = .moved position := by
  obtain ⟨⟨card, slot⟩, hpair, hin⟩ := List.mem_flatMap.mp hchange
  dsimp only at hin
  split_ifs at hin with hsame
  · exact absurd hin List.not_mem_nil
  · rw [List.mem_singleton] at hin
    subst hin
    exact ⟨List.mem_map_of_mem (List.of_mem_zip hpair).1, slot.position, rfl⟩

/-- Moved by the changes, each card of the new order has the position of its slot. -/
theorem map_moveCards_movedChanges
    (hnodup : (order.map (·.messageId)).Nodup) (hlength : order.length = slots.length) :
    order.map (moveCards (movedChanges order slots)) = List.zipWith inSlot order slots := by
  induction order generalizing slots with
  | nil => rfl
  | cons card order ih =>
    cases slots with
    | nil => exact absurd hlength (Nat.succ_ne_zero _)
    | cons slot slots =>
      rw [List.map_cons, List.nodup_cons] at hnodup
      have hrest := ih hnodup.2 (Nat.succ.inj hlength)
      have hlater : card.messageId ∉ (movedChanges order slots).map (·.messageId) := fun hmem => by
        obtain ⟨change, hchange, hid⟩ := List.mem_map.mp hmem
        exact hnodup.1 (hid ▸ (mem_movedChanges hchange).1)
      by_cases hsame : slot.position = card.position
      · have hchanges : movedChanges (card :: order) (slot :: slots) =
            movedChanges order slots := by
          rw [movedChanges, List.zip_cons_cons, List.flatMap_cons]
          exact congrArg (· ++ _) (if_pos hsame)
        rw [hchanges, List.map_cons, hrest, moveCards_of_not_mem hlater, List.zipWith_cons_cons,
          inSlot, hsame]
      · have hchanges : movedChanges (card :: order) (slot :: slots) =
            ⟨card.messageId, .moved slot.position⟩ :: movedChanges order slots := by
          rw [movedChanges, List.zip_cons_cons, List.flatMap_cons]
          exact congrArg (· ++ _) (if_neg hsame)
        have hhead : moveCards (movedChanges (card :: order) (slot :: slots)) card =
            inSlot card slot := by
          rw [hchanges]
          calc
            moveCards (⟨card.messageId, .moved slot.position⟩ :: movedChanges order slots) card =
                moveCards (movedChanges order slots)
                  (moveCard card ⟨card.messageId, .moved slot.position⟩) := rfl
            _ = moveCards (movedChanges order slots) (inSlot card slot) := by
              rw [moveCard_self rfl, inSlot]
            _ = inSlot card slot := moveCards_of_not_mem hlater
        have htail : order.map (moveCards (movedChanges (card :: order) (slot :: slots))) =
            order.map (moveCards (movedChanges order slots)) := by
          refine List.map_congr_left fun other hother => ?_
          have hne : card.messageId ≠ other.messageId := fun heq =>
            hnodup.1 (heq ▸ List.mem_map_of_mem hother)
          rw [hchanges]
          calc
            moveCards (⟨card.messageId, .moved slot.position⟩ :: movedChanges order slots) other =
                moveCards (movedChanges order slots)
                  (moveCard other ⟨card.messageId, .moved slot.position⟩) := rfl
            _ = moveCards (movedChanges order slots) other := by rw [moveCard_ne hne]
        rw [List.map_cons, hhead, htail, hrest, List.zipWith_cons_cons]

/-! ## The plan -/

def neighborOf (ids : List String) : Option String → Option ℕ
  | none => some ids.length
  | some anchor => ids.findIdx? (· = anchor)

theorem neighborIndex_eq (rest : List (QueuedMessageRow P)) (anchor : Option String) :
    neighborIndex rest anchor = neighborOf (rest.map (·.messageId)) anchor := by
  cases anchor with
  | none => exact congrArg some (List.length_map _).symm
  | some anchor =>
    rw [neighborIndex, neighborOf, List.findIdx?_map]
    rfl

def NextTo (order : List String) (messageId : String) : AgentSessionQueuedMessageMoveAnchor → Prop
  | .before none => [messageId] <:+ order
  | .before (some anchor) => [messageId, anchor] <:+: order
  | .after anchor => [anchor, messageId] <:+: order

instance (order : List String) (messageId : String)
    (input : AgentSessionQueuedMessageMoveAnchor) : Decidable (NextTo order messageId input) :=
  match input with
  | .before none => inferInstanceAs (Decidable ([messageId] <:+ order))
  | .before (some anchor) => inferInstanceAs (Decidable ([messageId, anchor] <:+: order))
  | .after anchor => inferInstanceAs (Decidable ([anchor, messageId] <:+: order))

variable {input : AgentSessionQueuedMessageMoveAnchor} {neighbor : ℕ}

theorem nextTo_spliceAt {ids : List String}
    (hneighbor : neighborOf ids input.messageId = some neighbor) :
    NextTo (spliceAt ids (neighbor + input.offset) messageId) messageId input := by
  have hfound {anchor : String} (hanchor : ids.findIdx? (· = anchor) = some neighbor) :
      ∃ done later, ids = done ++ anchor :: later ∧ done.length = neighbor := by
    obtain ⟨hlt, hat, -⟩ := List.findIdx?_eq_some_iff_getElem.mp hanchor
    refine ⟨ids.take neighbor, ids.drop (neighbor + 1), ?_, List.length_take_of_le hlt.le⟩
    rw [← of_decide_eq_true hat, List.getElem_cons_drop, List.take_append_drop]
  cases input with
  | before anchor =>
    cases anchor with
    | none =>
      have hlast : ids.length = neighbor := Option.some.inj hneighbor
      refine ⟨ids, ?_⟩
      have hsplice := spliceAt_append ids [] messageId
      rw [List.append_nil, hlast] at hsplice
      exact hsplice.symm
    | some anchor =>
      obtain ⟨done, later, rfl, rfl⟩ := hfound hneighbor
      refine ⟨done, later, ?_⟩
      rw [AgentSessionQueuedMessageMoveAnchor.offset, Nat.add_zero, spliceAt_append,
        List.append_assoc]
      rfl
  | after anchor =>
    obtain ⟨done, later, rfl, rfl⟩ := hfound hneighbor
    refine ⟨done, later, ?_⟩
    have hsplice := spliceAt_append (done ++ [anchor]) later messageId
    rw [List.append_assoc, List.append_assoc, List.length_append] at hsplice
    rw [List.append_assoc]
    exact hsplice.symm

/-- A plan that puts the message at an index among the others. -/
structure Replaced (cards : List (QueuedMessageRow P)) (messageId : String)
    (input : AgentSessionQueuedMessageMoveAnchor) (neighbor : ℕ)
    (order : List (QueuedMessageRow P)) : Prop where
  found : neighborOf ((queueOrder cards).filter (· ≠ messageId)) input.messageId = some neighbor
  perm : order.Perm (cards.filter isUnsettledQueuedMessage)
  ids : order.map (·.messageId) =
    spliceAt ((queueOrder cards).filter (· ≠ messageId)) (neighbor + input.offset) messageId
  plan : queuedMessageMovePlan cards messageId input =
    { changes := movedChanges order (cards.filter isUnsettledQueuedMessage)
      messageId
      status := if (movedChanges order (cards.filter isUnsettledQueuedMessage)).isEmpty
        then .unchanged else .moved }

inductive PlanCase (cards : List (QueuedMessageRow P)) (messageId : String)
    (input : AgentSessionQueuedMessageMoveAnchor) : Prop
  | gone (hgone : messageId ∉ queueOrder cards)
      (hplan : queuedMessageMovePlan cards messageId input = ⟨[], messageId, .gone⟩)
  | own (hmem : messageId ∈ queueOrder cards) (hown : input.messageId = some messageId)
      (hplan : queuedMessageMovePlan cards messageId input = ⟨[], messageId, .unchanged⟩)
  | stale (hmem : messageId ∈ queueOrder cards) (hown : input.messageId ≠ some messageId)
      (hstale : ∃ anchor, input.messageId = some anchor ∧ anchor ∉ queueOrder cards)
      (hplan : queuedMessageMovePlan cards messageId input = ⟨[], messageId, .stale⟩)
  | replaced (hmem : messageId ∈ queueOrder cards) (hown : input.messageId ≠ some messageId)
      (neighbor : ℕ) (order : List (QueuedMessageRow P))
      (hreplaced : Replaced cards messageId input neighbor order)

theorem map_eraseP_messageId {unsettled : List (QueuedMessageRow P)}
    (hnodup : (unsettled.map (·.messageId)).Nodup) (messageId : String) :
    (unsettled.eraseP fun card => card.messageId = messageId).map (·.messageId) =
      (unsettled.map (·.messageId)).filter (· ≠ messageId) := by
  rw [filter_ne_eq_erase hnodup, List.erase_eq_eraseP, List.eraseP_map]
  congr 2
  funext card
  simp [beq_eq_decide, eq_comm]

variable {cards : List (QueuedMessageRow P)}

/-- The cases of a move, by where its anchor stands. -/
theorem queuedMessageMovePlan_cases (hnodup : (queueOrder cards).Nodup) (messageId : String)
    (input : AgentSessionQueuedMessageMoveAnchor) : PlanCase cards messageId input := by
  cases hfound : (cards.filter isUnsettledQueuedMessage).find? fun card =>
      card.messageId = messageId with
  | none =>
    refine .gone ?_ ?_
    · rw [List.find?_eq_none] at hfound
      intro hmem
      obtain ⟨card, hcard, hid⟩ := List.mem_map.mp hmem
      exact hfound card hcard (decide_eq_true hid)
    · rw [queuedMessageMovePlan]
      dsimp only
      rw [hfound]
  | some moving =>
    have hmoving := List.mem_of_find?_eq_some hfound
    have hid : moving.messageId = messageId := by simpa using List.find?_some hfound
    have hmem : messageId ∈ queueOrder cards := List.mem_map.mpr ⟨moving, hmoving, hid⟩
    by_cases hown : input.messageId = some messageId
    · refine .own hmem hown ?_
      rw [queuedMessageMovePlan]
      dsimp only
      rw [hfound]
      exact if_pos (hid ▸ hown)
    have hrest := map_eraseP_messageId hnodup messageId
    have hneighbor := neighborIndex_eq ((cards.filter isUnsettledQueuedMessage).eraseP
      fun card => card.messageId = messageId) input.messageId
    rw [hrest] at hneighbor
    cases hat : neighborOf ((queueOrder cards).filter (· ≠ messageId)) input.messageId with
    | none =>
      refine .stale hmem hown ?_ ?_
      · cases hanchor : input.messageId with
        | none =>
          rw [hanchor] at hat
          exact absurd hat (Option.some_ne_none _)
        | some anchor =>
          refine ⟨anchor, rfl, fun hin => ?_⟩
          rw [hanchor] at hat hown
          have hother : anchor ∈ (queueOrder cards).filter (· ≠ messageId) :=
            List.mem_filter.mpr ⟨hin, decide_eq_true fun heq => hown (congrArg some heq)⟩
          have hnone := List.findIdx?_eq_none_iff.mp hat anchor hother
          exact absurd hnone (by simp)
      · rw [queuedMessageMovePlan]
        dsimp only
        rw [hfound]
        dsimp only
        rw [if_neg (by rwa [hid]), hneighbor.trans hat]
    | some neighbor =>
      refine .replaced hmem hown neighbor (spliceAt ((cards.filter isUnsettledQueuedMessage).eraseP
          fun card => card.messageId = messageId) (neighbor + input.offset) moving)
        ⟨hat, ?_, ?_, ?_⟩
      · exact (perm_spliceAt _ _ _).trans (perm_eraseP_of_find? hfound)
      · rw [map_spliceAt, hrest, hid, queueOrder]
      · rw [queuedMessageMovePlan]
        dsimp only
        rw [hfound]
        dsimp only
        rw [if_neg (by rwa [hid]), hneighbor.trans hat]

/-! ## Moves -/

theorem nodup_messageIds
    (hheld : Holds state cards) (hsorted : cards.Pairwise (·.position < ·.position)) :
    (cards.map (·.messageId)).Nodup := by
  rw [List.Nodup, List.pairwise_map]
  refine hsorted.imp_of_mem fun {left right} hleft hright hlt hsame => ?_
  have hlookup := hheld left hleft
  rw [hsame, hheld right hright] at hlookup
  rw [Option.some.inj hlookup] at hlt
  exact lt_irrefl _ hlt

theorem nodup_queueOrder (hnodup : (cards.map (·.messageId)).Nodup) : (queueOrder cards).Nodup :=
  (List.filter_sublist.map _).nodup hnodup

theorem map_position_inSlot (hlength : order.length = slots.length) :
    (List.zipWith inSlot order slots).map (·.position) = slots.map (·.position) := by
  rw [List.map_zipWith]
  refine List.ext_getElem (by simp [hlength]) fun index hleft hright => ?_
  simp [inSlot]

theorem map_messageId_inSlot (hlength : order.length = slots.length) :
    (List.zipWith inSlot order slots).map (·.messageId) = order.map (·.messageId) := by
  rw [List.map_zipWith]
  refine List.ext_getElem (by simp [hlength]) fun index hleft hright => ?_
  simp [inSlot]

theorem movedChanges_eq_nil (hlength : order.length = slots.length) :
    movedChanges order slots = [] ↔ order.map (·.position) = slots.map (·.position) := by
  induction order generalizing slots with
  | nil => rw [List.eq_nil_of_length_eq_zero hlength.symm]; exact ⟨fun _ => rfl, fun _ => rfl⟩
  | cons card order ih =>
    cases slots with
    | nil => exact absurd hlength (Nat.succ_ne_zero _)
    | cons slot slots =>
      have hrest := ih (Nat.succ.inj hlength)
      rw [movedChanges] at hrest
      rw [movedChanges, List.zip_cons_cons, List.flatMap_cons, List.append_eq_nil_iff, hrest,
        List.map_cons, List.map_cons, List.cons.injEq]
      refine and_congr_left fun _ => ?_
      dsimp only
      split_ifs with hsame
      · simp [hsame]
      · simp [Ne.symm hsame]

theorem plan_congr
    (hsame : later.filter isUnsettledQueuedMessage = cards.filter isUnsettledQueuedMessage)
    (messageId : String) (input : AgentSessionQueuedMessageMoveAnchor) :
    queuedMessageMovePlan later messageId input = queuedMessageMovePlan cards messageId input := by
  rw [queuedMessageMovePlan, queuedMessageMovePlan, hsame]

theorem filter_cardList
    (hheld : Holds state cards) (hsorted : cards.Pairwise (·.position < ·.position)) :
    (cardList state cards).filter isUnsettledQueuedMessage =
      cards.filter isUnsettledQueuedMessage := by
  rw [cardList, filterMap_lookup hheld rfl]
  exact filter_sortBy_eq _ _ (List.Perm.refl _) (hsorted.filter _)

variable {input : AgentSessionQueuedMessageMoveAnchor}

theorem mem_changes (hnodup : (queueOrder cards).Nodup)
    (hchange : change ∈ (queuedMessageMovePlan cards messageId input).changes) :
    change.messageId ∈ queueOrder cards ∧ ∃ position, change.change = .moved position := by
  cases queuedMessageMovePlan_cases hnodup messageId input with
  | gone _ hplan | own _ _ hplan | stale _ _ _ hplan =>
    rw [hplan] at hchange
    exact absurd hchange List.not_mem_nil
  | replaced _ _ neighbor order hreplaced =>
    rw [hreplaced.plan] at hchange
    obtain ⟨hmem, hmoved⟩ := mem_movedChanges hchange
    exact ⟨(hreplaced.perm.map QueuedMessageRow.messageId).mem_iff.mp hmem, hmoved⟩

theorem map_messageId_moveCards (cards : List (QueuedMessageRow P)) :
    (cards.map (moveCards changes)).map (·.messageId) = cards.map (·.messageId) := by
  rw [List.map_map]
  exact List.map_congr_left fun card _ => messageId_moveCards changes card

theorem holds_plan (hheld : Holds state cards) (hnodup : (queueOrder cards).Nodup)
    (messageId : String) (input : AgentSessionQueuedMessageMoveAnchor) :
    Holds (applyChanges runtime state (queuedMessageMovePlan cards messageId input).changes)
      (cards.map (moveCards (queuedMessageMovePlan cards messageId input).changes)) := by
  refine holds_applyChanges runtime _ hheld fun change hchange => ?_
  obtain ⟨hmem, hmoved⟩ := mem_changes hnodup hchange
  obtain ⟨card, hcard, hid⟩ := List.mem_map.mp hmem
  exact ⟨List.mem_map.mpr ⟨card, List.mem_of_mem_filter hcard, hid⟩, hmoved⟩

variable {cards order : List (QueuedMessageRow P)}

/-- With its changes folded the queue has the new order, in the old slots. -/
theorem Replaced.filter_cardList {neighbor : ℕ}
    (hreplaced : Replaced cards messageId input neighbor order) (hheld : Holds state cards)
    (hsorted : cards.Pairwise (·.position < ·.position)) :
    (cardList (applyChanges runtime state (queuedMessageMovePlan cards messageId input).changes)
      cards).filter isUnsettledQueuedMessage =
        List.zipWith inSlot order (cards.filter isUnsettledQueuedMessage) := by
  have hlength := hreplaced.perm.length_eq
  have hnodup : (order.map (·.messageId)).Nodup :=
    (hreplaced.perm.map QueuedMessageRow.messageId).nodup_iff.mpr
      (nodup_queueOrder (nodup_messageIds hheld hsorted))
  have hafter := holds_plan runtime hheld (nodup_queueOrder (nodup_messageIds hheld hsorted))
    messageId input
  rw [cardList, filterMap_lookup hafter (map_messageId_moveCards _ cards)]
  refine filter_sortBy_eq _ _ ?_ ?_
  · calc
      (cards.map (moveCards (queuedMessageMovePlan cards messageId input).changes)).filter
          isUnsettledQueuedMessage =
          (cards.filter isUnsettledQueuedMessage).map
            (moveCards (queuedMessageMovePlan cards messageId input).changes) := by
        rw [List.filter_map]
        congr 1
        exact List.filter_congr fun card _ => isUnsettled_moveCards _ card
      List.Perm _ (order.map (moveCards (queuedMessageMovePlan cards messageId input).changes)) :=
        (hreplaced.perm.map _).symm
      _ = List.zipWith inSlot order (cards.filter isUnsettledQueuedMessage) := by
        rw [hreplaced.plan]
        exact map_moveCards_movedChanges hnodup hlength
  · have hslots := (hsorted.filter isUnsettledQueuedMessage)
    have hpositions := map_position_inSlot hlength
    rw [← List.pairwise_map (f := fun card : QueuedMessageRow P => card.position) (R := (· < ·)),
      hpositions, List.pairwise_map]
    exact hslots

theorem Replaced.queueOrder_cardList {neighbor : ℕ}
    (hreplaced : Replaced cards messageId input neighbor order) (hheld : Holds state cards)
    (hsorted : cards.Pairwise (·.position < ·.position)) :
    queueOrder (cardList
      (applyChanges runtime state (queuedMessageMovePlan cards messageId input).changes) cards) =
        spliceAt ((queueOrder cards).filter (· ≠ messageId)) (neighbor + input.offset)
          messageId := by
  rw [queueOrder, hreplaced.filter_cardList runtime hheld hsorted,
    map_messageId_inSlot hreplaced.perm.length_eq]
  exact hreplaced.ids

theorem Replaced.changes_eq_nil (hreplaced : Replaced cards messageId input neighbor order)
    (hnodup : (queueOrder cards).Nodup)
    (hsorted : (cards.filter isUnsettledQueuedMessage).Pairwise (·.position < ·.position)) :
    (queuedMessageMovePlan cards messageId input).changes = [] ↔
      order.map (·.messageId) = queueOrder cards := by
  have hlength := hreplaced.perm.length_eq
  rw [hreplaced.plan]
  dsimp only
  rw [movedChanges_eq_nil hlength]
  constructor
  · intro hpositions
    have hrising : order.Pairwise (·.position < ·.position) := by
      rw [← List.pairwise_map (f := fun card : QueuedMessageRow P => card.position) (R := (· < ·)),
        hpositions, List.pairwise_map]
      exact hsorted
    rw [eq_of_perm_of_rising _ hreplaced.perm hrising hsorted, queueOrder]
  · intro hids
    rw [eq_of_perm_of_map_eq hreplaced.perm hnodup hids]

theorem filter_ne_replaced (ids : List String) (index : ℕ) (messageId : String) :
    (spliceAt (ids.filter (· ≠ messageId)) index messageId).filter (· ≠ messageId) =
      ids.filter (· ≠ messageId) := by
  rw [filter_ne_spliceAt, List.filter_filter]
  simp

theorem mem_of_neighborOf {ids : List String} {anchor : String}
    (hfound : neighborOf ids (some anchor) = some neighbor) : anchor ∈ ids := by
  obtain ⟨hlt, hat, -⟩ := List.findIdx?_eq_some_iff_getElem.mp hfound
  exact of_decide_eq_true hat ▸ List.getElem_mem hlt

theorem changes_again
    (hfound : neighborOf ((queueOrder cards).filter (· ≠ messageId)) input.messageId =
      some neighbor) (hlater : queueOrder later =
      spliceAt ((queueOrder cards).filter (· ≠ messageId)) (neighbor + input.offset) messageId)
    (hnodup : (queueOrder later).Nodup)
    (hsorted : (later.filter isUnsettledQueuedMessage).Pairwise (·.position < ·.position)) :
    (queuedMessageMovePlan later messageId input).changes = [] := by
  have hrest : (queueOrder later).filter (· ≠ messageId) =
      (queueOrder cards).filter (· ≠ messageId) := by
    rw [hlater, filter_ne_replaced]
  cases queuedMessageMovePlan_cases hnodup messageId input with
  | gone _ hplan | own _ _ hplan | stale _ _ _ hplan =>
    rw [hplan]
  | replaced _ _ other order hreplaced =>
    have hsame := hreplaced.found
    rw [hrest, hfound] at hsame
    have hids := hreplaced.ids
    rw [hrest, ← Option.some.inj hsame, ← hlater] at hids
    exact (hreplaced.changes_eq_nil hnodup hsorted).mpr hids

/-- A plan moves only the positions of unsettled cards, by one that another had; the others
keep their order and the moved card goes next to its anchor.  Made again, the plan is empty. -/
theorem queuedMessageMovePlan_spec (runtime : JournalRuntime P) {state : JournalReducerState P}
    {cards : List (QueuedMessageRow P)} (hheld : Holds state cards)
    (hsorted : cards.Pairwise (·.position < ·.position)) (messageId : String)
    (input : AgentSessionQueuedMessageMoveAnchor) :
    let plan := queuedMessageMovePlan cards messageId input
    let after := applyChanges runtime state plan.changes
    let moved := cardList after cards
    (∀ card ∈ cards, ∃ position,
      after.queue.cards.lookup card.messageId = some { card with position := position } ∧
        (isUnsettledQueuedMessage card = false → position = card.position)) ∧
      ((moved.filter isUnsettledQueuedMessage).map (·.position)).Perm
        ((cards.filter isUnsettledQueuedMessage).map (·.position)) ∧
      (queueOrder moved).filter (· ≠ messageId) = (queueOrder cards).filter (· ≠ messageId) ∧
      (messageId ∉ queueOrder cards → plan.status = .gone ∧ after = state) ∧
      (messageId ∈ queueOrder cards →
        (∃ anchor, input.messageId = some anchor ∧ anchor ∉ queueOrder cards) →
          plan.status = .stale ∧ after = state) ∧
      (messageId ∈ queueOrder cards →
        (∀ anchor, input.messageId = some anchor → anchor ∈ queueOrder cards) →
          (plan.status = .unchanged ∨ plan.status = .moved) ∧
            (plan.status = .unchanged ↔ queueOrder moved = queueOrder cards) ∧
            (input.messageId ≠ some messageId → NextTo (queueOrder moved) messageId input)) ∧
      (queuedMessageMovePlan moved messageId input).changes = [] := by
  intro plan after moved
  have hnodup := nodup_queueOrder (nodup_messageIds hheld hsorted)
  refine ⟨fun card hcard => ?_, ?_⟩
  · obtain ⟨position, hposition⟩ := exists_moveCards plan.changes card
    have hlookup := holds_plan runtime hheld hnodup messageId input _ (List.mem_map_of_mem hcard)
    rw [messageId_moveCards] at hlookup
    refine ⟨position, hlookup.trans (congrArg some hposition), fun hsettled => ?_⟩
    have hstays : moveCards plan.changes card = card := by
      refine moveCards_of_not_mem fun hmem => ?_
      obtain ⟨change, hchange, hid⟩ := List.mem_map.mp hmem
      have hin := (mem_changes hnodup hchange).1
      obtain ⟨moving, hmoving, hsame⟩ := List.mem_map.mp hin
      have heq : moving = card := List.inj_on_of_nodup_map (nodup_messageIds hheld hsorted)
        (List.mem_of_mem_filter hmoving) hcard (hsame.trans hid)
      have hunsettled := (List.mem_filter.mp hmoving).2
      rw [heq, hsettled] at hunsettled
      exact Bool.false_ne_true hunsettled
    rw [hstays] at hposition
    exact (congrArg QueuedMessageRow.position hposition).symm
  have hsame (hplan : plan.changes = []) : after = state ∧
      moved.filter isUnsettledQueuedMessage = cards.filter isUnsettledQueuedMessage := by
    have hafter : after = state := by
      change applyChanges runtime state plan.changes = state
      rw [hplan]
      rfl
    refine ⟨hafter, ?_⟩
    change (cardList after cards).filter isUnsettledQueuedMessage = _
    rw [hafter]
    exact filter_cardList hheld hsorted
  have hempty (hplan : plan.changes = []) :
      (queuedMessageMovePlan moved messageId input).changes = [] := by
    rw [plan_congr (hsame hplan).2]
    exact hplan
  have hqueue (hplan : plan.changes = []) : queueOrder moved = queueOrder cards := by
    rw [queueOrder, (hsame hplan).2, queueOrder]
  cases queuedMessageMovePlan_cases hnodup messageId input with
  | gone hgone hplan =>
    have hnone : plan.changes = [] := congrArg QueuedMessageMovePlan.changes hplan
    have hstatus : plan.status = .gone := congrArg QueuedMessageMovePlan.status hplan
    refine ⟨?_, ?_, fun _ => ⟨hstatus, (hsame hnone).1⟩, fun hmem => absurd hmem hgone,
      fun hmem => absurd hmem hgone, hempty hnone⟩
    · rw [(hsame hnone).2]
    · rw [hqueue hnone]
  | own hmem hown hplan =>
    have hnone : plan.changes = [] := congrArg QueuedMessageMovePlan.changes hplan
    have hstatus : plan.status = .unchanged := congrArg QueuedMessageMovePlan.status hplan
    refine ⟨?_, ?_, fun hgone => absurd hmem hgone, ?_, fun _ _ => ⟨Or.inl hstatus,
      ⟨fun _ => hqueue hnone, fun _ => hstatus⟩, fun hne => absurd hown hne⟩, hempty hnone⟩
    · rw [(hsame hnone).2]
    · rw [hqueue hnone]
    · rintro - ⟨anchor, hanchor, hstale⟩
      rw [hown] at hanchor
      exact absurd (Option.some.inj hanchor ▸ hmem) hstale
  | stale hmem hown hstale hplan =>
    have hnone : plan.changes = [] := congrArg QueuedMessageMovePlan.changes hplan
    have hstatus : plan.status = .stale := congrArg QueuedMessageMovePlan.status hplan
    refine ⟨?_, ?_, fun hgone => absurd hmem hgone, fun _ _ => ⟨hstatus, (hsame hnone).1⟩,
      fun _ hin => ?_, hempty hnone⟩
    · rw [(hsame hnone).2]
    · rw [hqueue hnone]
    · obtain ⟨anchor, hanchor, hout⟩ := hstale
      exact absurd (hin anchor hanchor) hout
  | replaced hmem hown neighbor order hreplaced =>
    have hunsettled : moved.filter isUnsettledQueuedMessage = _ :=
      hreplaced.filter_cardList runtime hheld hsorted
    have hpositions := map_position_inSlot hreplaced.perm.length_eq
    have horder : queueOrder moved = _ := hreplaced.queueOrder_cardList runtime hheld hsorted
    have hunchanged : plan.status = .unchanged ↔ plan.changes = [] := by
      rw [show plan = _ from hreplaced.plan]
      dsimp only
      rw [← List.isEmpty_iff]
      split_ifs with hnone
      · exact ⟨fun _ => hnone, fun _ => rfl⟩
      · exact ⟨fun h => (by cases h), fun h => absurd h hnone⟩
    have hrising : (moved.filter isUnsettledQueuedMessage).Pairwise (·.position < ·.position) := by
      rw [hunsettled,
        ← List.pairwise_map (f := fun card : QueuedMessageRow P => card.position) (R := (· < ·)),
        hpositions, List.pairwise_map]
      exact hsorted.filter _
    have hmovedIds : (queueOrder moved).Nodup := by
      rw [horder, ← hreplaced.ids]
      exact (hreplaced.perm.map QueuedMessageRow.messageId).nodup_iff.mpr hnodup
    refine ⟨?_, ?_, fun hgone => absurd hmem hgone, ?_, fun _ _ => ⟨?_, ?_, fun _ => ?_⟩,
      changes_again hreplaced.found horder hmovedIds hrising⟩
    · rw [hunsettled, hpositions]
    · rw [horder, filter_ne_replaced]
    · rintro - ⟨anchor, hanchor, hstale⟩
      have hfound := hreplaced.found
      rw [hanchor] at hfound
      exact absurd (List.mem_of_mem_filter (mem_of_neighborOf hfound)) hstale
    · rw [show plan = _ from hreplaced.plan]
      dsimp only
      split_ifs
      · exact Or.inl rfl
      · exact Or.inr rfl
    · rw [hunchanged, hreplaced.changes_eq_nil hnodup (hsorted.filter _), hreplaced.ids, horder]
    · rw [horder]
      exact nextTo_spliceAt hreplaced.found

def plainRuntime : JournalRuntime Unit := ⟨fun _ _ => "", id, fun _ => none⟩

def card (messageId : String) (position : ℤ) (state : QueuedMessageState) :
    QueuedMessageRow Unit where
  messageId := messageId
  position := position
  body := ⟨.user, none, ()⟩
  fingerprint := ""
  state := state
  holdReason := none
  returnedReason := none
  returnedRejection := none
  consumedAs := none
  recovers := none
  queuedAt := none
  options := none

def fourCards : List (QueuedMessageRow Unit) :=
  [card "a" 1 .waiting, card "b" 4 .dispatched, card "c" 6 .waiting, card "d" 9 .returned]

def stateOf (cards : List (QueuedMessageRow Unit)) : JournalReducerState Unit :=
  cards.foldl setCard (createJournalReducerState "session" "epoch")

theorem queuedMessageMovePlan_spec_fourCards :
    (queuedMessageMovePlan fourCards "d" (.before (some "c"))).changes =
        [⟨"d", .moved 6⟩, ⟨"c", .moved 9⟩] ∧
      (queuedMessageMovePlan (cardList (applyChanges plainRuntime (stateOf fourCards)
        (queuedMessageMovePlan fourCards "d" (.before (some "c"))).changes) fourCards)
        "d" (.before (some "c"))).changes = [] := by
  refine ⟨by decide +kernel, ?_⟩
  have hheld : Holds (stateOf fourCards) fourCards := by
    rw [Holds]
    decide +kernel
  exact (queuedMessageMovePlan_spec plainRuntime hheld (by decide) "d"
    (.before (some "c"))).2.2.2.2.2.2

/-- A message that is gone leaves the order as it was, and is not reported unchanged. -/
theorem queuedMessageMovePlan_gone :
    ¬ ∀ (state : JournalReducerState Unit) (cards : List (QueuedMessageRow Unit)),
      Holds state cards → cards.Pairwise (·.position < ·.position) →
        ∀ (messageId : String) (input : AgentSessionQueuedMessageMoveAnchor),
          (queuedMessageMovePlan cards messageId input).status = .unchanged ↔
            queueOrder (cardList (applyChanges plainRuntime state
              (queuedMessageMovePlan cards messageId input).changes) cards) = queueOrder cards := by
  intro hclaim
  have hheld : Holds (stateOf fourCards) fourCards := by
    rw [Holds]
    decide +kernel
  have hgone := (hclaim (stateOf fourCards) fourCards hheld (by decide) "e" (.before none)).mpr
    (by decide +kernel)
  exact absurd hgone (by decide +kernel)

end Wakii.QueueMoves
