import Wakii.Journal.ReducerFrames

/-!
# Items keep their ids

Every item of a folded journal stands under its own id, and a row moves the last
sequence to its own when that is greater and in no other way.
-/

namespace Wakii.ItemIds

open OrderedCollections Wakii.JournalRows
open Wakii.Reducer

variable {P : Type}

def KeyedItems (state : JournalReducerState P) : Prop :=
  ∀ itemId item, state.items.lookup itemId = some item → item.itemId = itemId

/-- A step that leaves the last sequence alone and every item under its own id. -/
structure KeepsIds (state next : JournalReducerState P) : Prop where
  lastSequence : next.lastSequence = state.lastSequence
  keyed : KeyedItems state → KeyedItems next

theorem KeepsIds.of_items {state next : JournalReducerState P}
    (hsequence : next.lastSequence = state.lastSequence) (hitems : next.items = state.items) :
    KeepsIds state next where
  lastSequence := hsequence
  keyed hkeyed := by
    unfold KeyedItems
    rw [hitems]
    exact hkeyed

variable (runtime : JournalRuntime P) (state : JournalReducerState P)

theorem KeepsIds.refl : KeepsIds state state := .of_items rfl rfl

theorem KeepsIds.trans {one two three : JournalReducerState P} (hone : KeepsIds one two)
    (htwo : KeepsIds two three) : KeepsIds one three where
  lastSequence := htwo.lastSequence.trans hone.lastSequence
  keyed hkeyed := htwo.keyed (hone.keyed hkeyed)

theorem KeepsIds.of_write {state next : JournalReducerState P} {itemId : String}
    (item : AgentJournalRenderItem P) (hsequence : next.lastSequence = state.lastSequence)
    (hid : KeyedItems state → item.itemId = itemId)
    (hitems : next.items = state.items.set itemId item) : KeepsIds state next where
  lastSequence := hsequence
  keyed hkeyed other held hheld := by
    rw [hitems, OrderedMap.lookup_set] at hheld
    split_ifs at hheld with hother
    · rw [← Option.some.inj hheld, hid hkeyed, hother]
    · exact hkeyed other held hheld

theorem keepsIdsRule : TimelineRule (P := P) KeepsIds where
  trans := KeepsIds.trans
  aside haside := .of_items haside.lastSequence haside.items
  upsert runtime state itemId revision next fences hid _ := by
    unfold upsertJournalItem
    split
    · exact .refl state
    · unfold writeItem
      dsimp only
      cases state.items.lookup itemId with
      | none => exact .of_write next rfl (fun _ => hid) rfl
      | some existing =>
        exact .of_write (revisedItem runtime itemId existing next) rfl (fun _ => hid) rfl
  remove state itemId revision := by
    unfold removeJournalItem
    split
    · exact .refl state
    · cases state.items.lookup itemId <;>
      · refine ⟨rfl, fun hkeyed other held hheld => hkeyed other held ?_⟩
        dsimp only at hheld
        rw [OrderedMap.lookup_erase_eq] at hheld
        split_ifs at hheld
        exact hheld
  place state itemId place := by
    unfold placeItem
    split
    · exact .refl state
    · rename_i item hlookup
      exact .of_write (placedItem item place) rfl (fun hkeyed => hkeyed itemId item hlookup) rfl

theorem keepsIdsFactsRule : FactsRule (P := P) KeepsIds where
  toTimelineRule := keepsIdsRule
  echo _ _ := .of_items rfl rfl
  accept _ _ _ _ := .of_items rfl rfl
  settle _ _ _ _ _ := .of_items rfl rfl

theorem keepsIdsUnlinkRule : UnlinkRule (P := P) KeepsIds where
  toTimelineRule := keepsIdsRule
  unlink _ := .of_items rfl rfl

theorem keepsIds_applyJournalRow (row : JournalRow P) :
    KeepsIds (observeRow state row.base) (applyJournalRow runtime state row) := by
  have hfacts := keepsIdsFactsRule.applyJournalRowFacts runtime state row
    (fun _ _ _ => .of_items rfl rfl) fun _ _ _ _ => .of_items rfl rfl
  have hqueued := hfacts.trans (keepsIdsUnlinkRule.foldJournalQueueRow runtime _
    (fun _ _ => .of_items rfl rfl) row)
  obtain ⟨htimeline, -, hsequence⟩ := obligations_frame
    (foldJournalQueueRow runtime (applyJournalRowFacts runtime state row) row) row
    (dispatchApplies state row)
  exact hqueued.trans (.of_items hsequence htimeline.items)

theorem lastSequence_applyJournalRow (row : JournalRow P) :
    (applyJournalRow runtime state row).lastSequence = max state.lastSequence row.base.seq :=
  (keepsIds_applyJournalRow runtime state row).lastSequence

theorem KeyedItems.applyJournalRow {state : JournalReducerState P} (hkeyed : KeyedItems state)
    (runtime : JournalRuntime P) (row : JournalRow P) :
    KeyedItems (applyJournalRow runtime state row) :=
  (keepsIds_applyJournalRow runtime state row).keyed hkeyed

end Wakii.ItemIds
