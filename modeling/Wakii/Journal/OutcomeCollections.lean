import Mathlib.Data.Option.Basic
import Wakii.Journal.TransitionCollections

/-!
# The reducer's keyed collections and their drafts

The outcome log stores maps and sets alike, one record for each changed key.
Keys stand here as the JSON text the table stores.  A set member carries no
value of its own, so a collection is seen as an ordered map whose values are
optional; a draft's report is then an overlay of that view.
-/

namespace Wakii.OutcomeCollections

open OrderedCollections TransitionCollections OrderedMap

variable {V : Type*}

inductive Collection (V : Type*) where
  | map (entries : OrderedMap String V)
  | set (members : OrderedSet String)

/-- What a row's fold may do to a collection through its draft. -/
inductive CollectionOp (V : Type*) where
  | put (key : String) (value : V)
  | delete (key : String)
  | clear

namespace Collection

/-- The collection as an ordered map; members of a set hold no value. -/
def view : Collection V → OrderedMap String (Option V)
  | .map entries => entries.mapValues fun _ value => some value
  | .set members => members.toMap.mapValues fun _ _ => none

def isMap : Collection V → Bool
  | .map _ => true
  | .set _ => false

def emptied : Collection V → Collection V
  | .map _ => .map ∅
  | .set _ => .set ∅

def apply : Collection V → CollectionOp V → Collection V
  | .map entries, .put key value => .map (entries.set key value)
  | .map entries, .delete key => .map (entries.erase key)
  | .set members, .put key _ => .set (members.add key)
  | .set members, .delete key => .set (members.erase key)
  | collection, .clear => collection.emptied

def remove : Collection V → String → Collection V
  | .map entries, key => .map (entries.erase key)
  | .set members, key => .set (members.erase key)

def entry : Collection V → String → Option V → Collection V
  | .map entries, key, some value => .map (entries.set key value)
  | .map entries, _, none => .map entries
  | .set members, key, _ => .set (members.add key)

theorem eq_of_view_eq {left right : Collection V}
    (hkind : left.isMap = right.isMap) (hview : left.view = right.view) :
    left = right := by
  cases left with
  | map entries =>
    cases right with
    | map entries' =>
      have hinjective : ∀ _ : String, Function.Injective (some : V → Option V) :=
        fun _ => Option.some_injective V
      exact congrArg Collection.map (mapValues_injective _ hinjective hview)
    | set members' => simp [isMap] at hkind
  | set members =>
    cases right with
    | map entries' => simp [isMap] at hkind
    | set members' =>
      have hkeys := congrArg AList.keys hview
      simp only [view, keys_mapValues, OrderedSet.keys_toMap] at hkeys
      exact congrArg Collection.set (OrderedSet.ext hkeys)

variable (collection : Collection V) (key : String)

@[simp]
theorem isMap_remove : (collection.remove key).isMap = collection.isMap := by
  cases collection <;> rfl

@[simp]
theorem isMap_entry (value : Option V) : (collection.entry key value).isMap = collection.isMap := by
  cases collection <;> cases value <;> rfl

theorem view_remove : (collection.remove key).view = collection.view.erase key := by
  cases collection with
  | map entries =>
    exact mapValues_erase (fun _ value => some value) entries key
  | set members =>
    simp only [remove, view, OrderedSet.toMap_erase]
    exact mapValues_erase (fun _ _ => none) members.toMap key

theorem view_entry {value : Option V} (hvalue : value.isSome = collection.isMap) :
    (collection.entry key value).view = collection.view.set key value := by
  cases collection with
  | map entries =>
    obtain ⟨stored, rfl⟩ := Option.isSome_iff_exists.mp hvalue
    exact mapValues_set (fun _ value => some value) entries key stored
  | set members =>
    rw [isMap, Option.isSome_eq_false_iff, Option.isNone_iff_eq_none] at hvalue
    subst hvalue
    simp only [entry, view, OrderedSet.toMap_add]
    exact mapValues_set (fun _ _ => none) members.toMap key ()

theorem isSome_of_lookup_view {collection : Collection V} {key : String}
    {value : Option V} (hlookup : collection.view.lookup key = some value) :
    value.isSome = collection.isMap := by
  cases collection with
  | map entries =>
    simp only [view, lookup_mapValues, Option.map_eq_some_iff] at hlookup
    obtain ⟨stored, _, rfl⟩ := hlookup
    rfl
  | set members =>
    simp only [view, lookup_mapValues, Option.map_eq_some_iff] at hlookup
    obtain ⟨_, _, rfl⟩ := hlookup
    rfl

end Collection

def reportedChange (path : String) (current : Collection V)
    (recreated : OrderedSet String) (key : String) :
    JournalEntryChange String V :=
  { path
    key
    deleted := decide (key ∉ current.view)
    reinsert := decide (key ∈ recreated)
    value := (current.view.lookup key).join }

inductive DraftCollection (V : Type*) where
  | map (draft : JournalDraftMap String V)
  | set (draft : JournalDraftSet String)

namespace DraftCollection

def ofSource (path : String) : Collection V → DraftCollection V
  | .map entries => .map (JournalDraftMap.ofSource entries path)
  | .set members => .set (JournalDraftSet.ofSource members path)

def path : DraftCollection V → String
  | .map draft => draft.path
  | .set draft => draft.path

def apply : DraftCollection V → CollectionOp V → DraftCollection V
  | .map draft, .put key value => .map (draft.set key value)
  | .map draft, .delete key => .map (draft.delete key).1
  | .map draft, .clear => .map draft.clear
  | .set draft, .put key _ => .set (draft.add key)
  | .set draft, .delete key => .set (draft.delete key).1
  | .set draft, .clear => .set draft.clear

def changes : DraftCollection V → List (JournalEntryChange String V)
  | .map draft => draft.changes
  | .set draft => draft.changes.map fun change =>
    { path := change.path
      key := change.key
      deleted := change.deleted
      reinsert := change.reinsert
      value := none }

def reset : DraftCollection V → DraftCollection V
  | .map draft => .map draft.takeChanges.1
  | .set draft => .set draft.takeChanges.1

def adopt : DraftCollection V → Collection V
  | .map draft => .map draft.adopt
  | .set draft => .set draft.adopt

/-- The draft stands for `current`; `mark` is what it stood for at the last
reset. -/
inductive Tracks : DraftCollection V → Collection V → Collection V → Prop
  | map {draft : JournalDraftMap String V} {current mark : OrderedMap String V}
      (tracks : draft.Tracks current mark) :
      Tracks (.map draft) (.map current) (.map mark)
  | set {draft : JournalDraftSet String} {current mark : OrderedSet String}
      (tracks : draft.Tracks current mark) :
      Tracks (.set draft) (.set current) (.set mark)

variable {draft : DraftCollection V} {current mark : Collection V}

theorem tracks_ofSource (path : String) (collection : Collection V) :
    (ofSource path collection).Tracks collection collection := by
  cases collection with
  | map entries => exact .map (JournalDraftMap.tracks_ofSource entries path)
  | set members => exact .set (JournalDraftSet.tracks_ofSource members path)

theorem path_ofSource (path : String) (collection : Collection V) :
    (ofSource path collection).path = path := by
  cases collection <;> rfl

theorem path_reset (draft : DraftCollection V) : draft.reset.path = draft.path := by
  cases draft <;> rfl

section

variable (h : draft.Tracks current mark)
include h

theorem Tracks.apply (op : CollectionOp V) : (draft.apply op).Tracks (current.apply op) mark := by
  cases h with
  | map tracks =>
    cases op with
    | put key value => exact .map (tracks.set key value)
    | delete key => exact .map (tracks.delete key)
    | clear => exact .map tracks.clear.1
  | set tracks =>
    cases op with
    | put key value => exact .set (tracks.add key)
    | delete key => exact .set (tracks.delete key)
    | clear => exact .set tracks.clear.1

theorem Tracks.path_apply (op : CollectionOp V) : (draft.apply op).path = draft.path := by
  cases h with
  | map tracks =>
    cases op with
    | put key value => rfl
    | delete key => exact (JournalDraftMap.delete_frame _ key).2
    | clear => exact tracks.clear.2.2
  | set tracks =>
    cases op with
    | put key value => exact (JournalDraftSet.add_frame _ key).2
    | delete key => exact (JournalDraftSet.delete_frame _ key).2
    | clear => exact tracks.clear.2.2

theorem Tracks.reset : draft.reset.Tracks current current := by
  cases h with
  | map tracks => exact .map tracks.takeChanges.2
  | set tracks => exact .set tracks.takeChanges.2

theorem Tracks.adopt_eq : draft.adopt = current := by
  cases h with
  | map tracks => exact congrArg Collection.map tracks.adopt_eq
  | set tracks => exact congrArg Collection.set tracks.adopt_eq

theorem Tracks.isMap_eq : current.isMap = mark.isMap := by
  cases h <;> rfl

end

/-- What a row's report says of the collection's view: one change for each
pending key, in touch order. -/
structure Reported (path : String) (mark current : Collection V)
    (changes : List (JournalEntryChange String V))
    (recreated pending : OrderedSet String) : Prop where
  segment : Overlay mark.view current.view recreated pending
  changes_eq : changes = pending.elems.map (reportedChange path current recreated)

theorem Tracks.reported (h : draft.Tracks current mark) : ∃ recreated pending,
      Reported draft.path mark current draft.changes recreated pending := by
  cases h with
  | @map draft current mark tracks =>
    refine ⟨draft.recreated, draft.pending,
      tracks.keys.segment.mapValues fun _ value => some value, ?_⟩
    apply List.map_congr_left
    intro key _
    rw [tracks.has_eq, tracks.get_eq]
    simp only [reportedChange, Collection.view, mem_mapValues, lookup_mapValues]
    cases current.lookup key <;> simp [path]
  | @set draft current mark tracks =>
    have hsegment : Overlay mark.toMap current.toMap draft.recreated
        draft.pending := DraftKeys.Tracks.segment tracks
    refine ⟨draft.recreated, draft.pending, hsegment.mapValues fun _ _ => none, ?_⟩
    simp only [changes, JournalDraftSet.changes, List.map_map]
    apply List.map_congr_left
    intro key _
    simp only [Function.comp_apply, reportedChange, tracks.has_eq,
      Collection.view, mem_mapValues, OrderedSet.mem_toMap,
      lookup_mapValues]
    cases current.toMap.lookup key <;> simp [path]

end DraftCollection

end Wakii.OutcomeCollections
