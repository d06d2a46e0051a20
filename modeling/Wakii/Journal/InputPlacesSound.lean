import Wakii.Journal.InputPlaces

/-!
# The index of input places answers from its current entries

Every tree is a balanced search tree of exactly the entries it stands for,
whichever of the two ways the tree of all of them is kept.  The answers along
one path are then answers about the sorted list of the current entries.
-/

namespace Wakii.InputPlaces

open List OrderedCollections SearchTrees Std OrderedMap AList

variable {P : Type} {localeCompare : String → String → Ordering}

section Order

theorem sequence_le_of_compare {entry other : Entry P}
    (horder : compare localeCompare entry other = .lt) : entry.sequence ≤ other.sequence := by
  rcases Ordering.then_eq_lt.mp horder with hlt | ⟨heq, -⟩
  · exact (Std.compare_eq_lt.mp hlt).le
  · exact (LawfulEqOrd.eq_of_compare heq).le

theorem id_eq_of_compare [LawfulEqCmp localeCompare] {entry other : Entry P}
    (horder : compare localeCompare entry other = .eq) : entry.id = other.id := by
  obtain ⟨-, hrest⟩ := Ordering.then_eq_eq.mp horder
  obtain ⟨-, hid⟩ := Ordering.then_eq_eq.mp hrest
  exact LawfulEqCmp.eq_of_compare hid

variable [TransCmp localeCompare]

instance : TransCmp fun entry other : Entry P => localeCompare entry.id other.id where
  eq_swap := OrientedCmp.eq_swap
  isLE_trans := TransCmp.isLE_trans

instance : TransCmp (compare localeCompare : Entry P → Entry P → Ordering) :=
  inferInstanceAs (TransCmp (compareLex _ _))

theorem compare_eq_of_id_eq {entry other : Entry P} (hentry : entry = other) :
    compare localeCompare entry other = .eq := by
  rw [hentry]
  exact ReflCmp.compare_self

end Order

/-! ## The trees -/

def afterChange (members : Entry P → Prop) (entry : Entry P) (remove : Bool) (held : Entry P) :
    Prop :=
  members held ∧ held.id ≠ entry.id ∨ remove = false ∧ held = entry

/-- A balanced search tree of exactly the members. -/
structure Holds (localeCompare : String → String → Ordering) (tree : Node P)
    (members : Entry P → Prop) : Prop where
  sound : tree.Sound Entry.toQuery
  ordered : AvlTree.Ordered (compare localeCompare) tree.toList
  mem : ∀ entry, entry ∈ tree.toList ↔ members entry

namespace Holds

variable {tree : Node P} {members : Entry P → Prop}

theorem nil (hnone : ∀ entry, ¬members entry) : Holds localeCompare .nil members where
  sound := ⟨trivial, trivial⟩
  ordered := List.Pairwise.nil
  mem entry := iff_of_false (not_mem_nil) (hnone entry)

theorem congr {members' : Entry P → Prop} (hholds : Holds localeCompare tree members)
    (hmembers : ∀ entry, members entry ↔ members' entry) :
    Holds localeCompare tree members' where
  sound := hholds.sound
  ordered := hholds.ordered
  mem entry := (hholds.mem entry).trans (hmembers entry)

theorem put [TransCmp localeCompare] [LawfulEqCmp localeCompare] {entry : Entry P}
    (remove : Bool) (hholds : Holds localeCompare tree members)
    (hown : ∀ held, members held → held.id = entry.id → held = entry) :
    Holds localeCompare (put localeCompare tree entry remove)
      (afterChange members entry remove) where
  sound := (hholds.sound.put _ entry remove).1
  ordered := AvlTree.ordered_put _ entry remove hholds.ordered
  mem held := by
    rw [InputPlaces.put, AvlTree.mem_put _ hholds.ordered, hholds.mem]
    refine or_congr (and_congr_right fun hheld => not_congr ?_) Iff.rfl
    exact ⟨id_eq_of_compare, fun hid => compare_eq_of_id_eq (hown held hheld hid)⟩

end Holds

def JournalInputPlaceIndex.epochTree (index : JournalInputPlaceIndex P) (epoch : String) : Node P :=
  (index.epochs.lookup epoch).getD .nil

def undomainedCount (entries : List (Entry P)) : ℕ :=
  entries.countP fun entry => entry.domain = none

/-- Each tree holds its members, and no epoch is kept without one. -/
structure Trees (localeCompare : String → String → Ordering)
    (index : JournalInputPlaceIndex P) (members : Entry P → Prop) : Prop where
  all : Holds localeCompare index.all members
  epochs : ∀ epoch, Holds localeCompare (index.epochTree epoch) fun entry =>
    members entry ∧ entry.domain = some epoch
  present : ∀ epoch tree, index.epochs.lookup epoch = some tree → tree.isNil = false
  undomained : index.undomained = undomainedCount index.all.toList

namespace Trees

variable {index : JournalInputPlaceIndex P} {members : Entry P → Prop} {entry : Entry P}
  {remove : Bool}

section

variable (htrees : Trees localeCompare index members)
include htrees

theorem withEntries {members' : Entry P → Prop}
    (entries : OrderedMap String (Entry P)) (hmembers : ∀ held, members held ↔ members' held) :
    Trees localeCompare { index with entries } members' where
  all := htrees.all.congr hmembers
  epochs epoch := (htrees.epochs epoch).congr fun held => and_congr_left' (hmembers held)
  present := htrees.present
  undomained := htrees.undomained

theorem mem_epochs (hmember : members entry)
    {epoch : String} (hepoch : entry.domain = some epoch) : epoch ∈ index.epochs := by
  by_contra habsent
  have hnone : index.epochTree epoch = .nil := by
    rw [JournalInputPlaceIndex.epochTree, lookup_eq_none.mpr habsent]
    rfl
  have hmem := ((htrees.epochs epoch).mem entry).mpr ⟨hmember, hepoch⟩
  rw [hnone] at hmem
  exact absurd hmem not_mem_nil

theorem domain_ne_none
    (hundomained : index.undomained = 0) (hmember : members entry) : entry.domain ≠ none := by
  have hcount : undomainedCount index.all.toList = 0 := by
    have hzero := htrees.undomained.symm.trans hundomained
    exact_mod_cast hzero
  intro hdomain
  have hfalse := countP_eq_zero.mp hcount entry ((htrees.all.mem entry).mpr hmember)
  exact hfalse (decide_eq_true hdomain)

end

end Trees

/-- What an update of one entry needs: no other member has its id, one that is
recorded is new, and one that is removed is there. -/
structure Changes (members : Entry P → Prop) (entry : Entry P) (remove : Bool) : Prop where
  own : ∀ held, members held → held.id = entry.id → held = entry
  fresh : remove = false → ∀ held, members held → held.id ≠ entry.id
  held : remove = true → members entry

namespace Trees

variable {index : JournalInputPlaceIndex P} {members : Entry P → Prop} {entry : Entry P}
  {remove : Bool}

theorem afterChange_other (hchanges : Changes members entry remove) {other : String}
    (hother : entry.domain ≠ some other) (held : Entry P) :
    members held ∧ held.domain = some other ↔
      afterChange members entry remove held ∧ held.domain = some other := by
  have hne : held.domain = some other → held ≠ entry := by
    rintro hdomain rfl
    exact hother hdomain
  unfold afterChange
  constructor
  · rintro ⟨hheld, hdomain⟩
    exact ⟨.inl ⟨hheld, fun hid => hne hdomain (hchanges.own held hheld hid)⟩, hdomain⟩
  · rintro ⟨⟨hheld, -⟩ | ⟨-, heq⟩, hdomain⟩
    · exact ⟨hheld, hdomain⟩
    · exact absurd heq (hne hdomain)

variable [TransCmp localeCompare] [LawfulEqCmp localeCompare]

theorem count_put (htrees : Trees localeCompare index members)
    (hchanges : Changes members entry remove) :
    (undomainedCount (put localeCompare index.all entry remove).toList : ℤ) = index.undomained +
        if entry.domain = none then (if remove then -1 else 1) else 0 := by
  rw [htrees.undomained]
  have hstep : ∀ {before after : List (Entry P)}, after.Perm (entry :: before) →
      undomainedCount after = undomainedCount before + if entry.domain = none then 1 else 0 := by
    intro before after hperm
    rw [undomainedCount, hperm.countP_eq, countP_cons]
    simp only [undomainedCount, decide_eq_true_eq]
  cases remove with
  | false =>
    have hfresh : ∀ held ∈ index.all.toList, compare localeCompare held entry ≠ .eq :=
      fun held hheld heq =>
        hchanges.fresh rfl held ((htrees.all.mem held).mp hheld) (id_eq_of_compare heq)
    have hcount := hstep (AvlTree.perm_put_store Entry.toQuery htrees.all.ordered hfresh)
    rw [InputPlaces.put, hcount]
    by_cases hdomain : entry.domain = none <;> simp [hdomain]
  | true =>
    have hcount := hstep (AvlTree.perm_put_remove Entry.toQuery htrees.all.ordered
      ((htrees.all.mem entry).mpr (hchanges.held rfl)))
    rw [InputPlaces.put, hcount]
    by_cases hdomain : entry.domain = none <;> simp [hdomain]

theorem holds_root (htrees : Trees localeCompare index members)
    (hchanges : Changes members entry remove) {epoch : String}
    (hepoch : entry.domain = some epoch) :
    Holds localeCompare (put localeCompare (index.epochTree epoch) entry remove) fun held =>
      afterChange members entry remove held ∧ held.domain = some epoch := by
  have hown : ∀ held, members held ∧ held.domain = some epoch → held.id = entry.id →
      held = entry := fun held hheld => hchanges.own held hheld.1
  refine ((htrees.epochs epoch).put remove hown).congr fun held => ?_
  unfold afterChange
  constructor
  · rintro (⟨⟨hheld, hdomain⟩, hid⟩ | ⟨hstore, rfl⟩)
    · exact ⟨.inl ⟨hheld, hid⟩, hdomain⟩
    · exact ⟨.inr ⟨hstore, rfl⟩, hepoch⟩
  · rintro ⟨⟨hheld, hid⟩ | ⟨hstore, rfl⟩, hdomain⟩
    · exact .inl ⟨⟨hheld, hdomain⟩, hid⟩
    · exact .inr ⟨hstore, rfl⟩

end Trees

def replaceRoot (epochs : OrderedMap String (Node P)) (epoch : String) (root : Node P) :
    OrderedMap String (Node P) :=
  if root.isNil then epochs.erase epoch else epochs.set epoch root

section

variable (epochs : OrderedMap String (Node P)) (epoch other : String) (root : Node P)

theorem lookup_replaceRoot : (replaceRoot epochs epoch root).lookup other =
      if other = epoch then (if root.isNil then none else some root)
      else epochs.lookup other := by
  unfold replaceRoot
  split_ifs with hnil hother hother
  · rw [hother, lookup_erase]
  · rw [lookup_erase_ne hother]
  · rw [hother, lookup_set_self]
  · rw [lookup_set_ne _ _ hother]

theorem replaceRoot_getD : ((replaceRoot epochs epoch root).lookup other).getD .nil =
      if other = epoch then root else (epochs.lookup other).getD .nil := by
  rw [lookup_replaceRoot]
  cases root <;> split_ifs <;> simp_all [AvlTree.isNil]

end

namespace JournalInputPlaceIndex

variable {index : JournalInputPlaceIndex P} {entry : Entry P} {remove : Bool}

theorem change_of_domain {epoch : String} (hepoch : entry.domain = some epoch) :
    index.change localeCompare entry remove =
      let root := put localeCompare (index.epochTree epoch) entry remove
      let epochs := replaceRoot index.epochs epoch root
      if !root.isNil && epochs.keys.length = 1 && index.undomained = 0 then
        { index with epochs, all := root }
      else { index with epochs, all := put localeCompare index.all entry remove } := by
  simp only [change, hepoch]
  rfl

@[simp]
theorem entries_change (localeCompare : String → String → Ordering)
    (index : JournalInputPlaceIndex P) (entry : Entry P) (remove : Bool) :
    (index.change localeCompare entry remove).entries = index.entries := by
  unfold change
  split
  · dsimp only
    split_ifs <;> rfl
  · rfl

end JournalInputPlaceIndex

namespace Trees

variable {index : JournalInputPlaceIndex P} {members : Entry P → Prop} {entry : Entry P}
  {remove : Bool}

/-- With one epoch and nothing outside it, its tree holds all members. -/
theorem domain_of_single (htrees : Trees localeCompare index members)
    (hchanges : Changes members entry remove) {epoch : String}
    (hepoch : entry.domain = some epoch) {root : Node P} (hroot : root.isNil = false)
    (hone : (replaceRoot index.epochs epoch root).keys.length = 1)
    (hundomained : index.undomained = 0) {held : Entry P}
    (hheld : afterChange members entry remove held) : held.domain = some epoch := by
  rcases hheld with ⟨hmember, -⟩ | ⟨-, rfl⟩
  · obtain ⟨other, hother⟩ :=
      Option.ne_none_iff_exists'.mp (htrees.domain_ne_none hundomained hmember)
    obtain ⟨single, hsingle⟩ := length_eq_one_iff.mp hone
    have hkey : ∀ key, (replaceRoot index.epochs epoch root).lookup key ≠ none → key = single := by
      intro key hkey
      have hmem := AList.mem_keys.mp (AList.lookup_isSome.mp (Option.isSome_iff_ne_none.mpr hkey))
      rw [hsingle] at hmem
      exact mem_singleton.mp hmem
    have hepochKey : epoch = single := hkey epoch (by
      rw [lookup_replaceRoot, if_pos rfl, hroot]
      simp)
    have hotherKey : other = single := by
      by_cases hsame : other = epoch
      · rw [hsame, hepochKey]
      · refine hkey other ?_
        rw [lookup_replaceRoot, if_neg hsame]
        exact fun hnone => lookup_eq_none.mp hnone (htrees.mem_epochs hmember hother)
    rw [hother, hotherKey, hepochKey]
  · exact hepoch

variable [TransCmp localeCompare] [LawfulEqCmp localeCompare]

/-- Every update keeps every tree, whichever way the tree of all is kept. -/
theorem change (htrees : Trees localeCompare index members)
    (hchanges : Changes members entry remove) :
    Trees localeCompare (index.change localeCompare entry remove)
      (afterChange members entry remove) := by
  have hall := htrees.all.put remove hchanges.own
  have hcount := htrees.count_put hchanges
  cases hepoch : entry.domain with
  | none =>
    have hchange : index.change localeCompare entry remove =
        { index with
          undomained := index.undomained + if remove then -1 else 1
          all := put localeCompare index.all entry remove } := by
      rw [JournalInputPlaceIndex.change, hepoch]
    rw [hepoch, if_pos rfl] at hcount
    rw [hchange]
    refine ⟨hall, fun epoch => ?_, htrees.present, hcount.symm⟩
    exact (htrees.epochs epoch).congr (afterChange_other hchanges (by rw [hepoch]; rintro ⟨⟩))
  | some epoch =>
    have hroot := htrees.holds_root hchanges hepoch
    rw [JournalInputPlaceIndex.change_of_domain hepoch]
    dsimp only
    generalize put localeCompare (index.epochTree epoch) entry remove = root at hroot ⊢
    have hepochs : ∀ other, Holds localeCompare
        (((replaceRoot index.epochs epoch root).lookup other).getD .nil) fun held =>
          afterChange members entry remove held ∧ held.domain = some other := by
      intro other
      rw [replaceRoot_getD]
      split_ifs with hother
      · rw [hother]
        exact hroot
      · refine (htrees.epochs other).congr (afterChange_other hchanges ?_)
        rw [hepoch]
        exact fun heq => hother (Option.some.inj heq).symm
    have hpresent : ∀ other tree, (replaceRoot index.epochs epoch root).lookup other =
        some tree → tree.isNil = false := by
      intro other tree htree
      rw [lookup_replaceRoot] at htree
      split_ifs at htree with hother hnil
      · rw [← Option.some.inj htree]
        exact Bool.eq_false_iff.mpr hnil
      · exact htrees.present other tree htree
    split_ifs with hshared
    · rw [Bool.and_eq_true, Bool.and_eq_true, Bool.not_eq_true', decide_eq_true_iff,
        decide_eq_true_iff] at hshared
      obtain ⟨⟨hsome, hone⟩, hundomained⟩ := hshared
      have hdomain : ∀ held, afterChange members entry remove held →
          held.domain = some epoch := fun held =>
        htrees.domain_of_single hchanges hepoch hsome hone hundomained
      have hroots := hroot.congr fun held => and_iff_left_of_imp (hdomain held)
      refine ⟨hroots, hepochs, hpresent, ?_⟩
      have hnone : undomainedCount root.toList = 0 := by
        refine countP_eq_zero.mpr fun held hheld => ?_
        rw [hdomain held ((hroots.mem held).mp hheld)]
        simp
      exact hundomained.trans (by rw [hnone]; rfl)
    · refine ⟨hall, hepochs, hpresent, ?_⟩
      rw [hepoch, if_neg nofun, add_zero] at hcount
      exact hcount.symm

end Trees

/-! ## The current entries -/

/-- The table of the current entries: a call records an entry under an id in
place of the one there, or takes it out; a position or a summary that already
stands leaves it. -/
def recordCall (entries : OrderedMap String (Entry P)) :
    JournalInputPlaceIndex.Call P → OrderedMap String (Entry P)
  | .set card actionable handoff coordinate =>
    if card.state = .withdrawn then entries.erase card.messageId
    else
      OrderedMap.set (entries.erase card.messageId) card.messageId
        (JournalInputPlaceIndex.cardEntry card actionable handoff coordinate)
  | .setPosition id position tie coordinate =>
    let entry := JournalInputPlaceIndex.positionEntry id position tie coordinate
    if (entries.lookup id).any (JournalInputPlaceIndex.standsAt entry) then entries
    else OrderedMap.set (entries.erase id) id entry
  | .setSummary id sequence value tie =>
    if (entries.lookup id).any (JournalInputPlaceIndex.summarizes sequence value tie) then
      entries
    else
      OrderedMap.set (entries.erase id) id
        (JournalInputPlaceIndex.summaryEntry id sequence value tie)
  | .delete id => entries.erase id

def currentEntries (calls : List (JournalInputPlaceIndex.Call P)) : OrderedMap String (Entry P) :=
  calls.foldl recordCall ∅

def sortedEntries (localeCompare : String → String → Ordering)
    (calls : List (JournalInputPlaceIndex.Call P)) : List (Entry P) :=
  (currentEntries calls).values.insertionSort fun entry other =>
    (compare localeCompare entry other).isLE

def mergeAll (entries : List (Entry P)) : InputPlaceQuery P :=
  (entries.map Entry.toQuery).foldl mergeInputPlaces empty

/-- The trees hold exactly the recorded entries, each under its own id. -/
structure Indexed (localeCompare : String → String → Ordering)
    (index : JournalInputPlaceIndex P) : Prop where
  trees : Trees localeCompare index fun entry => index.entries.lookup entry.id = some entry
  keyed : ∀ id entry, index.entries.lookup id = some entry → entry.id = id

namespace Indexed

open JournalInputPlaceIndex

theorem init : Indexed localeCompare ({} : JournalInputPlaceIndex P) where
  trees :=
    { all := .nil fun entry => by simp
      epochs := fun epoch => .nil fun entry => by simp
      present := fun epoch tree htree => by simp at htree
      undomained := rfl }
  keyed id entry hentry := by simp at hentry

variable {index : JournalInputPlaceIndex P}

theorem entries_delete (index : JournalInputPlaceIndex P) (id : String) :
    (index.delete localeCompare id).entries = index.entries.erase id := by
  unfold JournalInputPlaceIndex.delete
  cases hprior : index.entries.lookup id with
  | none =>
    rw [OrderedMap.erase_of_not_mem (lookup_eq_none.mp hprior)]
  | some prior =>
    dsimp only
    rw [entries_change]

theorem entries_record (index : JournalInputPlaceIndex P) (id : String) (entry : Entry P) :
    (index.record localeCompare id entry).entries = index.entries.set id entry := by
  rw [JournalInputPlaceIndex.record, entries_change]

variable [TransCmp localeCompare] [LawfulEqCmp localeCompare]

section

variable (hindexed : Indexed localeCompare index)
include hindexed

theorem delete (id : String) : Indexed localeCompare (index.delete localeCompare id) := by
  refine ⟨?_, fun other entry hentry => ?_⟩
  · simp only [entries_delete]
    unfold JournalInputPlaceIndex.delete
    cases hprior : index.entries.lookup id with
    | none =>
      rw [OrderedMap.erase_of_not_mem (lookup_eq_none.mp hprior)]
      exact hindexed.trees
    | some prior =>
      have hid := hindexed.keyed id prior hprior
      have hchanges : Changes (fun entry => index.entries.lookup entry.id = some entry)
          prior true :=
        { own := fun held hheld hsame => by
            rw [hsame, hid, hprior] at hheld
            exact (Option.some.inj hheld).symm
          fresh := nofun
          held := fun _ => by rw [hid, hprior] }
      refine (hindexed.trees.change hchanges).withEntries _ fun held => ?_
      rw [afterChange, lookup_erase_eq, hid]
      simp [and_comm]
  · rw [entries_delete, lookup_erase_eq] at hentry
    split_ifs at hentry
    exact hindexed.keyed other entry hentry

theorem record {id : String} {entry : Entry P}
    (hfree : index.entries.lookup id = none) (hid : entry.id = id) :
    Indexed localeCompare (index.record localeCompare id entry) := by
  have hfresh : ∀ held, index.entries.lookup held.id = some held → held.id ≠ entry.id := by
    intro held hheld hsame
    rw [hsame, hid, hfree] at hheld
    cases hheld
  have hchanges : Changes (fun held => index.entries.lookup held.id = some held) entry false :=
    { own := fun held hheld hsame => absurd hsame (hfresh held hheld)
      fresh := fun _ => hfresh
      held := nofun }
  refine ⟨?_, fun other held hheld => ?_⟩
  · have htrees := (hindexed.trees.withEntries (index.entries.set id entry)
      fun _ => Iff.rfl).change hchanges
    rw [entries_record]
    refine htrees.withEntries _ fun held => ?_
    rw [afterChange, lookup_set, hid]
    split_ifs with hsame
    · simp only [hsame, ne_eq, not_true_eq_false, and_false, true_and, false_or, Option.some.injEq]
      exact eq_comm
    · have hne : held ≠ entry := fun heq => hsame (heq ▸ hid)
      simp [hsame, hne]
  · rw [entries_record, lookup_set] at hheld
    split_ifs at hheld with hsame
    · rw [← Option.some.inj hheld, hid, hsame]
    · exact hindexed.keyed other held hheld

theorem replace {id : String} {entry : Entry P} (hid : entry.id = id) : Indexed localeCompare
      ((index.delete localeCompare id).record localeCompare id entry) := by
  refine (hindexed.delete id).record ?_ hid
  rw [entries_delete, lookup_erase]

theorem apply (call : Call P) : Indexed localeCompare (index.apply localeCompare call) ∧
      (index.apply localeCompare call).entries = recordCall index.entries call := by
  cases call with
  | set card actionable handoff coordinate =>
    simp only [JournalInputPlaceIndex.apply, JournalInputPlaceIndex.set, recordCall]
    split_ifs with hwithdrawn
    · exact ⟨hindexed.delete _, entries_delete _ _⟩
    · exact ⟨hindexed.replace rfl, by rw [entries_record, entries_delete]⟩
  | setPosition id position tie coordinate =>
    simp only [JournalInputPlaceIndex.apply, setPosition, recordCall]
    split_ifs with hstands
    · exact ⟨hindexed, rfl⟩
    · exact ⟨hindexed.replace rfl, by rw [entries_record, entries_delete]⟩
  | setSummary id sequence value tie =>
    simp only [JournalInputPlaceIndex.apply, setSummary, recordCall]
    split_ifs with hsummarizes
    · exact ⟨hindexed, rfl⟩
    · exact ⟨hindexed.replace rfl, by rw [entries_record, entries_delete]⟩
  | delete id => exact ⟨hindexed.delete id, entries_delete _ _⟩

end

theorem after (localeCompare : String → String → Ordering) [TransCmp localeCompare]
    [LawfulEqCmp localeCompare] (calls : List (Call P)) :
    Indexed localeCompare (JournalInputPlaceIndex.after localeCompare calls) ∧
      (JournalInputPlaceIndex.after localeCompare calls).entries = currentEntries calls := by
  induction calls using List.reverseRecOn with
  | nil => exact ⟨init, rfl⟩
  | append_singleton calls call ih =>
    obtain ⟨hindexed, hentries⟩ := ih
    obtain ⟨hnext, hnextEntries⟩ := hindexed.apply call
    rw [JournalInputPlaceIndex.after, foldl_append, foldl_cons, foldl_nil]
    refine ⟨hnext, hnextEntries.trans ?_⟩
    rw [hentries, currentEntries, currentEntries, foldl_append]
    rfl

end Indexed

/-! ## The answers -/

section Answers

theorem total_eq_mergeAll (entries : List (Entry P)) :
    AvlTree.total Entry.toQuery entries = mergeAll entries :=
  prod_eq_foldl

theorem mem_sortedEntries {calls : List (JournalInputPlaceIndex.Call P)} {entry : Entry P} :
    entry ∈ sortedEntries localeCompare calls ↔
      ∃ id, (currentEntries calls).lookup id = some entry := by
  rw [sortedEntries, (perm_insertionSort _ _).mem_iff, mem_values]

theorem rising_cut {low : ℤ → Bool} (hdown : ∀ {before after}, before ≤ after →
    low after = true → low before = true) :
    AvlTree.Rising (compare localeCompare) fun entry : Entry P => low entry.sequence :=
  fun _ _ horder => hdown (sequence_le_of_compare horder)

variable [TransCmp localeCompare] [LawfulEqCmp localeCompare]

section

variable {calls : List (JournalInputPlaceIndex.Call P)}
  (hkeyed : ∀ id entry, (currentEntries calls).lookup id = some entry → entry.id = id)
include hkeyed

theorem ordered_sortedEntries :
    AvlTree.Ordered (compare localeCompare) (sortedEntries localeCompare calls) := by
  have hkeys : (currentEntries calls).values.map Entry.id = (currentEntries calls).keys := by
    rw [OrderedMap.values, map_map, AList.keys, List.keys]
    exact map_congr_left fun pair hpair =>
      hkeyed pair.1 pair.2 (mem_entries.mp hpair)
  have hnodup : ((currentEntries calls).values.map Entry.id).Nodup :=
    hkeys ▸ (currentEntries calls).keys_nodup
  exact AvlTree.ordered_insertionSort ((pairwise_map.mp hnodup).imp
    fun hne heq => hne (id_eq_of_compare heq))

theorem Holds.toList_eq {tree : Node P} {keep : Entry P → Bool}
    (hholds : Holds localeCompare tree fun entry =>
      (currentEntries calls).lookup entry.id = some entry ∧ keep entry = true) :
    tree.toList = (sortedEntries localeCompare calls).filter keep := by
  refine hholds.ordered.eq_of_mem_iff ((ordered_sortedEntries hkeyed).filter _) fun entry => ?_
  rw [hholds.mem, mem_filter, mem_sortedEntries]
  refine and_congr_left fun _ => ⟨fun hlookup => ⟨entry.id, hlookup⟩, ?_⟩
  rintro ⟨id, hlookup⟩
  rw [hkeyed id entry hlookup]
  exact hlookup

end

variable {index : JournalInputPlaceIndex P} {calls : List (JournalInputPlaceIndex.Call P)}

section

variable (hindexed : Indexed localeCompare index) (hentries : index.entries = currentEntries calls)
include hindexed hentries

theorem Indexed.toList_all : index.all.toList = sortedEntries localeCompare calls := by
  have hholds := hindexed.trees.all
  have hkeyed := hindexed.keyed
  rw [hentries] at hholds hkeyed
  let every (_ : Entry P) : Bool := true
  have hevery := hholds.congr fun entry =>
    (and_iff_left (rfl : every entry = true)).symm
  rw [Holds.toList_eq hkeyed hevery, filter_true]

theorem Indexed.toList_epochTree (epoch : String) : (index.epochTree epoch).toList =
      (sortedEntries localeCompare calls).filter fun entry => entry.domain = some epoch := by
  have hholds := hindexed.trees.epochs epoch
  have hkeyed := hindexed.keyed
  rw [hentries] at hholds hkeyed
  exact Holds.toList_eq hkeyed (hholds.congr fun entry => by rw [decide_eq_true_iff])

end

end Answers

open JournalInputPlaceIndex in
/-- After any sequence of calls each query is the fold, or the answer, over the
sorted list of the current entries it is about, and every tree is a
height-balanced search tree. -/
theorem placeIndex_spec (localeCompare : String → String → Ordering) [TransCmp localeCompare]
    [LawfulEqCmp localeCompare] (calls : List (Call P)) :
    let index := after localeCompare calls
    let current := sortedEntries localeCompare calls
    (∀ epoch sequence, index.query epoch sequence = mergeAll (current.filter fun entry =>
        entry.domain = some epoch && (entry.sequence : WithTop ℤ) < sequence)) ∧
    index.allPlaces = mergeAll current ∧
    (∀ sequence, index.maximumAfter sequence =
      (mergeAll (current.filter fun entry => sequence < entry.sequence)).maximum.map
        InputMaximum.id) ∧
    (∀ sequence, index.successorId sequence =
      (current.filter fun entry => sequence < entry.sequence).head?.map Entry.id) ∧
    (∀ sequence, index.idsAfter sequence =
      (current.filter fun entry => sequence < entry.sequence).map Entry.id) ∧
    index.lastId = current.getLast?.map Entry.id ∧
    index.firstPosition = (match current.head? with
        | none => ⊤
        | some entry => (entry.position : WithTop ℤ)) ∧
    index.isEmpty = current.isEmpty ∧
    ∀ tree, (tree = index.all ∨ ∃ epoch, index.epochs.lookup epoch = some tree) →
      tree.Balanced ∧ AvlTree.Ordered (compare localeCompare) tree.toList := by
  intro index current
  obtain ⟨hindexed, hentries⟩ := Indexed.after localeCompare calls
  have hall : index.all.toList = current := hindexed.toList_all hentries
  have hholds := hindexed.trees.all
  have hordered := hholds.ordered
  -- An entry is after a sequence when it is not at or before it.
  have hafter : ∀ sequence, (fun entry : Entry P => !decide (entry.sequence ≤ sequence)) =
      fun entry => decide (sequence < entry.sequence) := by
    intro sequence
    funext entry
    rw [← decide_not]
    exact decide_eq_decide.mpr Int.not_le
  have hupTo : ∀ sequence, AvlTree.Rising (compare localeCompare)
      fun entry : Entry P => decide (entry.sequence ≤ sequence) := fun sequence =>
    rising_cut fun hle hlow => decide_eq_true (hle.trans (of_decide_eq_true hlow))
  refine ⟨fun epoch sequence => ?_, ?_, fun sequence => ?_, fun sequence => ?_,
    fun sequence => ?_, ?_, ?_, ?_, ?_⟩
  · have hepoch := hindexed.trees.epochs epoch
    have hbefore : AvlTree.Rising (compare localeCompare) fun entry : Entry P =>
        decide ((entry.sequence : WithTop ℤ) < sequence) := rising_cut fun hle hlow =>
      decide_eq_true ((WithTop.coe_le_coe.mpr hle).trans_lt (of_decide_eq_true hlow))
    have htotal := AvlTree.totalLow_eq hbefore hepoch.sound.summed hepoch.ordered
    rw [hindexed.toList_epochTree hentries, total_eq_mergeAll, filter_filter] at htotal
    refine htotal.trans (congrArg mergeAll (filter_congr fun entry _ => ?_))
    exact Bool.and_comm ..
  · rw [allPlaces, hholds.sound.summed.result_eq, hall, total_eq_mergeAll]
  · rw [maximumAfter, AvlTree.totalHigh_eq (hupTo sequence) hholds.sound.summed hordered,
      hafter, hall, total_eq_mergeAll]
  · rw [successorId, AvlTree.firstHigh_eq none (hupTo sequence) hordered, hafter, hall,
      Option.or_none]
  · rw [idsAfter, AvlTree.listHigh_eq (hupTo sequence) hordered, hafter, hall]
  · rw [lastId, AvlTree.last_eq_getLast?, hall]
  · change (match index.all.first with
      | none => (⊤ : WithTop ℤ)
      | some entry => entry.position) = _
    rw [AvlTree.first_eq_head?, hall]
  · have hlength : current.length = index.entries.keys.length := by
      have hvalues := (perm_insertionSort (fun entry other : Entry P =>
        (compare localeCompare entry other).isLE) (currentEntries calls).values).length_eq
      rw [OrderedMap.values, length_map] at hvalues
      rw [hentries, AList.keys, List.keys, length_map]
      exact hvalues
    rw [JournalInputPlaceIndex.isEmpty, ← hlength, Bool.eq_iff_iff, decide_eq_true_iff,
      isEmpty_iff_length_eq_zero]
  · rintro tree (rfl | ⟨epoch, htree⟩)
    · exact ⟨hholds.sound.balanced, hordered⟩
    · have hepoch := hindexed.trees.epochs epoch
      rw [epochTree, htree, Option.getD_some] at hepoch
      exact ⟨hepoch.sound.balanced, hepoch.ordered⟩

/-- A card of one epoch, an input outside every epoch and a card of another. -/
def sampleCalls : List (JournalInputPlaceIndex.Call Unit) :=
  [.setPosition "first" 3 0 (some { epoch := "one", sequence := 7 }), .setSummary "second" 9 4 0,
    .setPosition "third" 5 0 (some { epoch := "two", sequence := 8 }),
    .delete "second",
    .setPosition "first" 4 0 (some { epoch := "two", sequence := 9 })]

theorem placeIndex_spec_sample :
    (JournalInputPlaceIndex.after Ord.compare sampleCalls).idsAfter 7 = ["third", "first"] :=
  ((placeIndex_spec Ord.compare sampleCalls).2.2.2.2.1 7).trans (by decide +kernel)

end Wakii.InputPlaces
