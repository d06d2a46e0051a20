import Wakii.Library.OrderedMap

/-!
# Changes recorded over an ordered map

A transaction that edits an ordered map can be told apart from its starting
content by two ordered key sets: the keys it touched and, among them, the keys
it created afresh.  `Overlay` states what those sets promise.  The main result,
`Overlay.replay_changes`, says that one change per touched key, replayed in
touch order, rebuilds the edited map with its iteration order.
-/

namespace OrderedCollections

open OrderedMap List AList OrderedSet

variable {K V : Type*} [DecidableEq K]

/-- What happened to one key: the value it is left with, if any, and whether
its place is a new one. -/
structure Change (K V : Type*) where
  key : K
  kept : Option V
  reinsert : Bool
deriving DecidableEq

namespace Change

/-- Clears the key's old place when the key is gone or placed anew. -/
def clear (change : Change K V) (map : OrderedMap K V) : OrderedMap K V :=
  if change.kept.isNone || change.reinsert then map.erase change.key else map

def replay (change : Change K V) (map : OrderedMap K V) : OrderedMap K V :=
  match change.kept with
  | none => change.clear map
  | some value => (change.clear map).set change.key value

theorem lookup_replay_ne (map : OrderedMap K V) (change : Change K V)
    {other : K} (hother : other ≠ change.key) :
    (change.replay map).lookup other = map.lookup other := by
  have hclear : (change.clear map).lookup other = map.lookup other := by
    rw [clear]
    split
    · exact lookup_erase_ne hother
    · rfl
  rw [replay]
  split
  · exact hclear
  · exact (lookup_set_ne _ _ hother).trans hclear

end Change

def replayAll (map : OrderedMap K V) (changes : List (Change K V)) : OrderedMap K V :=
  changes.foldl (fun map change => change.replay map) map

/-- The current map differs from its base only at touched keys; the fresh keys
stand behind the base's surviving keys, in the order they were touched. -/
structure Overlay (base current : OrderedMap K V)
    (fresh touched : OrderedSet K) : Prop where
  keys_eq : current.keys = base.keys.filter (fun key => key ∈ current ∧ key ∉ fresh) ++ fresh.elems
  lookup_eq : ∀ key, key ∉ touched → current.lookup key = base.lookup key
  order_eq : touched.elems.filter (· ∈ fresh) = fresh.elems

namespace Overlay

variable {base current : OrderedMap K V} {fresh touched : OrderedSet K}

section

variable (h : Overlay base current fresh touched) {key : K}
include h

theorem mem_touched (hkey : key ∈ fresh) : key ∈ touched := by
  rw [← mem_elems, ← h.order_eq, mem_filter] at hkey
  exact hkey.1

theorem mem_current (hkey : key ∈ fresh) : key ∈ current := by
  rw [AList.mem_keys, h.keys_eq]
  exact mem_append_right _ hkey

theorem mem_base (hkey : key ∈ current) (hfresh : key ∉ fresh) : key ∈ base := by
  rw [AList.mem_keys, h.keys_eq, mem_append] at hkey
  cases hkey with
  | inl hbase => exact (mem_filter.mp hbase).1
  | inr hkey => exact absurd hkey hfresh

end

/-- Nothing has happened yet. -/
theorem refl (base : OrderedMap K V) : Overlay base base ∅ ∅ where
  keys_eq := by
    rw [elems_empty, append_nil, eq_comm, filter_eq_self]
    intro key hkey
    simpa using mem_keys.mpr hkey
  lookup_eq := fun _ _ => rfl
  order_eq := rfl

private theorem filter_add_eq {touched fresh : OrderedSet K} {key : K}
    (hkey : key ∈ fresh → key ∈ touched) :
    (touched.add key).elems.filter (· ∈ fresh) = touched.elems.filter (· ∈ fresh) := by
  by_cases htouched : key ∈ touched
  · rw [elems_add_of_mem htouched]
  · rw [elems_add_of_not_mem htouched, filter_append]
    have hfresh : key ∉ fresh := fun h => htouched (hkey h)
    simp [hfresh]

section

variable (h : Overlay base current fresh touched)
include h

theorem erase (key : K) : Overlay base (current.erase key) (fresh.erase key) (touched.add key) where
  keys_eq := by
    rw [AList.keys_erase, current.keys_nodup.erase_eq_filter, h.keys_eq,
      filter_append, filter_filter, elems_erase,
      fresh.nodup.erase_eq_filter]
    congr 1
    refine filter_congr fun other _ => ?_
    by_cases hother : other = key <;> simp [hother]
  lookup_eq := by
    intro other hother
    rw [OrderedSet.mem_add, not_or] at hother
    rw [lookup_erase_ne hother.1]
    exact h.lookup_eq other hother.2
  order_eq := by
    rw [filter_add_eq (fun hkey => by simp at hkey), elems_erase, fresh.nodup.erase_eq_filter]
    conv_rhs => rw [← h.order_eq, filter_filter]
    refine filter_congr fun other _ => ?_
    by_cases hother : other = key <;> simp [hother]

theorem set_of_mem {key : K} (value : V) (hkey : key ∈ current) :
    Overlay base (current.set key value) fresh (touched.add key) where
  keys_eq := by
    rw [keys_set_of_mem value hkey]
    refine h.keys_eq.trans ?_
    congr 1
    refine filter_congr fun other _ => ?_
    by_cases hother : other = key
    · subst hother
      simp [hkey]
    · simp [hother]
  lookup_eq := by
    intro other hother
    rw [OrderedSet.mem_add, not_or] at hother
    rw [lookup_set_ne _ value hother.1]
    exact h.lookup_eq other hother.2
  order_eq := by
    rw [filter_add_eq h.mem_touched, h.order_eq]

theorem set_of_not_mem {key : K} (value : V) (hkey : key ∉ current) :
    Overlay base (current.set key value) (fresh.add key)
      ((touched.erase key).add key) := by
  have hfresh : key ∉ fresh := fun hmem => hkey (h.mem_current hmem)
  refine ⟨?_, ?_, ?_⟩
  · rw [keys_set_of_not_mem value hkey, elems_add_of_not_mem hfresh, ← append_assoc]
    refine congrArg (· ++ [key]) (h.keys_eq.trans ?_)
    congr 1
    refine filter_congr fun other _ => ?_
    by_cases hother : other = key
    · subst hother
      simp [hkey]
    · simp [hother]
  · intro other hother
    rw [OrderedSet.mem_add, OrderedSet.mem_erase, not_or, not_and] at hother
    rw [lookup_set_ne _ value hother.1]
    exact h.lookup_eq other (hother.2 hother.1)
  · have herased : key ∉ touched.erase key := by simp
    rw [elems_add_of_not_mem herased, filter_append, elems_add_of_not_mem hfresh, elems_erase,
      touched.nodup.erase_eq_filter, filter_filter, ← h.order_eq]
    congr 1
    · refine filter_congr fun other _ => ?_
      by_cases hother : other = key
      · subst hother
        simp [hfresh]
      · simp [hother]
    · simp

theorem mapValues {W : Type*} (f : K → V → W) :
    Overlay (base.mapValues f) (current.mapValues f) fresh touched where
  keys_eq := by
    rw [keys_mapValues, keys_mapValues]
    simpa using h.keys_eq
  lookup_eq := by
    intro key hkey
    rw [lookup_mapValues, lookup_mapValues, h.lookup_eq key hkey]
  order_eq := h.order_eq

end

def changes (current : OrderedMap K V) (fresh touched : OrderedSet K) : List (Change K V) :=
  touched.elems.map fun key =>
    { key, kept := current.lookup key, reinsert := decide (key ∈ fresh) }

/-- What holds of a map onto which the changes of the first touched keys have
been replayed. -/
private structure Replayed (base current : OrderedMap K V)
    (fresh : OrderedSet K) (done : List K) (map : OrderedMap K V) : Prop where
  keys_eq : map.keys = base.keys.filter
        (fun key => key ∉ done ∨ (key ∈ current ∧ key ∉ fresh)) ++
      done.filter (· ∈ fresh)
  lookup_eq : ∀ key, map.lookup key =
    if key ∈ done then current.lookup key else base.lookup key

private theorem Replayed.keys_erase {map : OrderedMap K V} {done : List K}
    {key : K} (hmap : Replayed base current fresh done map)
    (hdone : key ∉ done) :
    (map.erase key).keys = base.keys.filter (fun other => other ≠ key ∧
        (other ∉ done ∨ (other ∈ current ∧ other ∉ fresh))) ++
        done.filter (· ∈ fresh) := by
  rw [AList.keys_erase, map.keys_nodup.erase_eq_filter, hmap.keys_eq, filter_append, filter_filter]
  congr 1
  · refine filter_congr fun other _ => ?_
    by_cases hother : other = key <;> simp [hother, Bool.and_comm]
  · rw [filter_eq_self]
    intro other hother
    have hne : other ≠ key := by
      rintro rfl
      exact hdone (mem_filter.mp hother).1
    simpa using hne

section

variable (h : Overlay base current fresh touched)
include h

/-- One key's report is replayed. -/
private theorem replayed_step {done : List K} {key : K} {map : OrderedMap K V} (hdone : key ∉ done)
    (hmap : Replayed base current fresh done map) :
    Replayed base current fresh (done ++ [key])
      (Change.replay
        { key, kept := current.lookup key,
          reinsert := decide (key ∈ fresh) } map) := by
  by_cases hcurrent : key ∈ current
  · obtain ⟨value, hvalue⟩ := Option.isSome_iff_exists.mp (lookup_isSome.mpr hcurrent)
    by_cases hfresh : key ∈ fresh
    · -- A fresh key leaves its old place and goes to the end.
      have hreplay : Change.replay
          { key, kept := current.lookup key,
            reinsert := decide (key ∈ fresh) } map =
          OrderedMap.set (map.erase key) key value := by
        simp [Change.replay, Change.clear, hvalue, hfresh]
      rw [hreplay]
      refine ⟨?_, fun other => ?_⟩
      · rw [keys_set_of_not_mem value (by simp),
          hmap.keys_erase hdone, filter_append, ← append_assoc]
        congr 1
        · congr 1
          refine filter_congr fun other _ => ?_
          by_cases hother : other = key
          · subst hother
            simp [hfresh]
          · simp [hother]
        · simp [hfresh]
      · rw [lookup_set, lookup_erase_eq, hmap.lookup_eq other]
        by_cases hother : other = key
        · subst hother
          simp [hvalue]
        · simp [hother]
    · -- A kept key that is not fresh holds its place in the base.
      have hreplay : Change.replay
          { key, kept := current.lookup key,
            reinsert := decide (key ∈ fresh) } map = map.set key value := by
        simp [Change.replay, Change.clear, hvalue, hfresh]
      have hbase : key ∈ base := h.mem_base hcurrent hfresh
      have hmem : key ∈ map := by
        rw [AList.mem_keys, hmap.keys_eq]
        refine mem_append_left _ (mem_filter.mpr ⟨hbase, ?_⟩)
        simp [hdone]
      rw [hreplay]
      refine ⟨?_, fun other => ?_⟩
      · rw [keys_set_of_mem value hmem, hmap.keys_eq, filter_append]
        have hnil : [key].filter (· ∈ fresh) = [] := by simp [hfresh]
        rw [hnil, append_nil]
        congr 1
        refine filter_congr fun other _ => ?_
        by_cases hother : other = key
        · subst hother
          simp [hcurrent, hfresh]
        · simp [hother]
      · rw [lookup_set, hmap.lookup_eq other]
        by_cases hother : other = key
        · subst hother
          simp [hvalue]
        · simp [hother]
  · -- A key that is gone is erased.
    have hnone : current.lookup key = none := lookup_eq_none.mpr hcurrent
    have hfresh : key ∉ fresh := fun hmem => hcurrent (h.mem_current hmem)
    have hreplay : Change.replay
        { key, kept := current.lookup key,
          reinsert := decide (key ∈ fresh) } map = map.erase key := by
      simp [Change.replay, Change.clear, hnone]
    rw [hreplay]
    refine ⟨?_, fun other => ?_⟩
    · rw [hmap.keys_erase hdone, filter_append]
      have hnil : [key].filter (· ∈ fresh) = [] := by simp [hfresh]
      rw [hnil, append_nil]
      congr 1
      refine filter_congr fun other _ => ?_
      by_cases hother : other = key
      · subst hother
        simp [hcurrent]
      · simp [hother]
    · rw [lookup_erase_eq, hmap.lookup_eq other]
      by_cases hother : other = key
      · subst hother
        simp [hnone]
      · simp [hother]

private theorem replayed_run (rest done : List K) (map : OrderedMap K V)
    (hnodup : (done ++ rest).Nodup) (hmap : Replayed base current fresh done map) :
    Replayed base current fresh (done ++ rest)
      (replayAll map (rest.map fun key =>
        { key, kept := current.lookup key,
          reinsert := decide (key ∈ fresh) })) := by
  induction rest generalizing done map with
  | nil => simpa [replayAll] using hmap
  | cons key rest ih =>
    have hsplit : done ++ key :: rest = (done ++ [key]) ++ rest := by simp
    have hdone : key ∉ done := by
      rw [nodup_append] at hnodup
      exact fun hmem => hnodup.2.2 key hmem key mem_cons_self rfl
    rw [hsplit] at hnodup ⊢
    exact ih (done ++ [key]) _ hnodup (replayed_step h hdone hmap)

/-- Replaying one change per touched key over the base rebuilds the current
map, its order included. -/
theorem replay_changes : replayAll base (changes current fresh touched) = current := by
  have hstart : Replayed base current fresh [] base := by
    refine ⟨?_, fun key => ?_⟩
    · simp
    · simp
  have hend := replayed_run h touched.elems [] base touched.nodup hstart
  rw [nil_append] at hend
  refine ext_keys_lookup ?_ fun key => ?_
  · rw [changes, hend.keys_eq, h.order_eq, h.keys_eq]
    congr 1
    refine filter_congr fun key hkey => ?_
    by_cases htouched : key ∈ touched
    · simp [mem_elems, htouched]
    · have hcurrent : key ∈ current := by
        rw [← lookup_isSome, h.lookup_eq key htouched, lookup_isSome]
        exact hkey
      have hfresh : key ∉ fresh := fun hmem => htouched (h.mem_touched hmem)
      simp [hcurrent, hfresh]
  · rw [changes, hend.lookup_eq key]
    by_cases htouched : key ∈ touched
    · simp [mem_elems, htouched]
    · simp [mem_elems, htouched, h.lookup_eq key htouched]

end

end Overlay

end OrderedCollections
