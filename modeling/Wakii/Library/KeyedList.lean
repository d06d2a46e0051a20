import Mathlib.Data.List.Perm.Basic
import Mathlib.Data.List.Nodup

/-!
# Lists of entries that carry their own keys

An entry is replaced or removed by its key.  Where keys do not repeat, one
entry is concerned and the others stay, which the lemmas here say up to order.
-/

namespace KeyedLists

open List

variable {A B K : Type*} [DecidableEq K] (keyOf : A → K)

def replaceKeyed (entry : A) (entries : List A) : List A :=
  entries.map fun other => if keyOf other = keyOf entry then entry else other

def removeKeyed (key : K) (entries : List A) : List A :=
  entries.filter fun other => keyOf other ≠ key

@[simp]
theorem map_replaceKeyed (entry : A) (entries : List A) :
    (replaceKeyed keyOf entry entries).map keyOf = entries.map keyOf := by
  rw [replaceKeyed, map_map]
  apply map_congr_left
  intro other _
  by_cases hkey : keyOf other = keyOf entry
  · simp [hkey]
  · simp [hkey]

theorem map_removeKeyed (key : K) (entries : List A) :
    (removeKeyed keyOf key entries).map keyOf = (entries.map keyOf).filter (· ≠ key) := by
  rw [removeKeyed, filter_map]
  rfl

variable {key : K} {entries : List A}

theorem mem_removeKeyed {other : A} :
    other ∈ removeKeyed keyOf key entries ↔ other ∈ entries ∧ keyOf other ≠ key := by
  simp [removeKeyed]

theorem removeKeyed_of_not_mem (hkey : key ∉ entries.map keyOf) :
    removeKeyed keyOf key entries = entries := by
  rw [removeKeyed, filter_eq_self]
  intro other hother
  simpa using fun heq => hkey (mem_map.mpr ⟨other, hother, heq⟩)

theorem replaceKeyed_of_not_mem {entry : A} (hkey : keyOf entry ∉ entries.map keyOf) :
    replaceKeyed keyOf entry entries = entries := by
  have hself : entries.map (fun other => if keyOf other = keyOf entry then entry else other) =
      entries.map id := by
    apply map_congr_left
    intro other hother
    exact if_neg fun heq => hkey (mem_map.mpr ⟨other, hother, heq⟩)
  rw [replaceKeyed, hself, map_id]

theorem find?_of_mem (hkey : key ∈ entries.map keyOf) :
    ∃ entry, entries.find? (fun other => keyOf other = key) = some entry ∧ keyOf entry = key := by
  obtain ⟨entry, hentry, hentryKey⟩ := mem_map.mp hkey
  obtain ⟨found, hfound⟩ : ∃ found, entries.find? (fun other => keyOf other = key) = some found :=
    Option.isSome_iff_exists.mp (find?_isSome.mpr ⟨entry, hentry, by simpa using hentryKey⟩)
  exact ⟨found, hfound, by simpa using find?_some hfound⟩

theorem find?_of_not_mem (hkey : key ∉ entries.map keyOf) :
    entries.find? (fun other => keyOf other = key) = none := by
  rw [find?_eq_none]
  intro other hother heq
  exact hkey (mem_map.mpr ⟨other, hother, by simpa using heq⟩)

section Nodup

variable {entries : List A} (hnodup : (entries.map keyOf).Nodup)

include hnodup

theorem perm_cons_removeKeyed {entry : A} (hentry : entry ∈ entries) :
    entries.Perm (entry :: removeKeyed keyOf (keyOf entry) entries) := by
  induction entries with
  | nil => cases hentry
  | cons head tail ih =>
    rw [map_cons, nodup_cons] at hnodup
    rcases mem_cons.mp hentry with rfl | htail
    · rw [removeKeyed, filter_cons_of_neg (by simp)]
      rw [← removeKeyed, removeKeyed_of_not_mem keyOf hnodup.1]
    · have hhead : keyOf head ≠ keyOf entry := fun heq =>
        hnodup.1 (mem_map.mpr ⟨entry, htail, heq.symm⟩)
      rw [removeKeyed, filter_cons_of_pos (by simpa using hhead), ← removeKeyed]
      exact ((ih hnodup.2 htail).cons head).trans (List.Perm.swap _ _ _)

theorem replaceKeyed_perm {old entry : A} (hold : old ∈ entries) (hkey : keyOf entry = keyOf old) :
    (replaceKeyed keyOf entry entries).Perm (entry :: removeKeyed keyOf (keyOf old) entries) := by
  have hreplaced : entry ∈ replaceKeyed keyOf entry entries :=
    mem_map.mpr ⟨old, hold, if_pos hkey.symm⟩
  have hkeys : ((replaceKeyed keyOf entry entries).map keyOf).Nodup := by
    rw [map_replaceKeyed]
    exact hnodup
  have hrest : removeKeyed keyOf (keyOf entry) (replaceKeyed keyOf entry entries) =
      removeKeyed keyOf (keyOf entry) entries := by
    clear hnodup hold hreplaced hkeys
    induction entries with
    | nil => rfl
    | cons head tail ih =>
      by_cases hhead : keyOf head = keyOf entry
      · simpa [replaceKeyed, removeKeyed, hhead] using ih
      · simpa [replaceKeyed, removeKeyed, hhead] using ih
  rw [← hkey, ← hrest]
  exact perm_cons_removeKeyed keyOf hkeys hreplaced

theorem flatMap_perm {entry : A} (hentry : entry ∈ entries) (f : A → List B) :
    (entries.flatMap f).Perm (f entry ++ (removeKeyed keyOf (keyOf entry) entries).flatMap f) :=
  (perm_cons_removeKeyed keyOf hnodup hentry).flatMap_right f

theorem flatMap_replaceKeyed_perm {old entry : A} (hold : old ∈ entries)
    (hkey : keyOf entry = keyOf old) (f : A → List B) :
    ((replaceKeyed keyOf entry entries).flatMap f).Perm
      (f entry ++ (removeKeyed keyOf (keyOf old) entries).flatMap f) :=
  (replaceKeyed_perm keyOf hnodup hold hkey).flatMap_right f

end Nodup

theorem perm_filter_ne {keys : List K} (hnodup : keys.Nodup) (hkey : key ∈ keys) :
    keys.Perm (key :: keys.filter (· ≠ key)) :=
  perm_cons_removeKeyed id (by simpa using hnodup) hkey

end KeyedLists
