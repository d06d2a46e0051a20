import Wakii.Library.OrderedMap

/-!
# Counting the links of a map

A map links each of its keys to one target.  The keys linked to a target are
counted again after one key is linked elsewhere or let go.
-/

namespace OrderedCollections

open OrderedMap

variable {K V : Type*} [DecidableEq K] [DecidableEq V]

def linkCount (links : OrderedMap K V) (target : V) : ℕ :=
  links.keys.countP fun key => links.lookup key = some target

theorem linkCount_pos {links : OrderedMap K V} {target : V} :
    0 < linkCount links target ↔ ∃ key, links.lookup key = some target := by
  rw [linkCount, List.countP_pos_iff]
  constructor
  · rintro ⟨key, -, hkey⟩
    exact ⟨key, of_decide_eq_true hkey⟩
  · rintro ⟨key, hkey⟩
    have hmem : key ∈ links := AList.lookup_isSome.mp (by rw [hkey]; rfl)
    exact ⟨key, AList.mem_keys.mp hmem, decide_eq_true hkey⟩

theorem linkCount_eq_erase_add (links : OrderedMap K V) (key : K) (target : V) :
    linkCount links target = linkCount (links.erase key) target +
        if links.lookup key = some target then 1 else 0 := by
  have hrest : linkCount (links.erase key) target =
      (links.keys.erase key).countP fun other => links.lookup other = some target := by
    rw [linkCount, AList.keys_erase]
    refine List.countP_congr fun other hother => ?_
    have hne : other ≠ key := (links.keys_nodup.mem_erase_iff.mp hother).1
    rw [AList.lookup_erase_ne hne]
  rw [hrest]
  by_cases hkey : key ∈ links.keys
  · rw [linkCount, (List.perm_cons_erase hkey).countP_eq, List.countP_cons]
    simp only [decide_eq_true_eq]
  · have hnone : links.lookup key = none := AList.lookup_eq_none.mpr hkey
    rw [hnone, List.erase_of_not_mem hkey, linkCount]
    rfl

omit [DecidableEq V] in
theorem erase_set_eq (links : OrderedMap K V) (key : K) (target : V) :
    (OrderedMap.set links key target).erase key = links.erase key := by
  refine ext_keys_lookup ?_ fun other => ?_
  · rw [AList.keys_erase, AList.keys_erase]
    by_cases hkey : key ∈ links
    · rw [keys_set_of_mem _ hkey]
    · rw [keys_set_of_not_mem _ hkey, List.erase_append_right _ hkey]
      simp [List.erase_of_not_mem (show key ∉ links.keys from hkey)]
  · rw [lookup_erase_eq, lookup_erase_eq, lookup_set]
    split_ifs <;> rfl

theorem linkCount_set (links : OrderedMap K V) (key : K) (target other : V) :
    linkCount (links.set key target) other =
      linkCount (links.erase key) other + if target = other then 1 else 0 := by
  rw [linkCount_eq_erase_add _ key, erase_set_eq, lookup_set_self]
  simp only [Option.some.injEq]

end OrderedCollections
