import Mathlib.Algebra.GroupWithZero.Nat
import Mathlib.Data.List.AList
import Mathlib.Data.List.Induction
import Mathlib.Data.List.Lattice

/-!
# Maps and sets that remember insertion order

A `Map` or `Set` of the modelled language iterates its keys in the order in
which they were first inserted: storing under a present key keeps its place,
and a deleted key that is stored again goes to the end.  Maps are Mathlib's
association lists with that `set`; sets are lists without repetition.  Two
maps are equal exactly when they agree on the key order and on every lookup,
which is the form every proof about them takes.
-/

namespace OrderedCollections

open Function Option List AList

variable {K V : Type*}

/-- A finite map together with the insertion order of its keys. -/
abbrev OrderedMap (K V : Type*) := AList (fun _ : K => V)

namespace OrderedMap

theorem ext_keys_lookup [DecidableEq K] {left right : OrderedMap K V}
    (hkeys : left.keys = right.keys)
    (hlookup : ∀ key, left.lookup key = right.lookup key) : left = right := by
  obtain ⟨leftEntries, hleft⟩ := left
  obtain ⟨rightEntries, hright⟩ := right
  simp only [AList.lookup] at hlookup
  simp only [keys_mk] at hkeys
  congr 1
  induction leftEntries generalizing rightEntries with
  | nil =>
    cases rightEntries with
    | nil => rfl
    | cons head tail => simp at hkeys
  | cons head tail ih =>
    cases rightEntries with
    | nil => simp at hkeys
    | cons head' tail' =>
      obtain ⟨key, value⟩ := head
      obtain ⟨key', value'⟩ := head'
      simp only [keys_cons, List.cons.injEq] at hkeys
      obtain ⟨rfl, htail⟩ := hkeys
      have hvalue := hlookup key
      simp only [dlookup_cons_eq, Option.some.injEq] at hvalue
      subst hvalue
      rw [nodupKeys_cons] at hleft hright
      rw [ih hleft.2 tail' hright.2 htail]
      intro other
      by_cases hother : other = key
      · subst hother
        rw [dlookup_eq_none.mpr hleft.1, dlookup_eq_none.mpr hright.1]
      · simpa [dlookup_cons_ne, hother] using hlookup other

variable [DecidableEq K]

def set (map : OrderedMap K V) (key : K) (value : V) : OrderedMap K V :=
  if hkey : key ∈ map then map.replace key value
  else ⟨map.entries ++ [⟨key, value⟩], by
    have hnodup := map.nodupKeys
    rw [AList.mem_keys, AList.keys] at hkey
    rw [List.NodupKeys, List.keys, map_append]
    exact List.Nodup.append hnodup (nodup_singleton _) (by simpa [List.keys] using hkey)⟩

variable {map : OrderedMap K V} {key : K}

theorem keys_set_of_mem (value : V) (hkey : key ∈ map) : (map.set key value).keys = map.keys := by
  rw [set, dif_pos hkey, keys_replace]

theorem keys_set_of_not_mem (value : V)
    (hkey : key ∉ map) : (map.set key value).keys = map.keys ++ [key] := by
  rw [set, dif_neg hkey]
  simp [AList.keys, List.keys]

private theorem dlookup_cons_of_ne {headKey other : K} (headValue : V)
    (tail : List (Sigma fun _ : K => V)) (hother : other ≠ headKey) :
    List.dlookup other (⟨headKey, headValue⟩ :: tail) = List.dlookup other tail :=
  dlookup_cons_ne tail ⟨headKey, headValue⟩ hother

private theorem dlookup_kreplace (key other : K) (value : V)
    (entries : List (Sigma fun _ : K => V)) :
    List.dlookup other (List.kreplace key value entries) =
      if other = key then (List.dlookup key entries).map fun _ => value
      else List.dlookup other entries := by
  induction entries with
  | nil => simp [List.kreplace, List.lookmap, List.lookmap.go]
  | cons head tail ih =>
    obtain ⟨headKey, headValue⟩ := head
    by_cases hhead : key = headKey
    · subst hhead
      have hstep : List.kreplace key value (⟨key, headValue⟩ :: tail) = ⟨key, value⟩ :: tail :=
        lookmap_cons_some _ _ (by simp)
      rw [hstep]
      by_cases hother : other = key
      · subst hother
        simp
      · simp [hother]
    · have hstep : List.kreplace key value (⟨headKey, headValue⟩ :: tail) =
          ⟨headKey, headValue⟩ :: List.kreplace key value tail :=
        lookmap_cons_none _ _ (by simp [hhead])
      rw [hstep]
      by_cases hother : other = headKey
      · subst hother
        simp [Ne.symm hhead]
      · rw [dlookup_cons_of_ne _ _ hother, dlookup_cons_of_ne _ _ hhead,
          dlookup_cons_of_ne _ _ hother, ih]

private theorem dlookup_append_singleton (key other : K) (value : V)
    {entries : List (Sigma fun _ : K => V)} (hkey : key ∉ entries.keys) :
    List.dlookup other (entries ++ [⟨key, value⟩]) =
      if other = key then some value else List.dlookup other entries := by
  induction entries with
  | nil =>
    by_cases hother : other = key
    · subst hother
      simp
    · simp [dlookup_cons_ne, hother]
  | cons head tail ih =>
    obtain ⟨headKey, headValue⟩ := head
    simp only [keys_cons, mem_cons, not_or] at hkey
    by_cases hother : other = headKey
    · subst hother
      simp [Ne.symm hkey.1]
    · rw [cons_append, dlookup_cons_of_ne _ _ hother, ih hkey.2, dlookup_cons_of_ne _ _ hother]

theorem lookup_set (map : OrderedMap K V) (key other : K) (value : V) :
    (map.set key value).lookup other =
      if other = key then some value else map.lookup other := by
  by_cases hkey : key ∈ map
  · obtain ⟨stored, hstored⟩ := isSome_iff_exists.mp (lookup_isSome.mpr hkey)
    rw [set, dif_pos hkey]
    change List.dlookup other (List.kreplace key value map.entries) = _
    rw [dlookup_kreplace]
    change map.entries.dlookup key = _ at hstored
    rw [hstored]
    rfl
  · rw [set, dif_neg hkey]
    exact dlookup_append_singleton key other value hkey

@[simp]
theorem lookup_set_self (map : OrderedMap K V) (key : K) (value : V) :
    (map.set key value).lookup key = some value := by
  rw [lookup_set, if_pos rfl]

theorem lookup_set_ne (map : OrderedMap K V) {key other : K} (value : V) (hother : other ≠ key) :
    (map.set key value).lookup other = map.lookup other := by
  rw [lookup_set, if_neg hother]

variable {value : V}

@[simp]
theorem mem_set {key other : K} : other ∈ map.set key value ↔ other = key ∨ other ∈ map := by
  rw [← lookup_isSome, lookup_set]
  by_cases hother : other = key
  · simp [hother]
  · simp [hother, lookup_isSome]

theorem lookup_erase_eq (map : OrderedMap K V) (key other : K) : (map.erase key).lookup other =
      if other = key then none else map.lookup other := by
  by_cases hother : other = key
  · rw [if_pos hother, hother, lookup_erase]
  · rw [if_neg hother, lookup_erase_ne hother]

theorem erase_of_not_mem (hkey : key ∉ map) : map.erase key = map := by
  refine ext_keys_lookup ?_ fun other => ?_
  · rw [keys_erase, List.erase_of_not_mem hkey]
  · by_cases hother : other = key
    · rw [hother, lookup_erase, lookup_eq_none.mpr hkey]
    · rw [lookup_erase_ne hother]

def eraseAll (map : OrderedMap K V) (keys : List K) : OrderedMap K V :=
  keys.foldl (fun map key => map.erase key) map

theorem mem_eraseAll {keys : List K} : key ∈ map.eraseAll keys ↔ key ∈ map ∧ key ∉ keys := by
  induction keys generalizing map with
  | nil => simp [eraseAll]
  | cons head tail ih =>
    have hcons : map.eraseAll (head :: tail) = OrderedMap.eraseAll (map.erase head) tail := rfl
    rw [hcons, ih, mem_erase, mem_cons, not_or]
    tauto

theorem lookup_eraseAll (map : OrderedMap K V) (keys : List K) (key : K) :
    (map.eraseAll keys).lookup key =
      if key ∈ keys then none else map.lookup key := by
  induction keys generalizing map with
  | nil => simp [eraseAll]
  | cons head tail ih =>
    have hcons : map.eraseAll (head :: tail) = OrderedMap.eraseAll (map.erase head) tail := rfl
    rw [hcons, ih, lookup_erase_eq]
    by_cases htail : key ∈ tail
    · simp [htail]
    · by_cases hhead : key = head <;> simp [htail, hhead]

omit [DecidableEq K] in
theorem eq_empty_of_forall_not_mem (hmap : ∀ key, key ∉ map) : map = ∅ := by
  refine AList.ext ?_
  have hkeys : map.keys = [] := eq_nil_iff_forall_not_mem.mpr hmap
  simpa [AList.keys, List.keys] using hkeys

/-- Builds a map by storing the pairs in turn, so the last value given for a
key wins and the first mention decides its place. -/
def ofPairs (pairs : List (K × V)) : OrderedMap K V :=
  pairs.foldl (fun map pair => map.set pair.1 pair.2) ∅

theorem ofPairs_append (pairs : List (K × V)) (key : K) (value : V) :
    ofPairs (pairs ++ [(key, value)]) = (ofPairs pairs).set key value := by
  rw [ofPairs, foldl_append]
  rfl

theorem mem_ofPairs {pairs : List (K × V)} : key ∈ ofPairs pairs ↔ key ∈ pairs.map Prod.fst := by
  induction pairs using List.reverseRecOn with
  | nil => simp [ofPairs]
  | append_singleton pairs pair ih =>
    obtain ⟨last, value⟩ := pair
    rw [ofPairs_append, mem_set, ih, map_append, mem_append, map_singleton, mem_singleton, or_comm]

theorem mem_of_lookup_ofPairs {pairs : List (K × V)}
    (hlookup : (ofPairs pairs).lookup key = some value) :
    (key, value) ∈ pairs := by
  induction pairs using List.reverseRecOn with
  | nil =>
    rw [ofPairs, foldl_nil, lookup_empty] at hlookup
    cases hlookup
  | append_singleton pairs pair ih =>
    obtain ⟨last, stored⟩ := pair
    rw [ofPairs_append, lookup_set] at hlookup
    rw [mem_append, mem_singleton]
    by_cases hkey : key = last
    · rw [if_pos hkey, Option.some.injEq] at hlookup
      exact Or.inr (by rw [hkey, hlookup])
    · rw [if_neg hkey] at hlookup
      exact Or.inl (ih hlookup)

def collect (pairs : List (K × V)) : OrderedMap K (List V) :=
  pairs.foldl (fun map pair => map.set pair.1 ((map.lookup pair.1).getD [] ++ [pair.2])) ∅

def collected (pairs : List (K × V)) (key : K) : List V :=
  (pairs.filter (·.1 = key)).map Prod.snd

theorem collect_append (pairs : List (K × V)) (key : K) (value : V) :
    collect (pairs ++ [(key, value)]) =
      (collect pairs).set key (((collect pairs).lookup key).getD [] ++ [value]) := by
  rw [collect, foldl_append]
  rfl

theorem getD_lookup_collect (pairs : List (K × V)) (key : K) :
    ((collect pairs).lookup key).getD [] = collected pairs key := by
  induction pairs using List.reverseRecOn with
  | nil => rfl
  | append_singleton pairs pair ih =>
    obtain ⟨last, value⟩ := pair
    rw [collect_append, lookup_set, collected, filter_append, map_append]
    by_cases hkey : key = last
    · subst hkey
      rw [if_pos rfl, getD_some, ih]
      simp [collected]
    · rw [if_neg hkey, ih]
      simp [collected, Ne.symm hkey]

theorem length_collected (pairs : List (K × V)) (key : K) :
    (collected pairs key).length = (pairs.map Prod.fst).count key := by
  induction pairs with
  | nil => rfl
  | cons pair pairs ih =>
    by_cases hkey : pair.1 = key
    · simpa [collected, hkey] using ih
    · simpa [collected, hkey] using ih

theorem mem_collect {pairs : List (K × V)} : key ∈ collect pairs ↔ key ∈ pairs.map Prod.fst := by
  induction pairs using List.reverseRecOn with
  | nil => simp [collect]
  | append_singleton pairs pair ih =>
    obtain ⟨last, value⟩ := pair
    rw [collect_append, mem_set, ih, map_append, mem_append, map_singleton, mem_singleton, or_comm]

def values (map : OrderedMap K V) : List V :=
  map.entries.map Sigma.snd

def pairs (map : OrderedMap K V) : List (K × V) :=
  map.entries.map fun entry => (entry.1, entry.2)

omit [DecidableEq K] in
theorem map_fst_pairs (map : OrderedMap K V) : map.pairs.map Prod.fst = map.keys := by
  simp [pairs, AList.keys, List.keys, comp_def]

theorem mem_pairs : (key, value) ∈ map.pairs ↔ map.lookup key = some value := by
  rw [← mem_def, mem_lookup_iff, pairs, List.mem_map]
  constructor
  · rintro ⟨⟨entryKey, entryValue⟩, hentry, heq⟩
    cases heq
    exact hentry
  · exact fun hentry => ⟨⟨key, value⟩, hentry, rfl⟩

def filterKeys (keep : K → Bool) (map : OrderedMap K V) : OrderedMap K V :=
  ofPairs (map.pairs.filter fun pair => keep pair.1)

theorem mem_filterKeys {keep : K → Bool} :
    key ∈ map.filterKeys keep ↔ keep key = true ∧ key ∈ map := by
  rw [filterKeys, mem_ofPairs, AList.mem_keys, ← map_fst_pairs, List.mem_map, List.mem_map]
  constructor
  · rintro ⟨pair, hpair, rfl⟩
    exact ⟨(mem_filter.mp hpair).2, pair, mem_of_mem_filter hpair, rfl⟩
  · rintro ⟨hkeep, pair, hpair, rfl⟩
    exact ⟨pair, mem_filter.mpr ⟨hpair, hkeep⟩, rfl⟩

theorem lookup_filterKeys (keep : K → Bool) (map : OrderedMap K V) (key : K) :
    (map.filterKeys keep).lookup key = if keep key then map.lookup key else none := by
  cases hlookup : (map.filterKeys keep).lookup key with
  | some value =>
    have hmem := mem_filter.mp (mem_of_lookup_ofPairs hlookup)
    rw [if_pos hmem.2, mem_pairs.mp hmem.1]
  | none =>
    split_ifs with hkeep
    · have hnone : map.lookup key = none := lookup_eq_none.mpr fun hin =>
        lookup_eq_none.mp hlookup (mem_filterKeys.mpr ⟨hkeep, hin⟩)
      exact hnone.symm
    · rfl

theorem mem_values : value ∈ map.values ↔ ∃ key, map.lookup key = some value := by
  have hvalues : map.values = map.pairs.map Prod.snd := by
    simp [values, pairs, comp_def]
  rw [hvalues, List.mem_map]
  constructor
  · rintro ⟨⟨key, stored⟩, hmem, rfl⟩
    exact ⟨key, mem_pairs.mp hmem⟩
  · rintro ⟨key, hlookup⟩
    exact ⟨(key, value), mem_pairs.mpr hlookup, rfl⟩

theorem pairs_eq_filterMap (map : OrderedMap K V) : map.pairs =
      map.keys.filterMap fun key => (map.lookup key).map (key, ·) := by
  obtain ⟨entries, hentries⟩ := map
  simp only [pairs, keys_mk, AList.lookup]
  induction entries with
  | nil => rfl
  | cons head tail ih =>
    obtain ⟨key, value⟩ := head
    rw [nodupKeys_cons] at hentries
    simp only [map_cons, keys_cons, filterMap_cons,
      dlookup_cons_eq, map_some, ih hentries.2, List.cons.injEq,
      true_and]
    refine filterMap_congr fun other hother => ?_
    rw [dlookup_cons_ne]
    exact fun heq => hentries.1 (heq ▸ hother)

theorem flatMap_pairs {A : Type*} (map : OrderedMap K V) (f : K × V → List A) :
    map.pairs.flatMap f =
      map.keys.flatMap fun key => ((map.lookup key).map fun value => f (key, value)).getD [] := by
  rw [pairs_eq_filterMap]
  induction map.keys with
  | nil => rfl
  | cons key keys ih =>
    rw [filterMap_cons, flatMap_cons, ← ih]
    cases map.lookup key <;> rfl

theorem mem_entries : ⟨key, value⟩ ∈ map.entries ↔ map.lookup key = some value := by
  rw [← mem_def, mem_lookup_iff]

theorem sum_pairs_single (map : OrderedMap K V) (key : K) (f : V → ℕ) :
    (map.pairs.map fun pair => if pair.1 = key then f pair.2 else 0).sum =
      ((map.lookup key).map f).getD 0 := by
  obtain ⟨entries, hentries⟩ := map
  simp only [pairs, AList.lookup]
  induction entries with
  | nil => rfl
  | cons head tail ih =>
    obtain ⟨other, value⟩ := head
    rw [nodupKeys_cons] at hentries
    rw [map_cons, map_cons, sum_cons, ih hentries.2]
    by_cases hsame : other = key
    · subst hsame
      have hnone : List.dlookup other tail = none := dlookup_eq_none.mpr hentries.1
      simp [hnone]
    · rw [if_neg hsame, Nat.zero_add, dlookup_cons_ne _ _ (Ne.symm hsame)]

/-- A symmetric relation holds throughout what the values list when it holds
within each value and between the values of any two keys. -/
theorem pairwise_flatMap_values {A : Type*} {R : A → A → Prop}
    (hsymm : ∀ left right, R left right → R right left) (f : V → List A)
    (map : OrderedMap K V) :
    (map.values.flatMap f).Pairwise R ↔
      (∀ key value, map.lookup key = some value → (f value).Pairwise R) ∧
      ∀ key key' value value', key ≠ key' → map.lookup key = some value →
        map.lookup key' = some value' → ∀ left ∈ f value, ∀ right ∈ f value', R left right := by
  have hvalues : map.values.flatMap f = map.entries.flatMap fun entry => f entry.2 := by
    simp [values, flatMap_map]
  rw [hvalues, pairwise_flatMap]
  constructor
  · rintro ⟨hwithin, hbetween⟩
    refine ⟨fun key value hlookup => hwithin ⟨key, value⟩ (mem_entries.mpr hlookup), ?_⟩
    intro key key' value value' hkeys hlookup hlookup'
    have hsymmetric : Std.Symm fun entry entry' : Sigma fun _ : K => V =>
        ∀ left ∈ f entry.2, ∀ right ∈ f entry'.2, R left right :=
      ⟨fun _ _ hpair left hleft right hright => hsymm right left (hpair right hright left hleft)⟩
    exact hbetween.forall (mem_entries.mpr hlookup) (mem_entries.mpr hlookup')
      fun heq => hkeys (congrArg Sigma.fst heq)
  · rintro ⟨hwithin, hbetween⟩
    refine ⟨fun entry hentry => hwithin entry.1 entry.2 (mem_entries.mp hentry), ?_⟩
    apply map.nodupKeys.nodup.pairwise_of_forall_ne
    intro entry hentry entry' hentry' hne
    have hkeys : entry.1 ≠ entry'.1 := fun heq =>
      hne (map.nodupKeys.eq_of_fst_eq hentry hentry' heq)
    exact hbetween entry.1 entry'.1 entry.2 entry'.2 hkeys (mem_entries.mp hentry)
      (mem_entries.mp hentry')

def mapValues {W : Type*} (f : K → V → W) (map : OrderedMap K V) : OrderedMap K W :=
  ⟨map.entries.map fun entry => ⟨entry.1, f entry.1 entry.2⟩, by
    simpa [List.NodupKeys, List.keys, comp_def] using map.nodupKeys⟩

section MapValues

variable {W : Type*} (f : K → V → W)

omit [DecidableEq K] in
@[simp]
theorem keys_mapValues (map : OrderedMap K V) : (map.mapValues f).keys = map.keys := by
  simp [mapValues, AList.keys, List.keys, comp_def]

omit [DecidableEq K] in
@[simp]
theorem mem_mapValues {map : OrderedMap K V} {key : K} : key ∈ map.mapValues f ↔ key ∈ map := by
  rw [AList.mem_keys, keys_mapValues, AList.mem_keys]

@[simp]
theorem lookup_mapValues (map : OrderedMap K V) (key : K) :
    (map.mapValues f).lookup key = (map.lookup key).map (f key) := by
  obtain ⟨entries, hentries⟩ := map
  change List.dlookup key (entries.map _) = (List.dlookup key entries).map _
  clear hentries
  induction entries with
  | nil => rfl
  | cons head tail ih =>
    obtain ⟨headKey, headValue⟩ := head
    by_cases hkey : key = headKey
    · subst hkey
      simp
    · rw [map_cons, dlookup_cons_of_ne _ _ hkey, ih, dlookup_cons_of_ne _ _ hkey]

theorem mapValues_set (map : OrderedMap K V) (key : K) (value : V) :
    (map.set key value).mapValues f = (map.mapValues f).set key (f key value) := by
  apply ext_keys_lookup
  · by_cases hkey : key ∈ map
    · rw [keys_mapValues, keys_set_of_mem value hkey,
        keys_set_of_mem _ ((mem_mapValues f).mpr hkey), keys_mapValues]
    · rw [keys_mapValues, keys_set_of_not_mem value hkey,
        keys_set_of_not_mem _ (mt (mem_mapValues f).mp hkey), keys_mapValues]
  · intro other
    rw [lookup_mapValues, lookup_set, lookup_set, lookup_mapValues]
    by_cases hother : other = key
    · subst hother
      simp
    · simp [hother]

theorem mapValues_erase (map : OrderedMap K V) (key : K) :
    OrderedMap.mapValues f (map.erase key) = (map.mapValues f).erase key := by
  apply ext_keys_lookup
  · rw [keys_mapValues, keys_erase, keys_erase, keys_mapValues]
  · intro other
    rw [lookup_mapValues, lookup_erase_eq, lookup_erase_eq, lookup_mapValues]
    by_cases hother : other = key <;> simp [hother]

theorem mapValues_injective (hinjective : ∀ key, Function.Injective (f key)) : Function.Injective
      (mapValues f : OrderedMap K V → OrderedMap K W) := by
  intro left right hmaps
  apply ext_keys_lookup
  · rw [← keys_mapValues f left, hmaps, keys_mapValues]
  · intro key
    have hlookup := congrArg (AList.lookup key) hmaps
    rw [lookup_mapValues, lookup_mapValues] at hlookup
    exact map_injective (hinjective key) hlookup

end MapValues

end OrderedMap

/-- A finite set together with the insertion order of its elements. -/
structure OrderedSet (K : Type*) where
  elems : List K
  nodup : elems.Nodup

namespace OrderedSet

instance : Membership K (OrderedSet K) := ⟨fun set key => key ∈ set.elems⟩

instance : EmptyCollection (OrderedSet K) := ⟨⟨[], nodup_nil⟩⟩

@[ext]
theorem ext {left right : OrderedSet K} (helems : left.elems = right.elems) : left = right := by
  cases left
  cases right
  cases helems
  rfl

variable {key : K} {set : OrderedSet K}

theorem mem_elems : key ∈ set.elems ↔ key ∈ set := Iff.rfl

@[simp]
theorem elems_empty : (∅ : OrderedSet K).elems = [] := rfl

@[simp]
theorem not_mem_empty (key : K) : key ∉ (∅ : OrderedSet K) := not_mem_nil

variable [DecidableEq K]

instance : DecidableEq (OrderedSet K) := fun left right =>
  decidable_of_iff (left.elems = right.elems)
    ⟨OrderedSet.ext, fun heq => heq ▸ rfl⟩

instance (key : K) (set : OrderedSet K) : Decidable (key ∈ set) :=
  inferInstanceAs (Decidable (key ∈ set.elems))

def add (set : OrderedSet K) (key : K) : OrderedSet K :=
  if hkey : key ∈ set.elems then set
  else ⟨set.elems ++ [key],
    set.nodup.append (nodup_singleton _) (by simpa using hkey)⟩

def erase (set : OrderedSet K) (key : K) : OrderedSet K :=
  ⟨set.elems.erase key, set.nodup.erase key⟩

theorem elems_add_of_mem (hkey : key ∈ set) : (set.add key).elems = set.elems := by
  rw [add, dif_pos (mem_elems.mpr hkey)]

theorem add_of_mem (hkey : key ∈ set) : set.add key = set := OrderedSet.ext (elems_add_of_mem hkey)

theorem elems_add_of_not_mem (hkey : key ∉ set) : (set.add key).elems = set.elems ++ [key] := by
  rw [add, dif_neg (mt mem_elems.mp hkey)]

@[simp]
theorem elems_erase (set : OrderedSet K) (key : K) :
    (set.erase key).elems = set.elems.erase key := rfl

@[simp]
theorem mem_add {key other : K} : other ∈ set.add key ↔ other = key ∨ other ∈ set := by
  by_cases hkey : key ∈ set
  · rw [← mem_elems, elems_add_of_mem hkey, mem_elems]
    constructor
    · exact Or.inr
    · rintro (rfl | hother)
      · exact hkey
      · exact hother
  · rw [← mem_elems, elems_add_of_not_mem hkey]
    simp [mem_elems, or_comm]

@[simp]
theorem mem_erase {key other : K} : other ∈ set.erase key ↔ other ≠ key ∧ other ∈ set :=
  set.nodup.mem_erase_iff

def toMap (set : OrderedSet K) : OrderedMap K Unit :=
  ⟨set.elems.map fun key => ⟨key, ()⟩, by
    simpa [List.NodupKeys, List.keys, comp_def] using set.nodup⟩

omit [DecidableEq K] in
@[simp]
theorem keys_toMap (set : OrderedSet K) : set.toMap.keys = set.elems := by
  simp [toMap, List.keys, comp_def]

omit [DecidableEq K] in
@[simp]
theorem mem_toMap : key ∈ set.toMap ↔ key ∈ set := by
  rw [AList.mem_keys, keys_toMap, mem_elems]

theorem erase_of_not_mem (hkey : key ∉ set) : set.erase key = set :=
  OrderedSet.ext (List.erase_of_not_mem hkey)

omit [DecidableEq K] in
theorem toMap_injective : Function.Injective (toMap : OrderedSet K → OrderedMap K Unit) := by
  intro left right hmaps
  ext : 1
  rw [← keys_toMap left, hmaps, keys_toMap]

theorem ext_of_toMap_keys {left right : OrderedMap K Unit}
    (hkeys : left.keys = right.keys) : left = right := by
  refine OrderedMap.ext_keys_lookup hkeys fun key => ?_
  by_cases hleft : key ∈ left
  · have hright : key ∈ right := by
      rw [AList.mem_keys, ← hkeys, ← AList.mem_keys]
      exact hleft
    rw [← lookup_isSome, isSome_iff_exists] at hleft hright
    obtain ⟨⟨⟩, hleft⟩ := hleft
    obtain ⟨⟨⟩, hright⟩ := hright
    rw [hleft, hright]
  · have hright : key ∉ right := by
      rw [AList.mem_keys, ← hkeys, ← AList.mem_keys]
      exact hleft
    rw [lookup_eq_none.mpr hleft, lookup_eq_none.mpr hright]

theorem exists_toMap_eq (map : OrderedMap K Unit) : ∃ set : OrderedSet K, set.toMap = map :=
  ⟨⟨map.keys, map.keys_nodup⟩, ext_of_toMap_keys (keys_toMap _)⟩

@[simp]
theorem toMap_add (set : OrderedSet K) (key : K) : (set.add key).toMap = set.toMap.set key () := by
  refine ext_of_toMap_keys ?_
  by_cases hkey : key ∈ set
  · rw [keys_toMap, elems_add_of_mem hkey,
      OrderedMap.keys_set_of_mem _ (mem_toMap.mpr hkey), keys_toMap]
  · rw [keys_toMap, elems_add_of_not_mem hkey,
      OrderedMap.keys_set_of_not_mem _ (mt mem_toMap.mp hkey), keys_toMap]

@[simp]
theorem toMap_erase (set : OrderedSet K) (key : K) :
    (set.erase key).toMap = set.toMap.erase key := by
  refine ext_of_toMap_keys ?_
  rw [keys_toMap, elems_erase, keys_erase, keys_toMap]

end OrderedSet

end OrderedCollections
