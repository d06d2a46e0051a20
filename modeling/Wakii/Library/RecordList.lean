import Mathlib.Data.List.Perm.Basic
import Mathlib.Data.List.Dedup

/-!
# Lists of records under keys

A list of records none of which has another's key is read by key.  Replacing,
removing and inserting a record leaves every other key and the order of the
other records alone; so does handing the places of some records out anew.
-/

namespace RecordList

open List

variable {R I : Type*} [DecidableEq I] (keyOf : R → I)

def IsKeyed (records : List R) : Prop := (records.map keyOf).Nodup

instance (records : List R) : Decidable (IsKeyed keyOf records) :=
  inferInstanceAs (Decidable (records.map keyOf).Nodup)

def lookup (key : I) (records : List R) : Option R := records.find? fun record => keyOf record = key

def without (keys : I → Bool) (records : List R) : List R :=
  records.filter fun record => !keys (keyOf record)

variable {keyOf} {records later : List R} {key other : I} {record : R}

omit [DecidableEq I] in
theorem without_congr {keys keys' : I → Bool} (hkeys : ∀ key, keys key = keys' key) :
    without keyOf keys records = without keyOf keys' records := by
  rw [funext hkeys]

omit [DecidableEq I] in
@[simp]
theorem without_append {keys : I → Bool} : without keyOf keys (records ++ later) =
    without keyOf keys records ++ without keyOf keys later := filter_append records later

omit [DecidableEq I] in
theorem without_cons {keys : I → Bool} (record : R) (rest : List R) :
    without keyOf keys (record :: rest) = if keys (keyOf record) then without keyOf keys rest
      else record :: without keyOf keys rest := by
  rw [without, filter_cons]
  cases keys (keyOf record) with
  | true => rfl
  | false => rfl

omit [DecidableEq I] in
theorem without_mono {keys keys' : I → Bool} (hkeys : ∀ key, keys key = true → keys' key = true)
    (hsame : without keyOf keys later = without keyOf keys records) :
    without keyOf keys' later = without keyOf keys' records := by
  have hwithout (list : List R) : without keyOf keys' list =
      (without keyOf keys list).filter fun record => !keys' (keyOf record) := by
    rw [without, without, filter_filter]
    refine filter_congr fun record _ => ?_
    cases hkey : keys (keyOf record) with
    | true => simp [hkeys _ hkey]
    | false => simp
  rw [hwithout, hsame, ← hwithout]

section Lookup

theorem lookup_cons (record : R) (rest : List R) : lookup keyOf key (record :: rest) =
    if keyOf record = key then some record else lookup keyOf key rest := by
  rw [lookup, find?_cons]
  by_cases hof : keyOf record = key
  · simp [hof]
  · simp [hof, lookup]

theorem keyOf_lookup (hfound : lookup keyOf key records = some record) : keyOf record = key := by
  rw [lookup] at hfound
  simpa using find?_some hfound

theorem mem_of_lookup (hfound : lookup keyOf key records = some record) : record ∈ records :=
  mem_of_find?_eq_some hfound

theorem lookup_eq_none :
    lookup keyOf key records = none ↔ ∀ record ∈ records, keyOf record ≠ key := by
  rw [lookup, find?_eq_none]
  simp

theorem lookup_eq_some (hkeyed : IsKeyed keyOf records) :
    lookup keyOf key records = some record ↔ record ∈ records ∧ keyOf record = key := by
  constructor
  · intro hfound
    exact ⟨mem_of_lookup hfound, keyOf_lookup hfound⟩
  · rintro ⟨hmem, rfl⟩
    cases hfound : lookup keyOf (keyOf record) records with
    | none => exact absurd rfl (lookup_eq_none.mp hfound record hmem)
    | some found =>
      rw [inj_on_of_nodup_map hkeyed (mem_of_lookup hfound) hmem (keyOf_lookup hfound)]

theorem lookup_isSome : (lookup keyOf key records).isSome = true ↔ key ∈ records.map keyOf := by
  rw [lookup, find?_isSome, mem_map]
  simp

theorem lookup_of_without {keys : I → Bool} (hsame : without keyOf keys later =
    without keyOf keys records) (hkey : keys key = false) :
    lookup keyOf key later = lookup keyOf key records := by
  have hwithout (records : List R) :
      lookup keyOf key (without keyOf keys records) = lookup keyOf key records := by
    rw [lookup, without, find?_filter]
    refine congrArg (fun p => records.find? p) ?_
    funext record
    by_cases hof : keyOf record = key
    · simp [hof, hkey]
    · simp [hof]
  rw [← hwithout later, hsame, hwithout]

theorem lookup_perm (hperm : later.Perm records) (hkeyed : IsKeyed keyOf records) :
    lookup keyOf key later = lookup keyOf key records := by
  have hlater : IsKeyed keyOf later := (hperm.map keyOf).nodup_iff.mpr hkeyed
  cases hfound : lookup keyOf key records with
  | none =>
    exact lookup_eq_none.mpr fun record hrecord =>
      lookup_eq_none.mp hfound record (hperm.mem_iff.mp hrecord)
  | some record =>
    obtain ⟨hmem, hof⟩ := (lookup_eq_some hkeyed).mp hfound
    exact (lookup_eq_some hlater).mpr ⟨hperm.mem_iff.mpr hmem, hof⟩

end Lookup

section Changes

/-- The list differs from another in the record of one key at most. -/
structure ChangesAt (keyOf : R → I) (key : I) (records later : List R) : Prop where
  others : without keyOf (· = key) later = without keyOf (· = key) records
  keyed : IsKeyed keyOf records → IsKeyed keyOf later

theorem ChangesAt.refl : ChangesAt keyOf key records records := ⟨rfl, id⟩

theorem ChangesAt.lookup_ne (hchanges : ChangesAt keyOf key records later) (hne : other ≠ key) :
    lookup keyOf other later = lookup keyOf other records :=
  lookup_of_without hchanges.others (decide_eq_false hne)

variable (keyOf) in
def remove (key : I) (records : List R) : List R := records.eraseP fun record => keyOf record = key

variable (keyOf) in
def replace (key : I) (f : R → R) : List R → List R
  | [] => []
  | record :: rest => if keyOf record = key then f record :: rest else record :: replace key f rest

theorem remove_cons (record : R) (rest : List R) : remove keyOf key (record :: rest) =
    if keyOf record = key then rest else record :: remove keyOf key rest := by
  rw [remove, eraseP_cons]
  by_cases hof : keyOf record = key
  · simp [hof]
  · simp [hof, remove]

theorem changesAt_remove : ChangesAt keyOf key records (remove keyOf key records) where
  others := by
    induction records with
    | nil => rfl
    | cons record rest ih =>
      by_cases hof : keyOf record = key
      · rw [remove_cons, if_pos hof]
        simp [without, hof]
      · rw [remove_cons, if_neg hof]
        simp only [without, filter_cons] at ih ⊢
        rw [ih]
  keyed hkeyed := hkeyed.sublist (eraseP_sublist.map keyOf)

theorem lookup_remove (hkeyed : IsKeyed keyOf records) :
    lookup keyOf key (remove keyOf key records) = none := by
  induction records with
  | nil => rfl
  | cons record rest ih =>
    rw [IsKeyed, map_cons, nodup_cons] at hkeyed
    rw [remove_cons]
    split_ifs with hof
    · refine lookup_eq_none.mpr fun other hother hsame => hkeyed.1 ?_
      rw [hof, ← hsame]
      exact mem_map_of_mem hother
    · rw [lookup_cons, if_neg hof]
      exact ih hkeyed.2

section

variable {f : R → R} (hf : ∀ record ∈ records, keyOf record = key → keyOf (f record) = key)
include hf

theorem map_replace : (replace keyOf key f records).map keyOf = records.map keyOf := by
  induction records with
  | nil => rfl
  | cons record rest ih =>
    rw [replace]
    split_ifs with hof
    · rw [map_cons, map_cons, hf record mem_cons_self hof, hof]
    · rw [map_cons, map_cons, ih fun other hother =>
        hf other (mem_cons_of_mem _ hother)]

theorem changesAt_replace : ChangesAt keyOf key records (replace keyOf key f records) where
  others := by
    induction records with
    | nil => rfl
    | cons record rest ih =>
      have hrest := ih fun other hother => hf other (mem_cons_of_mem _ hother)
      rw [replace]
      split_ifs with hof
      · simp [without, hof, hf record mem_cons_self hof]
      · simp only [without, filter_cons] at hrest ⊢
        rw [hrest]
  keyed hkeyed := by
    rw [IsKeyed, map_replace hf]
    exact hkeyed

theorem lookup_replace :
    lookup keyOf key (replace keyOf key f records) = (lookup keyOf key records).map f := by
  induction records with
  | nil => rfl
  | cons record rest ih =>
    have hrest := ih fun other hother => hf other (mem_cons_of_mem _ hother)
    rw [replace]
    split_ifs with hof
    · rw [lookup_cons, lookup_cons, if_pos hof, if_pos (hf record mem_cons_self hof)]
      rfl
    · rw [lookup_cons, lookup_cons, if_neg hof, if_neg hof, hrest]

end

theorem insertIdx_perm (records : List R) (index : ℕ) (hle : index ≤ records.length) :
    (records.insertIdx index record).Perm (record :: records) := perm_insertIdx record records hle

theorem filter_insertIdx {p : R → Bool} (hrecord : p record = false) (records : List R)
    (index : ℕ) : (records.insertIdx index record).filter p = records.filter p := by
  induction records generalizing index with
  | nil =>
    cases index with
    | zero => simp [hrecord]
    | succ index => rfl
  | cons head rest ih =>
    cases index with
    | zero => simp [hrecord]
    | succ index =>
      rw [insertIdx_succ_cons, filter_cons, filter_cons, ih]

theorem changesAt_insert {index : ℕ} (hle : index ≤ records.length)
    (hnone : lookup keyOf (keyOf record) records = none) :
    ChangesAt keyOf (keyOf record) records (records.insertIdx index record) where
  others := filter_insertIdx (by simp) records index
  keyed hkeyed := by
    have hperm := (@insertIdx_perm R record records index hle).map keyOf
    rw [IsKeyed, hperm.nodup_iff, map_cons, nodup_cons]
    refine ⟨fun hmem => ?_, hkeyed⟩
    obtain ⟨other, hother, hsame⟩ := mem_map.mp hmem
    exact lookup_eq_none.mp hnone other hother hsame

theorem lookup_insert {index : ℕ} (hle : index ≤ records.length) (hkeyed : IsKeyed keyOf records)
    (hnone : lookup keyOf (keyOf record) records = none) :
    lookup keyOf (keyOf record) (records.insertIdx index record) = some record := by
  refine (lookup_eq_some ((changesAt_insert hle hnone).keyed hkeyed)).mpr ⟨?_, rfl⟩
  exact (insertIdx_perm records index hle).mem_iff.mpr mem_cons_self

end Changes

section Runs

variable {step : List R → I → List R}

section

variable
  (hstep : ∀ records key, IsKeyed keyOf records → ChangesAt keyOf key records (step records key))
include hstep

theorem foldl_changes (hkeyed : IsKeyed keyOf records) (keys : List I) :
    IsKeyed keyOf (keys.foldl step records) ∧
      without keyOf (· ∈ keys) (keys.foldl step records) = without keyOf (· ∈ keys) records := by
  induction keys generalizing records with
  | nil => exact ⟨hkeyed, rfl⟩
  | cons key rest ih =>
    have hchanges := hstep records key hkeyed
    obtain ⟨hlast, hothers⟩ := ih (hchanges.keyed hkeyed)
    refine ⟨hlast, ?_⟩
    have hsplit (list : List R) : without keyOf (· ∈ key :: rest) list =
        (without keyOf (· = key) list).filter fun record => !decide (keyOf record ∈ rest) := by
      rw [without, without, filter_filter]
      refine filter_congr fun record _ => ?_
      rw [Bool.and_comm]
      simp
    have hsplit' (list : List R) : without keyOf (· ∈ key :: rest) list =
        (without keyOf (· ∈ rest) list).filter fun record => !decide (keyOf record = key) := by
      rw [without, without, filter_filter]
      refine filter_congr fun record _ => ?_
      simp
    rw [foldl_cons, hsplit', hothers, ← hsplit', hsplit, hchanges.others, ← hsplit]

/-- What each key finds in the end its own step made of what it found at first. -/
theorem lookup_foldl {found : I → Option R → Option R}
    (hfound : ∀ records key, IsKeyed keyOf records →
      lookup keyOf key (step records key) = found key (lookup keyOf key records))
    (hkeyed : IsKeyed keyOf records) {keys : List I} (hkeys : keys.Nodup) (key : I) :
    lookup keyOf key (keys.foldl step records) =
      if key ∈ keys then found key (lookup keyOf key records) else lookup keyOf key records := by
  induction keys generalizing records with
  | nil => rfl
  | cons head rest ih =>
    rw [nodup_cons] at hkeys
    have hchanges := hstep records head hkeyed
    rw [foldl_cons, ih (hchanges.keyed hkeyed) hkeys.2]
    rcases eq_or_ne key head with rfl | hne
    · rw [if_neg hkeys.1, if_pos mem_cons_self, hfound records key hkeyed]
    · rw [hchanges.lookup_ne hne]
      simp [hne]

end

end Runs

section Places

/-- The places of some records are handed out to a queue. -/
def handOut (placed : R → Bool) : List R → List R → List R
  | [], _ => []
  | record :: rest, queue =>
    if placed record then queue.headD record :: handOut placed rest queue.tail
    else record :: handOut placed rest queue

variable {placed : R → Bool} {queue : List R}

theorem filter_not_handOut (hqueue : ∀ record ∈ queue, placed record = true) (records : List R) :
    (handOut placed records queue).filter (!placed ·) = records.filter (!placed ·) := by
  induction records generalizing queue with
  | nil => rfl
  | cons record rest ih =>
    rw [handOut]
    split_ifs with hplaced
    · have hhead : placed (queue.headD record) = true := by
        cases queue with
        | nil => exact hplaced
        | cons head tail => exact hqueue head mem_cons_self
      have hrest := ih fun other hother => hqueue other (mem_of_mem_tail hother)
      rw [filter_cons, filter_cons, hhead, hplaced]
      exact hrest
    · rw [filter_cons, filter_cons, ih hqueue]

theorem filter_handOut (hqueue : ∀ record ∈ queue, placed record = true)
    (hlength : queue.length = (records.filter placed).length) :
    (handOut placed records queue).filter placed = queue := by
  induction records generalizing queue with
  | nil =>
    cases queue with
    | nil => rfl
    | cons head tail => cases hlength
  | cons record rest ih =>
    rw [handOut]
    split_ifs with hplaced
    · rw [filter_cons_of_pos hplaced, length_cons] at hlength
      cases queue with
      | nil => cases hlength
      | cons head tail =>
        rw [headD_cons, tail_cons, filter_cons_of_pos (hqueue head mem_cons_self),
          ih (fun other hother => hqueue other (mem_cons_of_mem _ hother))
            (Nat.succ.inj hlength)]
    · rw [filter_cons_of_neg hplaced] at hlength ⊢
      exact ih hqueue hlength

/-- A queue of the records that gave their places up is only their new order. -/
theorem handOut_perm (hqueue : queue.Perm (records.filter placed)) :
    (handOut placed records queue).Perm records := by
  have hplaced : ∀ record ∈ queue, placed record = true := fun record hrecord =>
    (mem_filter.mp (hqueue.mem_iff.mp hrecord)).2
  have hsplit (list : List R) :
      (list.filter placed ++ list.filter (!placed ·)).Perm list := filter_append_perm placed list
  refine (hsplit _).symm.trans ?_
  rw [filter_handOut hplaced hqueue.length_eq, filter_not_handOut hplaced]
  exact (hqueue.append_right _).trans (hsplit records)

def inOrderOf (keyOf : R → I) (ordered records : List R) : List R :=
  ordered.filterMap fun record => lookup keyOf (keyOf record) records

variable {ordered : List R}

theorem map_inOrderOf : (inOrderOf keyOf ordered records).map keyOf =
    (ordered.map keyOf).filter (· ∈ records.map keyOf) := by
  induction ordered with
  | nil => rfl
  | cons record rest ih =>
    rw [inOrderOf, filterMap_cons, map_cons, filter_cons]
    cases hfound : lookup keyOf (keyOf record) records with
    | none =>
      have hmissing : keyOf record ∉ records.map keyOf := fun hmem => by
        rw [← lookup_isSome, hfound] at hmem
        cases hmem
      rw [if_neg (by simpa using hmissing)]
      exact ih
    | some found =>
      have hthere : keyOf record ∈ records.map keyOf := by
        rw [← lookup_isSome, hfound]
        rfl
      rw [if_pos (by simpa using hthere), map_cons, keyOf_lookup hfound]
      exact congrArg (keyOf record :: ·) ih

theorem mem_inOrderOf (hkeyed : IsKeyed keyOf records) : record ∈ inOrderOf keyOf ordered records ↔
      record ∈ records.filter fun record => keyOf record ∈ ordered.map keyOf := by
  rw [inOrderOf, mem_filterMap, mem_filter, decide_eq_true_eq, mem_map]
  constructor
  · rintro ⟨first, hfirst, hfound⟩
    obtain ⟨hmem, hkey⟩ := (lookup_eq_some hkeyed).mp hfound
    exact ⟨hmem, first, hfirst, hkey.symm⟩
  · rintro ⟨hmem, first, hfirst, hkey⟩
    exact ⟨first, hfirst, (lookup_eq_some hkeyed).mpr ⟨hmem, hkey.symm⟩⟩

theorem inOrderOf_perm (hordered : IsKeyed keyOf ordered) (hkeyed : IsKeyed keyOf records) :
    (inOrderOf keyOf ordered records).Perm
      (records.filter fun record => keyOf record ∈ ordered.map keyOf) := by
  have hfirst : (inOrderOf keyOf ordered records).Nodup := by
    refine Nodup.of_map keyOf ?_
    rw [map_inOrderOf]
    exact hordered.filter _
  have hsecond : (records.filter fun record => keyOf record ∈ ordered.map keyOf).Nodup :=
    (Nodup.of_map keyOf hkeyed).filter _
  exact (perm_ext_iff_of_nodup hfirst hsecond).mpr fun record => mem_inOrderOf hkeyed

/-- The places of the records another list names are handed out in its order. -/
def reorder (keyOf : R → I) (ordered records : List R) : List R :=
  handOut (fun record => keyOf record ∈ ordered.map keyOf) records (inOrderOf keyOf ordered records)

theorem reorder_perm (hordered : IsKeyed keyOf ordered) (hkeyed : IsKeyed keyOf records) :
    (reorder keyOf ordered records).Perm records :=
  handOut_perm (inOrderOf_perm hordered hkeyed)

theorem without_reorder (hkeyed : IsKeyed keyOf records) {keys : I → Bool}
    (hkeys : ∀ key ∈ ordered.map keyOf, keys key = true) :
    without keyOf keys (reorder keyOf ordered records) = without keyOf keys records := by
  have hsplit (list : List R) : without keyOf keys list = (list.filter fun record =>
      !decide (keyOf record ∈ ordered.map keyOf)).filter fun record => !keys (keyOf record) := by
    rw [without, filter_filter]
    refine filter_congr fun record _ => ?_
    by_cases hnamed : keyOf record ∈ ordered.map keyOf
    · simp [hkeys _ hnamed]
    · simp [hnamed]
  have hplaced : ∀ record ∈ inOrderOf keyOf ordered records,
      decide (keyOf record ∈ ordered.map keyOf) = true := fun record hrecord =>
    (mem_filter.mp ((mem_inOrderOf hkeyed).mp hrecord)).2
  rw [hsplit, hsplit records]
  exact congrArg (List.filter _) (filter_not_handOut hplaced records)

end Places

section FirstOnes

def firstOnes (keys : List I) : List I := keys.foldl (fun seen key =>
  if key ∈ seen then seen else seen ++ [key]) []

theorem firstOnes_spec (keys seen : List I) (hseen : seen.Nodup) :
    (keys.foldl (fun seen key => if key ∈ seen then seen else seen ++ [key]) seen).Nodup ∧
      ∀ key, key ∈ keys.foldl (fun seen key => if key ∈ seen then seen else seen ++ [key]) seen ↔
        key ∈ seen ∨ key ∈ keys := by
  induction keys generalizing seen with
  | nil => exact ⟨hseen, fun key => by simp⟩
  | cons head rest ih =>
    rw [foldl_cons]
    split_ifs with hhead
    · refine ⟨(ih seen hseen).1, fun key => ?_⟩
      rw [(ih seen hseen).2 key, mem_cons]
      constructor
      · exact Or.imp_right Or.inr
      · rintro (hkey | rfl | hkey)
        · exact Or.inl hkey
        · exact Or.inl hhead
        · exact Or.inr hkey
    · have hnodup : (seen ++ [head]).Nodup := by
        refine nodup_append.mpr ⟨hseen, nodup_singleton head, ?_⟩
        rintro key hkey _ hother rfl
        rw [mem_singleton.mp hother] at hkey
        exact hhead hkey
      refine ⟨(ih _ hnodup).1, fun key => ?_⟩
      rw [(ih _ hnodup).2 key, mem_append, mem_singleton, mem_cons, or_assoc]

theorem nodup_firstOnes (keys : List I) : (firstOnes keys).Nodup :=
  (firstOnes_spec keys [] nodup_nil).1

@[simp]
theorem mem_firstOnes {keys : List I} : key ∈ firstOnes keys ↔ key ∈ keys := by
  rw [firstOnes, (firstOnes_spec keys [] nodup_nil).2]
  simp

end FirstOnes

end RecordList
