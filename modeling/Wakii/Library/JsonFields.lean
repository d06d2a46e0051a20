import Wakii.Library.JsonRoundTrip

/-!
# Fields assigned one after another

Assigning `undefined` to a property and deleting it leave the same JSON, so one
operation with an optional value does both.
-/

namespace Json

variable {N : Type} {key other : Text} {value : Option (Json N)} {fields : List (Text × Json N)}

def assign (key : Text) (value : Option (Json N)) (fields : List (Text × Json N)) :
    List (Text × Json N) :=
  match value with
  | some value => setField key value fields
  | none => fields.filter fun field => field.1 ≠ key

def assignAll (value : Text → Option (Json N)) (keys : List Text)
    (fields : List (Text × Json N)) : List (Text × Json N) :=
  keys.foldl (fun fields key => assign key (value key) fields) fields

theorem field?_cons (field : Text × Json N) (rest : List (Text × Json N)) :
    field? key (field :: rest) = if field.1 = key then some field.2 else field? key rest := by
  rw [field?, List.find?_cons]
  by_cases hkey : field.1 = key
  · simp [hkey]
  · simp [hkey, field?]

theorem field?_isSome : (field? key fields).isSome = true ↔ key ∈ fields.map Prod.fst := by
  rw [field?, Option.isSome_map, List.find?_isSome, List.mem_map]
  simp

theorem field?_eq_none : field? key fields = none ↔ key ∉ fields.map Prod.fst := by
  rw [← field?_isSome, Bool.not_eq_true, Option.isSome_eq_false_iff, Option.isNone_iff_eq_none]

theorem mem_of_field? {value : Json N} (hfound : field? key fields = some value) :
    (key, value) ∈ fields := by
  induction fields with
  | nil => cases hfound
  | cons field rest ih =>
    rw [field?_cons] at hfound
    split_ifs at hfound with hkey
    · obtain rfl := Option.some.inj hfound
      rw [← hkey]
      exact List.mem_cons_self
    · exact List.mem_cons_of_mem _ (ih hfound)

theorem field?_setField_of_ne {value : Json N} (hne : other ≠ key) :
    field? other (setField key value fields) = field? other fields := by
  induction fields with
  | nil => simp [setField, field?, Ne.symm hne]
  | cons field rest ih =>
    rw [setField]
    split_ifs with hkey
    · rw [field?_cons, field?_cons, if_neg (Ne.symm hne), if_neg (hkey.trans_ne (Ne.symm hne))]
    · rw [field?_cons, field?_cons, ih]

theorem field?_without : field? other (fields.filter fun field => field.1 ≠ key) =
      if other = key then none else field? other fields := by
  induction fields with
  | nil => simp [field?]
  | cons field rest ih =>
    rw [List.filter_cons]
    rcases eq_or_ne other key with rfl | hne
    · rw [if_pos rfl] at ih ⊢
      by_cases hkey : field.1 = other
      · rw [if_neg (by simpa using hkey), ih]
      · rw [if_pos (by simpa using hkey), field?_cons, if_neg hkey, ih]
    · rw [if_neg hne] at ih ⊢
      rw [field?_cons]
      by_cases hkey : field.1 = key
      · rw [if_neg (by simpa using hkey), ih, if_neg (hkey.trans_ne (Ne.symm hne))]
      · rw [if_pos (by simpa using hkey), field?_cons, ih]

@[simp]
theorem field?_assign :
    field? other (assign key value fields) =
      if other = key then value else field? other fields := by
  cases value with
  | none => exact field?_without
  | some value =>
    rcases eq_or_ne other key with rfl | hne
    · rw [if_pos rfl]
      exact field?_setField other value fields
    · rw [if_neg hne]
      exact field?_setField_of_ne hne

@[simp]
theorem field?_assignAll {value : Text → Option (Json N)} (keys : List Text) :
    field? other (assignAll value keys fields) =
      if other ∈ keys then value other else field? other fields := by
  induction keys generalizing fields with
  | nil => rfl
  | cons key rest ih =>
    rw [assignAll, List.foldl_cons, ← assignAll, ih, field?_assign]
    rcases eq_or_ne other key with rfl | hne
    · simp
    · simp [hne]

end Json
