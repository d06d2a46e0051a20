import Wakii.Layout.FoldedRows

/-!
# What a patch leaves alone

Every field, record and record field whose value is equal before and after a
command is stored as it was; every other one as the command left it.  Records
neither side names keep their content and their order.
-/

namespace Wakii.SessionPatch

open List Json OwnedEditorFile RecordList UriComponent

variable {N : Type} [DecidableEq N] {stored before after patched : Fields N}

section Equality

theorem sameFields_field? {left right : Fields N} (hsame : sameFields left right = true)
    {key : Text} {value : Json N} (hvalue : field? key left = some value) :
    ∃ other, field? key right = some other ∧ sameJson value other = true := by
  induction left with
  | nil => cases hvalue
  | cons field rest ih =>
    obtain ⟨name, first⟩ := field
    rw [sameFields, Bool.and_eq_true] at hsame
    rw [field?_cons] at hvalue
    split_ifs at hvalue with hname
    · obtain rfl : name = key := hname
      obtain rfl := Option.some.inj hvalue
      cases hother : field? name right with
      | none =>
        rw [hother] at hsame
        cases hsame.1
      | some other =>
        rw [hother] at hsame
        exact ⟨other, rfl, hsame.1⟩
    · exact ih hsame.2 hvalue

theorem same_field? (hsame : sameJson (.object before) (.object after) = true) (key : Text) :
    same (field? key before) (field? key after) = true := by
  rw [sameJson, Bool.and_eq_true, all_eq_true] at hsame
  obtain ⟨hleft, hright⟩ := hsame
  cases hbefore : field? key before with
  | some value =>
    obtain ⟨other, hother, hvalue⟩ := sameFields_field? hleft hbefore
    rw [hother]
    exact hvalue
  | none =>
    cases hafter : field? key after with
    | none => rfl
    | some value =>
      have hthere := hright _ (mem_of_field? hafter)
      rw [hbefore] at hthere
      cases hthere

@[simp]
theorem mem_changedKeys {key : Text} : key ∈ changedKeys before after ↔
    same (field? key before) (field? key after) = false := by
  rw [changedKeys, mem_filter, mem_firstOnes, mem_append, Bool.not_eq_true']
  refine and_iff_right_of_imp fun hdiffers => ?_
  by_contra hmissing
  rw [not_or] at hmissing
  rw [field?_eq_none.mpr hmissing.1, field?_eq_none.mpr hmissing.2] at hdiffers
  cases hdiffers

theorem changedKeys_eq_nil (hsame : sameJson (.object before) (.object after) = true) :
    changedKeys before after = [] :=
  eq_nil_iff_forall_not_mem.mpr fun key hkey => by
    rw [mem_changedKeys, same_field? hsame key] at hkey
    cases hkey

theorem field?_patched {value : Text → Option (Json N)} (key : Text) :
    field? key (assignAll value (changedKeys before after) stored) =
      if same (field? key before) (field? key after) then field? key stored else value key := by
  rw [field?_assignAll]
  cases hsame : same (field? key before) (field? key after) with
  | true => rw [if_neg (by simp [hsame]), if_pos rfl]
  | false => rw [if_pos (by simp [hsame]), if_neg (by simp)]

end Equality

section Records

def PatchesFields (stored before after patched : Fields N) : Prop :=
  ∀ key, field? key patched =
    if same (field? key before) (field? key after) then field? key stored else field? key after

theorem patchValue_record : ∃ patched,
    patchValue 1 (some (.object stored)) (some (.object before)) (.object after) =
      .object patched ∧ PatchesFields stored before after patched := by
  refine ⟨_, rfl, fun key => ?_⟩
  rw [field?_patched]
  have hvalue : (field? key after).map (patchValue 0 (field? key stored) (field? key before)) =
      field? key after := by
    cases field? key after with
    | none => rfl
    | some value => rfl
  split_ifs
  · rfl
  · exact hvalue

theorem patchValue_whole {stored before : Option (Json N)} {after : Json N}
    (hwhole : ¬ (isRecord stored ∧ isRecord before ∧ isRecord (some after))) :
    patchValue 1 stored before after = after := by
  unfold patchValue
  split
  next stored _ _ _ _ depth old next hdepth =>
    have hstored : isRecord stored = false := by
      by_contra hrecord
      exact hwhole ⟨by simpa using hrecord, rfl, rfl⟩
    obtain rfl : depth = 0 := by omega
    rw [hstored]
    rfl
  next => rfl

end Records

section Ids

/-- A mixture of a record with one that has the same id, and whose id tells, has
that id too. -/
def KeepsIds (named : Fields N → Prop) (idOf : Fields N → Option Text) : Prop :=
  ∀ record next mixed : Fields N, named next → idOf record = idOf next →
    (∀ key, field? key mixed = field? key record ∨ field? key mixed = field? key next) →
    idOf mixed = idOf next

/-- In a layout-owner build an open file has an id: a path, and no lone surrogate
in it or in its runtime, on which an error is thrown. -/
def HasId (ownerIsMain : Bool) (field : Text) (record : Fields N) : Prop :=
  ownerIsMain = true → field = openFilesByWorktree → (openFileId true record).isSome = true

omit [DecidableEq N] in
theorem keepsIds_recordId {named : Fields N → Prop} : KeepsIds named (recordId (N := N)) := by
  intro record next mixed _ hids hmixed
  rcases hmixed (Text.ofString "id") with hkey | hkey
  · rw [recordId, hkey]
    exact hids
  · rw [recordId, hkey]
    rfl

def runtimeKey (runtimeEnvironmentId : Option Text) : Option Text :=
  let trimmed := Text.trim (runtimeEnvironmentId.getD [])
  UriComponent.encodeURIComponent (if trimmed = [] then Text.ofString "local" else trimmed)

theorem ownedEditorFileId?_eq (filePath : Text) (runtimeEnvironmentId : Option Text) :
    ownedEditorFileId? filePath [] runtimeEnvironmentId =
      (runtimeKey runtimeEnvironmentId).bind fun runtime =>
        (UriComponent.encodeURIComponent filePath).map fun file =>
          Text.ofString "editor::" ++ (runtime ++ Json.colon :: file) := by
  rw [ownedEditorFileId?, runtimeKey]
  cases UriComponent.encodeURIComponent filePath with
  | none => rfl
  | some file => rfl

theorem ownedEditorFileId?_inj {filePath filePath' id : Text}
    {environment environment' : Option Text}
    (hid : ownedEditorFileId? filePath [] environment = some id)
    (hid' : ownedEditorFileId? filePath' [] environment' = some id) :
    runtimeKey environment = runtimeKey environment' ∧
      UriComponent.encodeURIComponent filePath = UriComponent.encodeURIComponent filePath' := by
  rw [ownedEditorFileId?_eq, Option.bind_eq_some_iff] at hid hid'
  obtain ⟨runtime, hruntime, hwritten⟩ := hid
  obtain ⟨runtime', hruntime', hwritten'⟩ := hid'
  obtain ⟨file, hfile, rfl⟩ := Option.map_eq_some_iff.mp hwritten
  obtain ⟨file', hfile', hsame⟩ := Option.map_eq_some_iff.mp hwritten'
  obtain ⟨hkeys, -, hfiles⟩ := (append_cons_inj_of_notMem (colon_not_mem_encoded hruntime')
    (colon_not_mem_encoded hfile')).mp (append_cancel_left hsame)
  rw [hruntime, hruntime', hfile, hfile', hkeys, hfiles]
  exact ⟨rfl, rfl⟩

omit [DecidableEq N] in
theorem keepsIds_openFileId (ownerIsMain : Bool) :
    KeepsIds (HasId ownerIsMain openFilesByWorktree) (openFileId (N := N) ownerIsMain) := by
  intro record next mixed hnamed hids hmixed
  have hpath := hmixed (Text.ofString "filePath")
  cases ownerIsMain with
  | false =>
    have hread (record : Fields N) : openFileId false record =
        string? (field? (Text.ofString "filePath") record) := Option.bind_fun_some _
    rw [hread, hread] at hids
    rw [hread, hread]
    rcases hpath with hkey | hkey
    · rw [hkey, hids]
    · rw [hkey]
  | true =>
    obtain ⟨id, hnext⟩ := Option.isSome_iff_exists.mp (hnamed rfl rfl)
    obtain ⟨path', hpath', hid'⟩ := Option.bind_eq_some_iff.mp hnext
    obtain ⟨path, hpathOf, hid⟩ := Option.bind_eq_some_iff.mp (hids.trans hnext)
    obtain ⟨hruntime, hencoded⟩ := ownedEditorFileId?_inj hid hid'
    have hmixedRuntime :
        runtimeKey (string? (field? (Text.ofString "runtimeEnvironmentId") mixed)) =
          runtimeKey (string? (field? (Text.ofString "runtimeEnvironmentId") next)) := by
      rcases hmixed (Text.ofString "runtimeEnvironmentId") with hkey | hkey
      · rw [hkey]
        exact hruntime
      · rw [hkey]
    have hwritten : ∀ file : Text,
        UriComponent.encodeURIComponent file = UriComponent.encodeURIComponent path' →
        ownedEditorFileId? file []
          (string? (field? (Text.ofString "runtimeEnvironmentId") mixed)) = some id := by
      intro file hfile
      rw [ownedEditorFileId?_eq, hmixedRuntime, hfile, ← ownedEditorFileId?_eq]
      exact hid'
    rw [hnext]
    rcases hpath with hkey | hkey
    · exact Option.bind_eq_some_iff.mpr ⟨path, by rw [hkey, hpathOf], hwritten path hencoded⟩
    · exact Option.bind_eq_some_iff.mpr ⟨path', by rw [hkey, hpath'], hwritten path' rfl⟩

omit [DecidableEq N] in
theorem keepsIds_listFields {ownerIsMain : Bool} {field : Text} {idOf : Fields N → Option Text}
    (hfield : listFields ownerIsMain field = some idOf) :
    KeepsIds (HasId ownerIsMain field) idOf := by
  rw [listFields] at hfield
  split_ifs at hfield with _ hfiles
  · obtain rfl := Option.some.inj hfield
    exact keepsIds_recordId
  · obtain rfl := Option.some.inj hfield
    rw [hfiles]
    exact keepsIds_openFileId ownerIsMain

end Ids

section Lists

variable {named : Fields N → Prop} {idOf : Fields N → Option Text} {id : Option Text}

def replaced (old : Option (Fields N)) (next record : Fields N) : Fields N :=
  asJson (some (patchValue 1 (some (.object record)) (old.map .object) (.object next)))

theorem replaced_none (next record : Fields N) : replaced none next record = next := rfl

theorem replaced_some (old next record : Fields N) :
    PatchesFields record old next (replaced (some old) next record) := by
  obtain ⟨patched, hpatched, hfields⟩ := @patchValue_record N _ record old next
  rw [replaced, Option.map_some, hpatched]
  exact hfields

theorem idOf_replaced (hids : KeepsIds named idOf) {old : Option (Fields N)}
    {next record : Fields N} (hnext : named next) (hrecord : idOf record = idOf next) :
    idOf (replaced old next record) = idOf next := by
  cases old with
  | none => rw [replaced_none]
  | some old =>
    refine hids record next _ hnext hrecord fun key => ?_
    rw [replaced_some old next record key]
    split_ifs
    · exact Or.inl rfl
    · exact Or.inr rfl

omit [DecidableEq N] in
theorem insertionIndex_le (result after : List (Fields N)) (position : ℕ) :
    insertionIndex idOf result after position ≤ result.length := by
  rw [insertionIndex]
  split
  next index hfound =>
    obtain ⟨preceding, _, hindex⟩ := exists_of_findSome?_eq_some hfound
    exact (findIdx?_eq_some_iff_findIdx_eq.mp hindex).1
  next =>
    split_ifs
    · exact Nat.zero_le _
    · exact le_rfl

variable [Zero N] {before after result : List (Fields N)}

/-- What the list finds under a named id once it was brought in. -/
def brought (idOf : Fields N → Option Text) (before after : List (Fields N)) (id : Option Text)
    (stored : Option (Fields N)) : Option (Fields N) :=
  if sameRecord (lookup idOf id before) (lookup idOf id after) then stored
  else
    match lookup idOf id after, stored with
    | none, _ => none
    | some next, some record => some (replaced (lookup idOf id before) next record)
    | some next, none =>
      if renumberedOnly idOf before after && onlyRenumbered (lookup idOf id before) next then none
      else some next

theorem patchId_spec (hids : KeepsIds named idOf) (hnamed : ∀ next ∈ after, named next)
    (hkeyed : IsKeyed idOf result) :
    ChangesAt idOf id result (patchId idOf before after result id) ∧
      lookup idOf id (patchId idOf before after result id) =
        brought idOf before after id (lookup idOf id result) := by
  unfold patchId brought
  dsimp only
  cases hsame : sameRecord (lookup idOf id before) (lookup idOf id after) with
  | true => exact ⟨ChangesAt.refl, rfl⟩
  | false =>
    cases hnext : lookup idOf id after with
    | none => exact ⟨changesAt_remove, lookup_remove hkeyed⟩
    | some next =>
      have hid : idOf next = id := keyOf_lookup hnext
      cases hfound : lookup idOf id result with
      | some record =>
        have hreplaced : ∀ record ∈ result, idOf record = id →
            idOf (replaced (lookup idOf id before) next record) = id := fun record _ hrecord =>
          
          (idOf_replaced hids (hnamed next (mem_of_lookup hnext))
            (hrecord.trans hid.symm)).trans hid
        refine ⟨changesAt_replace hreplaced, ?_⟩
        exact (lookup_replace hreplaced).trans (by rw [hfound]; rfl)
      | none =>
        simp only [Option.isSome_none, Bool.false_eq_true, if_false]
        cases hrenumbered : renumberedOnly idOf before after &&
            onlyRenumbered (lookup idOf id before) next with
        | true => exact ⟨ChangesAt.refl, hfound⟩
        | false =>
          obtain rfl := hid
          have hle := @insertionIndex_le N idOf result after
            (after.findIdx fun record => idOf record = idOf next)
          exact ⟨changesAt_insert hle hfound, lookup_insert hle hkeyed hfound⟩

theorem brought_of_same {stored : Option (Fields N)}
    (hsame : sameRecord (lookup idOf id before) (lookup idOf id after) = true) :
    brought idOf before after id stored = stored := if_pos hsame

omit [DecidableEq N] [Zero N] in
theorem lookup_eq_none_of_unnamed {list : List (Fields N)} (hid : id ∉ list.map idOf) :
    lookup idOf id list = none :=
  lookup_eq_none.mpr fun _ hrecord hof => hid (mem_map.mpr ⟨_, hrecord, hof⟩)

theorem brought_of_unnamed {stored : Option (Fields N)} (hid : id ∉ idsOf idOf before after) :
    brought idOf before after id stored = stored := by
  rw [idsOf, mem_firstOnes, mem_append, not_or] at hid
  refine brought_of_same ?_
  rw [lookup_eq_none_of_unnamed hid.1, lookup_eq_none_of_unnamed hid.2]
  rfl

variable {stored : List (Fields N)}

def isNamed (idOf : Fields N → Option Text) (before after : List (Fields N)) (id : Option Text) :
    Bool := id ∈ idsOf idOf before after

theorem broughtIn_spec (hids : KeepsIds named idOf) (hnamed : ∀ next ∈ after, named next)
    (hkeyed : IsKeyed idOf stored) :
    IsKeyed idOf ((idsOf idOf before after).foldl (patchId idOf before after) stored) ∧
      without idOf (isNamed idOf before after)
          ((idsOf idOf before after).foldl (patchId idOf before after) stored) =
        without idOf (isNamed idOf before after) stored ∧
      ∀ id, lookup idOf id ((idsOf idOf before after).foldl (patchId idOf before after) stored) =
        brought idOf before after id (lookup idOf id stored) := by
  have hchanges : ∀ result id, IsKeyed idOf result →
      ChangesAt idOf id result (patchId idOf before after result id) := fun result id hresult =>
    (patchId_spec hids hnamed hresult).1
  obtain ⟨hlast, hothers⟩ := foldl_changes hchanges hkeyed (idsOf idOf before after)
  refine ⟨hlast, (without_congr fun id => ?_).trans (hothers.trans (without_congr fun id => ?_)),
    fun id => ?_⟩
  · exact decide_eq_decide.mpr Iff.rfl
  · exact decide_eq_decide.mpr Iff.rfl
  refine (lookup_foldl hchanges
    (fun result id hresult => (patchId_spec hids hnamed hresult).2) hkeyed
    (nodup_firstOnes _) id).trans ?_
  split_ifs with hid
  · rfl
  · exact (brought_of_unnamed hid).symm

theorem patchList_spec (hids : KeepsIds named idOf) (hnamed : ∀ next ∈ after, named next)
    (hkeyed : IsKeyed idOf stored) (hafter : IsKeyed idOf after) :
    IsKeyed idOf (patchList idOf stored before after) ∧
      without idOf (isNamed idOf before after) (patchList idOf stored before after) =
        without idOf (isNamed idOf before after) stored ∧
      ∀ id, lookup idOf id (patchList idOf stored before after) =
        brought idOf before after id (lookup idOf id stored) := by
  obtain ⟨hlast, hothers, hlookup⟩ := 
    @broughtIn_spec N _ named idOf _ before after stored hids hnamed hkeyed
  rw [patchList]
  split_ifs
  · exact ⟨hlast, hothers, hlookup⟩
  · have hperm := reorder_perm hafter hlast
    have hnamed : ∀ id ∈ after.map idOf, isNamed idOf before after id = true :=
      fun id hid => decide_eq_true (mem_firstOnes.mpr (mem_append_right _ hid))
    refine ⟨(hperm.map idOf).nodup_iff.mpr hlast, ?_, fun id => ?_⟩
    · rw [without_reorder hlast hnamed, hothers]
    · rw [lookup_perm hperm hlast, hlookup]

structure PatchesRecords (idOf : Fields N → Option Text)
    (stored before after patched : List (Fields N)) : Prop where
  keyed : IsKeyed idOf patched
  /-- A record equal before and after is as stored. -/
  kept : ∀ id, sameRecord (lookup idOf id before) (lookup idOf id after) = true →
    lookup idOf id patched = lookup idOf id stored
  gone : ∀ id old, lookup idOf id before = some old → lookup idOf id after = none →
    lookup idOf id patched = none
  changed : ∀ id old next record,
    sameRecord (lookup idOf id before) (lookup idOf id after) = false →
    lookup idOf id before = some old → lookup idOf id after = some next →
    lookup idOf id stored = some record →
    ∃ fields, lookup idOf id patched = some fields ∧ PatchesFields record old next fields
  /-- A record that is new, or that the stored list lacks, is written whole, but
  for one that was merely renumbered. -/
  written : ∀ id next, sameRecord (lookup idOf id before) (lookup idOf id after) = false →
    lookup idOf id after = some next →
    lookup idOf id before = none ∨ lookup idOf id stored = none →
    (lookup idOf id stored = none → (renumberedOnly idOf before after &&
      onlyRenumbered (lookup idOf id before) next) = false) →
    lookup idOf id patched = some next
  /-- The records neither list names, in their order. -/
  unnamed : without idOf (isNamed idOf before after) patched =
    without idOf (isNamed idOf before after) stored

theorem patchList_patches (hids : KeepsIds named idOf) (hnamed : ∀ next ∈ after, named next)
    (hkeyed : IsKeyed idOf stored) (hafter : IsKeyed idOf after) :
    PatchesRecords idOf stored before after (patchList idOf stored before after) := by
  obtain ⟨hlast, hothers, hlookup⟩ := 
    @patchList_spec N _ named idOf _ before after stored hids hnamed hkeyed hafter
  refine
    { keyed := hlast
      kept := fun id hsame => by rw [hlookup, brought_of_same hsame]
      gone := fun id old hold hnone => ?_
      changed := fun id old next record hdiffers hold hnext hrecord => ?_
      written := fun id next hdiffers hnext hcase hrenumbered => ?_
      unnamed := hothers }
  · rw [hlookup]
    unfold brought
    rw [hold, hnone]
    rfl
  · refine ⟨replaced (some old) next record, ?_, replaced_some old next record⟩
    rw [hlookup]
    unfold brought
    rw [hdiffers, hold, hnext, hrecord]
    rfl
  · rw [hlookup]
    unfold brought
    rw [hdiffers, hnext]
    cases hrecord : lookup idOf id stored with
    | none =>
      simp only [Bool.false_eq_true, if_false]
      rw [hrenumbered hrecord]
      rfl
    | some record =>
      rcases hcase with hold | hnone
      · rw [hold]
        rfl
      · rw [hrecord] at hnone
        cases hnone

end Lists

end Wakii.SessionPatch
