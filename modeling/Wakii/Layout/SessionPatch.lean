import Wakii.Layout.OwnedEditorFile
import Wakii.Library.JsonFields
import Wakii.Library.RecordList

/-!
# Patching a stored session

A command's edits are the difference between the session as saved before it and
after it.  Only what differs is written onto the stored session: whole fields,
the records of maps and of lists, and in those the fields that changed.

Ids are strings by their types; a record with any other value there counts as
one without an id.  A key that is `undefined` counts as absent.
-/

namespace Wakii.SessionPatch

open Json OwnedEditorFile RecordList

abbrev Fields (N : Type) := List (Text × Json N)

variable {N : Type}

section Values

variable [DecidableEq N]

mutual
/-- Deep equality, for which the order of keys does not count. -/
@[simp] def sameJson : Json N → Json N → Bool
  | .null, .null => true
  | .bool left, .bool right => left = right
  | .number left, .number right => left = right
  | .string left, .string right => left = right
  | .array left, .array right => sameItems left right
  | .object left, .object right =>
    sameFields left right && right.all fun field => (field? field.1 left).isSome
  | _, _ => false

def sameItems : List (Json N) → List (Json N) → Bool
  | [], [] => true
  | left :: lefts, right :: rights => sameJson left right && sameItems lefts rights
  | _, _ => false

def sameFields : Fields N → Fields N → Bool
  | [], _ => true
  | (key, left) :: rest, rights =>
    (match field? key rights with
      | some right => sameJson left right
      | none => false) && sameFields rest rights
end

def same : Option (Json N) → Option (Json N) → Bool
  | none, none => true
  | some left, some right => sameJson left right
  | _, _ => false

def sameRecord (left right : Option (Fields N)) : Bool :=
  same (left.map .object) (right.map .object)

def changedKeys (before after : Fields N) : List Text :=
  (firstOnes (before.map Prod.fst ++ after.map Prod.fst)).filter fun key =>
    !same (field? key before) (field? key after)

end Values

def record? : Json N → Option (Fields N)
  | .object fields => some fields
  | _ => none

def asJson (value : Option (Json N)) : Fields N := (value.bind record?).getD []

def isRecord (value : Option (Json N)) : Bool := (value.bind record?).isSome

def asList : Option (Json N) → List (Fields N)
  | some (.array items) => items.filterMap record?
  | _ => []

def string? : Option (Json N) → Option Text
  | some (.string value) => some value
  | _ => none

section Ids

def recordId (record : Fields N) : Option Text := string? (field? (Text.ofString "id") record)

/-- A local and a runtime-environment file can share a path in a layout-owner build,
where a lone surrogate is an error: such a record has no id here. -/
def openFileId (ownerIsMain : Bool) (record : Fields N) : Option Text :=
  (string? (field? (Text.ofString "filePath") record)).bind fun filePath =>
    if ownerIsMain then
      ownedEditorFileId? filePath []
        (string? (field? (Text.ofString "runtimeEnvironmentId") record))
    else some filePath

def openFilesByWorktree : Text := Text.ofString "openFilesByWorktree"
def tabsByWorktree : Text := Text.ofString "tabsByWorktree"

/-- Per-workspace lists of records, matched by id rather than replaced whole. -/
def listFields (ownerIsMain : Bool) (field : Text) : Option (Fields N → Option Text) :=
  if field ∈ [tabsByWorktree, Text.ofString "unifiedTabs", Text.ofString "tabGroups",
      Text.ofString "browserTabsByWorktree"] then some recordId
  else if field = openFilesByWorktree then some (openFileId ownerIsMain)
  else none

end Ids

def mapRecordDepth : ℕ := 2

section Patching

variable [DecidableEq N]

/-- A record the stored partition lacks is written whole; a missing map is
patched key by key. -/
def patchValue : ℕ → Option (Json N) → Option (Json N) → Json N → Json N
  | depth + 1, stored, some (.object before), .object after =>
    if !isRecord stored && depth + 1 ≠ mapRecordDepth then .object after
    else
      .object (assignAll (fun key => (field? key after).map
        (patchValue depth (field? key (asJson stored)) (field? key before)))
        (changedKeys before after) (asJson stored))
  | _, _, _, after => after

variable [Zero N] (idOf : Fields N → Option Text)

/-- Behind the nearest record that precedes it in `after`. -/
def insertionIndex (result after : List (Fields N)) (position : ℕ) : ℕ :=
  match (after.take position).reverse.findSome? fun preceding =>
      result.findIdx? fun record => idOf record = idOf preceding with
  | some index => index + 1
  | none => if position = 0 then 0 else result.length

def withoutOrder (record : Fields N) : Fields N :=
  setField (Text.ofString "sortOrder") (.number 0) record

def onlyRenumbered (old : Option (Fields N)) (next : Fields N) : Bool :=
  old.any fun old => sameJson (.object (withoutOrder old)) (.object (withoutOrder next))

def kept (list other : List (Fields N)) : List (Option Text) :=
  (list.map idOf).filter (· ∈ other.map idOf)

/-- An unchanged relative order: renumbering only closed a removed record's gap. -/
def renumberedOnly (before after : List (Fields N)) : Bool :=
  kept idOf before after = kept idOf after before

/-- One id of `before` or `after` is brought into the list. -/
def patchId (before after : List (Fields N)) (result : List (Fields N)) (id : Option Text) :
    List (Fields N) :=
  let old := lookup idOf id before
  if sameRecord old (lookup idOf id after) then result
  else
    match lookup idOf id after with
    | none => remove idOf id result
    | some next =>
      if (lookup idOf id result).isSome then
        replace idOf id (fun record =>
          asJson (some (patchValue 1 (some (.object record)) (old.map .object) (.object next))))
          result
      -- load-supplied siblings that the command merely renumbered are not materialized
      else if renumberedOnly idOf before after && onlyRenumbered old next then result
      else
        result.insertIdx
          (insertionIndex idOf result after (after.findIdx fun record => idOf record = id)) next

def idsOf (before after : List (Fields N)) : List (Option Text) :=
  firstOnes (before.map idOf ++ after.map idOf)

def order (before after list : List (Fields N)) : List (Option Text) :=
  (list.map idOf).filter (· ∈ idsOf idOf before after)

def patchList (stored before after : List (Fields N)) : List (Fields N) :=
  let result := (idsOf idOf before after).foldl (patchId idOf before after) stored
  if order idOf before after before = order idOf before after after then result
  else
    -- the records the command reordered take the order of `after` in the slots they hold
    reorder idOf after result

def patchedList (stored before after : Option (Json N)) : Option (Json N) :=
  let list := patchList idOf (asList stored) (asList before) (asList after)
  if list.isEmpty && (after.isNone || stored.isNone) then none
  else some (.array (list.map .object))

def patchLists (stored before after : Fields N) : Fields N :=
  assignAll (fun key => patchedList idOf (field? key stored) (field? key before) (field? key after))
    (changedKeys before after) stored

/-- A dropped field takes the stored records the load never read with it. -/
def patchField (ownerIsMain : Bool) (stored before : Fields N) (field : Text) (after : Json N) :
    Json N :=
  match listFields ownerIsMain field with
  | some idOf =>
    .object (patchLists idOf (asJson (field? field stored)) (asJson (field? field before))
      (asJson (some after)))
  | none => patchValue mapRecordDepth (field? field stored) (field? field before) after

def patchRecords (ownerIsMain : Bool) (stored before after : Fields N) : Fields N :=
  assignAll (fun field => (field? field after).map (patchField ownerIsMain stored before field))
    (changedKeys before after) stored

end Patching

end Wakii.SessionPatch
