import Mathlib.Data.String.Basic
import Wakii.Layout.LayoutTrees

/-!
# Ratios sent as changes

A window sends the ratios it changed, each with the path of its split and the
first leaf on either side.  Setting one disturbs no direction, leaf or place, so
the changes between two trees of one shape still find their splits when they are
applied one after another.
-/

namespace Wakii.SplitRatios

open List SplitTrees Wakii.CommandTypes Wakii.LayoutModel Wakii.LayoutTrees

/-! ## Paths -/

open String in
private theorem splitOnAux_dot (left part rest : List Char) (parts : List String) :
    splitOnAux (ofList (left ++ part ++ rest)) "." ⟨utf8Len left⟩ ⟨utf8Len (left ++ part)⟩ 0 parts =
      parts.reverse ++ (List.splitOnPPrepend (· == '.') rest part.reverse).map ofList := by
  have hpart := extract_of_valid left part rest
  rw [← utf8Len_append] at hpart
  rw [splitOnAux]
  cases rest with
  | nil =>
    rw [if_pos ((atEnd_of_valid _ _).mpr rfl), hpart]
    simp
  | cons c rest =>
    have hend := mt (atEnd_of_valid (left ++ part) (c :: rest)).mp (cons_ne_nil c rest)
    have hnext := next_of_valid (left ++ part) c rest
    rw [if_neg hend, get_of_valid, splitOnPPrepend_cons_eq_if]
    by_cases hc : c = '.'
    · subst hc
      have ih := splitOnAux_dot (left ++ part ++ ['.']) [] rest (ofList part :: parts)
      rw [List.append_nil, List.append_assoc, List.singleton_append, utf8Len_append] at ih
      rw [hnext]
      refine (congrArg (fun text => splitOnAux _ "." _ _ 0 (text :: parts)) hpart).trans ?_
      exact ih.trans (by simp)
    · have ih := splitOnAux_dot left (part ++ [c]) rest parts
      rw [← List.append_assoc, utf8Len_append, utf8Len_cons, utf8Len_nil, Nat.zero_add,
        List.append_assoc, List.singleton_append] at ih
      have hdot : ¬(c == '.') = true := by simpa using hc
      refine (if_neg hdot).trans ?_
      refine (congrArg (fun next => splitOnAux _ "." _ next 0 parts) hnext).trans ?_
      exact ih.trans (by simp [hc])

theorem splitOn_dot (text : String) :
    text.splitOn "." = (text.toList.splitOn '.').map String.ofList := by
  have hparts := splitOnAux_dot [] [] text.toList []
  simpa [String.splitOn, splitOn_eq_splitOnP] using hparts

def childPath (path segment : String) : String :=
  if path = "" then segment else path ++ "." ++ segment

theorem segmentsOf_childPath (path : String) {segment : String} (hsegment : segment ≠ "")
    (hdot : '.' ∉ segment.toList) :
    segmentsOf (childPath path segment) = segmentsOf path ++ [segment] := by
  have hparts : segment.toList.splitOn '.' = [segment.toList] := splitOn_eq_singleton hdot
  by_cases hpath : path = ""
  · simp [childPath, segmentsOf, hpath, hsegment, splitOn_dot, hparts]
  · simp [childPath, segmentsOf, hpath, splitOn_dot, splitOn_append_cons_self, hparts]

/-! ## What changed -/

/-- How the splits of a kind of tree keep their ratio. -/
structure RatioField (S P : Type) where
  directionOf : S → String
  ratioOf : S → Option P
  /-- What a missing ratio means. -/
  even : P
  savedRatio : P → Option P
  withRatio : S → P → S
  directionOf_withRatio : ∀ data ratio, directionOf (withRatio data ratio) = directionOf data
  ratioOf_withRatio : ∀ data ratio, ratioOf (withRatio data ratio) = savedRatio ratio

variable {P S : Type} (field : RatioField S P)

def identityOf (data : S) (first second : SplitTree String S) : SplitIdentity :=
  ⟨field.directionOf data, first.leading, second.leading⟩

/-- Compares the ratios of trees with the same shape. -/
def changedSplitRatios [DecidableEq P] :
    SplitTree String S → SplitTree String S → String → List (SplitRatioIntent P)
  | .split before beforeFirst beforeSecond, .split after afterFirst afterSecond, path =>
    let ratio := (field.ratioOf after).getD field.even
    (if (field.ratioOf before).getD field.even ≠ ratio then
        [{ path, ratio, split := some (identityOf field after afterFirst afterSecond) }]
      else []) ++
      changedSplitRatios beforeFirst afterFirst (childPath path "first") ++
      changedSplitRatios beforeSecond afterSecond (childPath path "second")
  | _, _, _ => []

def identityAt : List String → SplitTree String String → Option SplitIdentity
  | _, .leaf _ => none
  | [], .split direction first second => some ⟨direction, first.leading, second.leading⟩
  | segment :: rest, .split _ first second =>
    if segment = "first" then identityAt rest first
    else if segment = "second" then identityAt rest second
    else none

def leadsToItsSplit (intent : SplitRatioIntent P) (segments : List String)
    (directions : SplitTree String String) : Bool :=
  (identityAt segments directions).any fun identity => intent.split.all (· = identity)

def shapeOf (root : SplitTree String S) : SplitTree String String :=
  root.mapData field.directionOf

private theorem identityAt_shapeOf (data : S) (first second : SplitTree String S) :
    identityAt [] (shapeOf field (.split data first second)) =
      some (identityOf field data first second) := by
  simp [identityAt, identityOf, shapeOf, SplitTree.mapData]

private theorem isSplitMeant_eq (data : S) (first second : SplitTree String S)
    (meant : Option SplitIdentity) :
    isSplitMeant field.directionOf data first second meant =
      meant.all (· = identityOf field data first second) := by
  cases meant with
  | none => rfl
  | some meant =>
    cases meant
    simp [isSplitMeant, identityOf, eq_comm, Bool.and_assoc]

private theorem shapeOf_side (wrap : SplitTree String S → SplitTree String S)
    (wrapShape : SplitTree String String → SplitTree String String)
    (hwrap : ∀ tree, shapeOf field (wrap tree) = wrapShape (shapeOf field tree))
    {next : Option (SplitTree String S)} {root : SplitTree String S} {leads : Bool}
    (hnext : next.map (shapeOf field) = if leads then some (shapeOf field root) else none) :
    (next.map wrap).map (shapeOf field) =
      if leads then some (shapeOf field (wrap root)) else none := by
  rw [Option.map_map, show shapeOf field ∘ wrap = wrapShape ∘ shapeOf field from funext hwrap,
    ← Option.map_map, hnext, hwrap]
  cases leads <;> rfl

/-- A ratio is set where its path leads to its split, and the shape stays. -/
theorem shapeOf_withSplitRatio (intent : SplitRatioIntent P) (segments : List String)
    (root : SplitTree String S) :
    (withSplitRatio field.directionOf field.withRatio intent segments root).map (shapeOf field) =
      if leadsToItsSplit intent segments (shapeOf field root) then some (shapeOf field root)
      else none := by
  induction root generalizing segments with
  | leaf label => cases segments <;> rfl
  | split data first second ihFirst ihSecond =>
    cases segments with
    | nil =>
      rw [withSplitRatio, isSplitMeant_eq, leadsToItsSplit, identityAt_shapeOf, Option.any_some]
      split
      · simp [shapeOf, SplitTree.mapData, field.directionOf_withRatio]
      · rfl
    | cons segment rest =>
      rw [withSplitRatio, leadsToItsSplit, shapeOf, SplitTree.mapData, identityAt]
      by_cases hfirst : segment = "first"
      · rw [if_pos hfirst, if_pos hfirst]
        exact shapeOf_side field (.split data · second)
          (.split (field.directionOf data) · (shapeOf field second)) (fun _ => rfl) (ihFirst rest)
      · rw [if_neg hfirst, if_neg hfirst]
        by_cases hsecond : segment = "second"
        · rw [if_pos hsecond, if_pos hsecond]
          exact shapeOf_side field (.split data first ·)
            (.split (field.directionOf data) (shapeOf field first) ·) (fun _ => rfl)
            (ihSecond rest)
        · rw [if_neg hsecond, if_neg hsecond]
          rfl

theorem shapeOf_withSplitRatios (root : SplitTree String S) (ratios : List (SplitRatioIntent P)) :
    (withSplitRatios field.directionOf field.withRatio root ratios).map (shapeOf field) =
      if ratios.all fun intent =>
          leadsToItsSplit intent (segmentsOf intent.path) (shapeOf field root)
      then some (shapeOf field root) else none := by
  induction ratios generalizing root with
  | nil => rfl
  | cons intent ratios ih =>
    have hstep := shapeOf_withSplitRatio field intent (segmentsOf intent.path) root
    rw [withSplitRatios, foldlM_cons, all_cons]
    cases hnext : withSplitRatio field.directionOf field.withRatio intent
        (segmentsOf intent.path) root with
    | none =>
      rw [hnext] at hstep
      split at hstep
      · cases hstep
      · rename_i hleads
        simp [hleads]
    | some next =>
      rw [hnext] at hstep
      split at hstep
      · rename_i hleads
        rw [hleads, Bool.true_and, ← Option.some.inj hstep]
        exact ih next
      · cases hstep

/-! ## The changes between two trees -/

section RoundTrip

variable [DecidableEq P]

/-- Whether a split has the direction of another, and a ratio that reads as the
other's or is how that one is saved. -/
def storesRatioOf (data other : S) : Bool :=
  let wanted := (field.ratioOf other).getD field.even
  field.directionOf data = field.directionOf other &&
    ((field.ratioOf data).getD field.even = wanted || field.ratioOf data = field.savedRatio wanted)

/-- A place in a tree, where what is set below a path is set in the subtree. -/
def IsPlace (path : String) (wrap : SplitTree String S → SplitTree String S) : Prop :=
  ∀ (intent : SplitRatioIntent P) rest tree,
    withSplitRatio field.directionOf field.withRatio intent (segmentsOf path ++ rest) (wrap tree) =
      (withSplitRatio field.directionOf field.withRatio intent rest tree).map wrap

variable {field} {path : String} {wrap : SplitTree String S → SplitTree String S}

omit [DecidableEq P] in
theorem IsPlace.side (hplace : IsPlace field path wrap) (segment : String)
    (side : SplitTree String S → SplitTree String S)
    (hpath : segmentsOf (childPath path segment) = segmentsOf path ++ [segment])
    (hside : ∀ (intent : SplitRatioIntent P) rest tree,
      withSplitRatio field.directionOf field.withRatio intent (segment :: rest) (side tree) =
        (withSplitRatio field.directionOf field.withRatio intent rest tree).map side) :
    IsPlace field (childPath path segment) (wrap ∘ side) := by
  intro intent rest tree
  rw [hpath, List.append_assoc, Function.comp_apply, hplace, List.singleton_append, hside,
    Option.map_map]

theorem changed_own (hplace : IsPlace field path wrap) {data other : S}
    {first second otherFirst otherSecond : SplitTree String S}
    (hidentity : identityOf field data first second =
      identityOf field other otherFirst otherSecond) :
    ∃ next, withSplitRatios field.directionOf field.withRatio (wrap (.split data first second))
        (if (field.ratioOf data).getD field.even ≠ (field.ratioOf other).getD field.even then
          [{ path, ratio := (field.ratioOf other).getD field.even,
             split := some (identityOf field other otherFirst otherSecond) }]
        else []) = some (wrap (.split next first second)) ∧
      storesRatioOf field next other := by
  have hdirection : field.directionOf data = field.directionOf other :=
    congrArg SplitIdentity.direction hidentity
  split
  · refine ⟨field.withRatio data ((field.ratioOf other).getD field.even), ?_, ?_⟩
    · have hset := hplace { path, ratio := (field.ratioOf other).getD field.even,
                            split := some (identityOf field other otherFirst otherSecond) } []
      rw [List.append_nil] at hset
      simp [withSplitRatios, hset, withSplitRatio, isSplitMeant_eq, hidentity]
    · simp [storesRatioOf, field.directionOf_withRatio, field.ratioOf_withRatio, hdirection]
  · rename_i hratio
    exact ⟨data, rfl, by simp [storesRatioOf, hdirection, not_not.mp hratio]⟩

theorem changed_applies {before after : SplitTree String S}
    (hshape : shapeOf field before = shapeOf field after) (hplace : IsPlace field path wrap) :
    ∃ next, withSplitRatios field.directionOf field.withRatio (wrap before)
        (changedSplitRatios field before after path) = some (wrap next) ∧
      next.sameShape (storesRatioOf field) after := by
  induction before generalizing after path wrap with
  | leaf label =>
    cases after with
    | leaf other =>
      rw [shapeOf, SplitTree.mapData, shapeOf, SplitTree.mapData] at hshape
      cases hshape
      exact ⟨.leaf label, rfl, by simp [SplitTree.sameShape]⟩
    | split other otherFirst otherSecond => cases hshape
  | split data first second ihFirst ihSecond =>
    cases after with
    | leaf other => cases hshape
    | split other otherFirst otherSecond =>
      have hidentity := congrArg (identityAt []) hshape
      rw [identityAt_shapeOf, identityAt_shapeOf, Option.some.injEq] at hidentity
      obtain ⟨own, hown, hstores⟩ := changed_own hplace hidentity
      injection hshape with _ hfirst hsecond
      obtain ⟨nextFirst, hnextFirst, hsameFirst⟩ := ihFirst hfirst
        (hplace.side "first" (.split own · second)
          (segmentsOf_childPath path (by decide) (by decide)) fun _ _ _ => by
            rw [withSplitRatio, if_pos rfl])
      obtain ⟨nextSecond, hnextSecond, hsameSecond⟩ := ihSecond hsecond
        (hplace.side "second" (.split own nextFirst ·)
          (segmentsOf_childPath path (by decide) (by decide)) fun _ _ _ => by
            rw [withSplitRatio, if_neg (by decide), if_pos rfl])
      refine ⟨.split own nextFirst nextSecond, ?_, ?_⟩
      · rw [withSplitRatios, changedSplitRatios, foldlM_append, foldlM_append]
        exact (congrArg (· >>= _) ((congrArg (· >>= _) hown).trans hnextFirst)).trans hnextSecond
      · simp [SplitTree.sameShape, hstores, hsameFirst, hsameSecond]

variable (field)

/-- Changes to a kind of tree find their splits, move nothing, and are made
together or not at all. -/
structure AppliesRatios
    (withRatios : SplitTree String S → List (SplitRatioIntent P) → Option (SplitTree String S)) :
    Prop where
  roundTrip : ∀ before after, shapeOf field before = shapeOf field after →
    ∃ next, withRatios before (changedSplitRatios field before after "") = some next ∧
      next.sameShape (storesRatioOf field) after
  unchanged : ∀ root ratios next, withRatios root ratios = some next →
    shapeOf field next = shapeOf field root
  refused : ∀ root ratios, withRatios root ratios = none ↔ ∃ intent ∈ ratios,
    leadsToItsSplit intent (segmentsOf intent.path) (shapeOf field root) = false

theorem appliesRatios :
    AppliesRatios field (withSplitRatios field.directionOf field.withRatio) where
  roundTrip := fun before after hshape =>
    changed_applies hshape (show IsPlace field "" id from fun _ _ _ => by simp [segmentsOf])
  unchanged := by
    intro root ratios next hnext
    have hall := shapeOf_withSplitRatios field root ratios
    rw [hnext] at hall
    split at hall
    · exact Option.some.inj hall
    · cases hall
  refused := by
    intro root ratios
    have hall := shapeOf_withSplitRatios field root ratios
    rw [← Option.map_eq_none_iff, hall]
    simp

end RoundTrip

def paneRatios (runtime : LayoutRuntime P) : RatioField (PaneSplit P) P where
  directionOf := fun data => paneDirectionName data.direction
  ratioOf := PaneSplit.ratio
  even := runtime.evenRatio
  savedRatio := fun ratio => if runtime.isNearEven ratio then none else some ratio
  withRatio := fun data ratio =>
    { data with ratio := if runtime.isNearEven ratio then none else some ratio }
  directionOf_withRatio := fun _ _ => rfl
  ratioOf_withRatio := fun _ _ => rfl

def groupRatios (runtime : LayoutRuntime P) : RatioField (GroupSplit P) P where
  directionOf := fun data => groupDirectionName data.direction
  ratioOf := GroupSplit.ratio
  even := runtime.evenRatio
  savedRatio := some
  withRatio := fun data ratio => { data with ratio := some ratio }
  directionOf_withRatio := fun _ _ => rfl
  ratioOf_withRatio := fun _ _ => rfl

theorem splitRatios_apply [DecidableEq P] (runtime : LayoutRuntime P) :
    AppliesRatios (paneRatios runtime) (withPaneSplitRatios runtime) ∧
      AppliesRatios (groupRatios runtime) withGroupSplitRatios :=
  ⟨appliesRatios (paneRatios runtime), appliesRatios (groupRatios runtime)⟩

end Wakii.SplitRatios
