import Wakii.Daemon.StreamDataSplit
import Wakii.Library.TextSearch
import Wakii.Terminal.AnsiSequence

/-!
# Frames of synchronized output

Start and end markers open and close a frame.  The scan carries the last units of
the stream, fewer than a marker has, so that a divided marker is met once; a slice
of the stream is cut where no marker is severed.
-/

namespace Wakii.Terminal.SynchronizedOutput

open List TextSearch

def SYNCHRONIZED_OUTPUT_START_SEQUENCE : Text :=
  [ESCAPE, 0x5b, 0x3f, 0x32, 0x30, 0x32, 0x36, 0x68]

def SYNCHRONIZED_OUTPUT_END_SEQUENCE : Text :=
  [ESCAPE, 0x5b, 0x3f, 0x32, 0x30, 0x32, 0x36, 0x6c]

def SYNCHRONIZED_OUTPUT_MARKER_TAIL_CHARS : ℕ := SYNCHRONIZED_OUTPUT_START_SEQUENCE.length - 1

/-- The marker that opens a frame, or the one that closes it. -/
def marker (opens : Bool) : Text :=
  if opens then SYNCHRONIZED_OUTPUT_START_SEQUENCE else SYNCHRONIZED_OUTPUT_END_SEQUENCE

structure SynchronizedOutputScan where
  started : Bool
  ended : Bool
  active : Bool
  markerTail : Text
  deriving DecidableEq

def nextMarker : Option ℕ → Option ℕ → Option (Bool × ℕ)
  | none, none => none
  | some startIndex, none => some (true, startIndex)
  | none, some endIndex => some (false, endIndex)
  | some startIndex, some endIndex =>
    if endIndex < startIndex then some (false, endIndex) else some (true, startIndex)

def remaining (scanData : Text) : Option ℕ → ℕ
  | none => 0
  | some index => scanData.length - index + 1

/-- The search for the next marker of a kind, behind the one just taken. -/
def searchBehind (scanData : Text) (opens : Bool) (index : ℕ) : Option ℕ :=
  TextSearch.indexOfFrom? (marker opens) scanData (index + (marker opens).length)

theorem length_marker (opens : Bool) : (marker opens).length = 8 := by
  cases opens <;> rfl

theorem marker_ne_nil (opens : Bool) : marker opens ≠ [] := by
  cases opens <;> decide

theorem remaining_searchBehind_lt (scanData : Text) (opens : Bool) (index : ℕ) :
    remaining scanData (searchBehind scanData opens index) < remaining scanData (some index) := by
  cases hfound : searchBehind scanData opens index with
  | none => exact Nat.succ_pos _
  | some found =>
    obtain ⟨hbehind, hstands, -⟩ := indexOfFrom?_eq_some hfound
    have hlength := hstands.length_le
    rw [length_drop, length_marker] at hlength
    rw [length_marker] at hbehind
    simp only [remaining]
    omega

variable {startIndex endIndex : Option ℕ}

theorem nextMarker_start {index : ℕ} (hnext : nextMarker startIndex endIndex = some (true, index)) :
    startIndex = some index ∧ ∀ other, endIndex = some other → index ≤ other := by
  cases startIndex with
  | none => cases endIndex <;> cases hnext
  | some start =>
    cases endIndex with
    | none =>
      cases hnext
      exact ⟨rfl, fun other hother => by cases hother⟩
    | some stop =>
      by_cases hbefore : stop < start
      · rw [nextMarker, if_pos hbefore] at hnext
        cases hnext
      · rw [nextMarker, if_neg hbefore] at hnext
        cases hnext
        exact ⟨rfl, fun other hother => by cases hother; exact Nat.le_of_not_lt hbefore⟩

theorem nextMarker_end {index : ℕ} (hnext : nextMarker startIndex endIndex = some (false, index)) :
    endIndex = some index ∧ ∀ other, startIndex = some other → index ≤ other := by
  cases endIndex with
  | none => cases startIndex <;> cases hnext
  | some stop =>
    cases startIndex with
    | none =>
      cases hnext
      exact ⟨rfl, fun other hother => by cases hother⟩
    | some start =>
      by_cases hbefore : stop < start
      · rw [nextMarker, if_pos hbefore] at hnext
        cases hnext
        exact ⟨rfl, fun other hother => by cases hother; exact Nat.le_of_lt hbefore⟩
      · rw [nextMarker, if_neg hbefore] at hnext
        cases hnext

theorem nextMarker_eq_none
    (hnext : nextMarker startIndex endIndex = none) : startIndex = none ∧ endIndex = none := by
  cases startIndex with
  | none =>
    cases endIndex with
    | none => exact ⟨rfl, rfl⟩
    | some stop => cases hnext
  | some start =>
    cases endIndex with
    | none => cases hnext
    | some stop =>
      rw [nextMarker] at hnext
      split_ifs at hnext

def SynchronizedOutputScan.take (scan : SynchronizedOutputScan) (chunkStart index : ℕ) :
    Bool → SynchronizedOutputScan
  | true =>
    { scan with
      active := true
      started := scan.started || chunkStart < index + SYNCHRONIZED_OUTPUT_START_SEQUENCE.length }
  | false =>
    { scan with
      active := false
      ended := scan.ended || chunkStart < index + SYNCHRONIZED_OUTPUT_END_SEQUENCE.length }

/-- The loop over the markers; each of the two searches advances on its own. -/
def takeMarkers (scanData : Text) (chunkStart : ℕ) (startIndex endIndex : Option ℕ)
    (scan : SynchronizedOutputScan) : SynchronizedOutputScan :=
  match _hnext : nextMarker startIndex endIndex with
  | none => scan
  | some (true, index) =>
    takeMarkers scanData chunkStart (searchBehind scanData true index) endIndex
      (scan.take chunkStart index true)
  | some (false, index) =>
    takeMarkers scanData chunkStart startIndex (searchBehind scanData false index)
      (scan.take chunkStart index false)
termination_by remaining scanData startIndex + remaining scanData endIndex
decreasing_by
  · rw [(nextMarker_start _hnext).1]
    exact Nat.add_lt_add_right (remaining_searchBehind_lt scanData true index) _
  · rw [(nextMarker_end _hnext).1]
    exact Nat.add_lt_add_left (remaining_searchBehind_lt scanData false index) _

def scanSynchronizedOutput (data markerTail : Text) (wasActive : Bool) : SynchronizedOutputScan :=
  let scanData := markerTail ++ data
  takeMarkers scanData (scanData.length - data.length)
    (TextSearch.indexOf? SYNCHRONIZED_OUTPUT_START_SEQUENCE scanData)
    (TextSearch.indexOf? SYNCHRONIZED_OUTPUT_END_SEQUENCE scanData)
    { started := false
      ended := false
      active := wasActive
      markerTail := scanData.drop (scanData.length - SYNCHRONIZED_OUTPUT_MARKER_TAIL_CHARS) }

structure SynchronizedOutputLatchState where
  markerTail : Text
  active : Bool
  deriving DecidableEq

def INITIAL_SYNCHRONIZED_OUTPUT_LATCH_STATE : SynchronizedOutputLatchState := ⟨[], false⟩

def advanceLatch (previous : SynchronizedOutputLatchState) (data : Text) :
    SynchronizedOutputLatchState :=
  let scan := scanSynchronizedOutput data previous.markerTail previous.active
  ⟨scan.markerTail, scan.active⟩

def advanceDroppedSynchronizedOutputLatch (data : Text)
    (previous : SynchronizedOutputLatchState) : Text × SynchronizedOutputLatchState :=
  let scan := scanSynchronizedOutput data previous.markerTail previous.active
  (if scan.active then SYNCHRONIZED_OUTPUT_END_SEQUENCE else [], advanceLatch previous data)

/-- The cut before an escape whose marker cannot finish by the limit, else the limit. -/
def splitCandidate (data : Text) (limit : ℕ) : ℕ :=
  let guardStart := limit - SYNCHRONIZED_OUTPUT_MARKER_TAIL_CHARS
  match TextSearch.lastIndexOf? [ESCAPE] data (limit - 1) with
  | some escapeIndex =>
    if guardStart ≤ escapeIndex ∧
        limit - escapeIndex < SYNCHRONIZED_OUTPUT_START_SEQUENCE.length then escapeIndex
    else limit
  | none => limit

/-- The candidate, or the limit where the candidate makes no progress. -/
def unaligned (data : Text) (limit : ℕ) : ℕ :=
  if 0 < splitCandidate data limit then splitCandidate data limit else limit

def resolveSynchronizedOutputSafeSplit (data : Text) (limit : ℕ) (markerTail : Text)
    (wasActive : Bool) : ℕ :=
  if data.length ≤ limit then data.length
  else
    let candidate := splitCandidate data limit
    if !(scanSynchronizedOutput (data.take candidate) markerTail wasActive).active then
      unaligned data limit
    else
      match TextSearch.lastIndexOf? SYNCHRONIZED_OUTPUT_END_SEQUENCE data
          (candidate - SYNCHRONIZED_OUTPUT_END_SEQUENCE.length) with
      | none => unaligned data limit
      | some lastClose =>
        let aligned := lastClose + SYNCHRONIZED_OUTPUT_END_SEQUENCE.length
        if limit ≤ aligned * 2 then aligned else unaligned data limit

/-- A surrogate clamp can return zero; the drain loop goes on all the same. -/
def clampToSafeBulkWriteSplitIndex (value : Text) (stop : ℕ) : ℕ :=
  max 1 (StreamDataSplit.clampToSafeSplitIndex value 0
    (resolveSynchronizedOutputSafeSplit value stop [] false))

def markerAt (text : Text) : Option Bool :=
  if (marker true).isPrefixOf text then some true
  else if (marker false).isPrefixOf text then some false
  else none

def lastMarker : Text → Option Bool
  | [] => none
  | code :: rest => (lastMarker rest).or (markerAt (code :: rest))

variable {text : Text} {opens : Bool}

theorem markerAt_eq_some : markerAt text = some opens ↔ marker opens <+: text := by
  rw [markerAt]
  constructor
  · intro hmarker
    split_ifs at hmarker with hstart hend
    · cases hmarker
      exact isPrefixOf_iff_prefix.mp hstart
    · cases hmarker
      exact isPrefixOf_iff_prefix.mp hend
  · intro hprefix
    cases opens with
    | true => exact if_pos (List.isPrefixOf_iff_prefix.mpr hprefix)
    | false =>
      have hother : ¬ (marker true).isPrefixOf text = true := fun hstart =>
        absurd ((prefix_of_prefix_length_le (List.isPrefixOf_iff_prefix.mp hstart) hprefix
          (by decide)).eq_of_length (by decide)) (by decide)
      rw [if_neg hother, if_pos (List.isPrefixOf_iff_prefix.mpr hprefix)]

theorem markerAt_eq_none : markerAt text = none ↔ ∀ opens, ¬ marker opens <+: text := by
  rw [Option.eq_none_iff_forall_ne_some]
  exact forall_congr' fun opens => not_congr markerAt_eq_some

theorem getElem?_of_marker {place inner : ℕ}
    (hstands : marker opens <+: text.drop place) (hinner : inner < 8) :
    text[place + inner]? = (marker opens)[inner]? := by
  have hlt : inner < (marker opens).length := by rw [length_marker]; exact hinner
  have hunit := prefix_iff_getElem?.mp hstands inner hlt
  rw [getElem?_drop] at hunit
  rw [hunit, getElem?_eq_getElem hlt]

theorem no_escape_inside (opens : Bool) : ∀ inner < 8, 0 < inner →
    (marker opens)[inner]? ≠ some ESCAPE := by
  cases opens <;> decide

theorem escape_apart {place other : ℕ}
    (hstands : marker opens <+: text.drop place) (hescape : text[other]? = some ESCAPE)
    (hbefore : place < other) : place + 8 ≤ other := by
  by_contra hinside
  obtain ⟨inner, rfl⟩ : ∃ inner, other = place + inner := ⟨other - place, by omega⟩
  rw [getElem?_of_marker hstands (by omega)] at hescape
  exact no_escape_inside opens inner (by omega) (by omega) hescape

theorem escape_of_marker {place : ℕ}
    (hstands : marker opens <+: text.drop place) : text[place]? = some ESCAPE := by
  have hunit := @getElem?_of_marker _ _ _ 0 hstands (by omega)
  rw [Nat.add_zero] at hunit
  rw [hunit]
  cases opens <;> rfl

theorem apart {first second : Bool} {place other : ℕ}
    (hfirst : marker first <+: text.drop place) (hsecond : marker second <+: text.drop other)
    (hbefore : place < other) : place + 8 ≤ other :=
  escape_apart hfirst (escape_of_marker hsecond) hbefore

theorem lastMarker_eq_drop {count : ℕ}
    (hnone : ∀ place < count, markerAt (text.drop place) = none) :
    lastMarker text = lastMarker (text.drop count) := by
  induction count with
  | zero => rfl
  | succ count ih =>
    rw [ih fun place hplace => hnone place (Nat.lt_succ_of_lt hplace), ← drop_drop]
    have hmarker := hnone count (Nat.lt_succ_self count)
    cases hrest : text.drop count with
    | nil => rfl
    | cons code rest =>
      rw [hrest] at hmarker
      rw [lastMarker, hmarker, Option.or_none]
      rfl

theorem lastMarker_marker (hstands : marker opens <+: text) :
    lastMarker text = (lastMarker (text.drop 8)).or (some opens) := by
  have hinside : ∀ place < 7, markerAt ((text.drop 1).drop place) = none := by
    intro place hplace
    rw [markerAt_eq_none, drop_drop]
    intro other hother
    have hfirst : marker opens <+: text.drop 0 := hstands
    have hapart := apart hfirst hother (by omega)
    omega
  cases text with
  | nil => exact absurd (prefix_nil.mp hstands) (marker_ne_nil opens)
  | cons code rest =>
    rw [lastMarker, markerAt_eq_some.mpr hstands]
    congr 1
    exact lastMarker_eq_drop hinside

def search (text : Text) (offset : ℕ) (opens : Bool) : Option ℕ :=
  TextSearch.indexOfFrom? (marker opens) text offset

/-- A marker the loop takes is the first from the place on, and no other starts in it. -/
theorem search_behind {offset index : ℕ} (hfound : search text offset opens = some index)
    (hother : ∀ other, search text offset (!opens) = some other → index ≤ other) :
    search text offset (!opens) = search text (index + 8) (!opens) ∧
      lastMarker (text.drop offset) = (lastMarker (text.drop (index + 8))).or (some opens) := by
  obtain ⟨hoffset, hstands, hfirst⟩ := indexOfFrom?_eq_some hfound
  have hbefore : ∀ place kind, offset ≤ place → place < index →
      ¬ marker kind <+: text.drop place := by
    intro place kind hplace hindex hmarker
    by_cases hkind : kind = opens
    · subst hkind
      exact hfirst place hplace hindex hmarker
    · rw [Bool.eq_not_of_ne hkind] at hmarker
      cases hsearch : search text offset (!opens) with
      | none =>
        exact (indexOfFrom?_eq_none (marker_ne_nil _)).mp hsearch place hplace hmarker
      | some other =>
        have hle := hother other hsearch
        exact (indexOfFrom?_eq_some hsearch).2.2 place hplace (by omega) hmarker
  refine ⟨indexOfFrom?_skip (marker_ne_nil _) (by omega) ?_, ?_⟩
  · intro place hplace hlater hmarker
    rcases Nat.lt_trichotomy place index with hearlier | rfl | hinside
    · exact hbefore place _ hplace hearlier hmarker
    · have hboth := markerAt_eq_some.mpr hmarker
      rw [markerAt_eq_some.mpr hstands] at hboth
      cases opens <;> cases hboth
    · have hapart := apart hstands hmarker hinside
      omega
  · have hskip : lastMarker (text.drop offset) = lastMarker (text.drop index) := by
      rw [@lastMarker_eq_drop _ (index - offset) ?_, drop_drop, Nat.add_sub_cancel' hoffset]
      intro place hplace
      rw [markerAt_eq_none, drop_drop]
      exact fun kind => hbefore _ kind (Nat.le_add_right _ _) (by omega)
    rw [hskip, lastMarker_marker hstands, drop_drop]

section Loop

variable {text : Text} {chunkStart index : ℕ} {startIndex endIndex : Option ℕ}
  {scan : SynchronizedOutputScan}

theorem takeMarkers_none (hnext : nextMarker startIndex endIndex = none) :
    takeMarkers text chunkStart startIndex endIndex scan = scan := by
  rw [takeMarkers]
  split <;> simp_all

theorem takeMarkers_start (hnext : nextMarker startIndex endIndex = some (true, index)) :
    takeMarkers text chunkStart startIndex endIndex scan =
      takeMarkers text chunkStart (searchBehind text true index) endIndex
        (scan.take chunkStart index true) := by
  rw [takeMarkers]
  split <;> simp_all

theorem takeMarkers_end (hnext : nextMarker startIndex endIndex = some (false, index)) :
    takeMarkers text chunkStart startIndex endIndex scan =
      takeMarkers text chunkStart startIndex (searchBehind text false index)
        (scan.take chunkStart index false) := by
  rw [takeMarkers]
  split <;> simp_all

theorem markerTail_takeMarkers :
    (takeMarkers text chunkStart startIndex endIndex scan).markerTail = scan.markerTail := by
  induction startIndex, endIndex, scan using takeMarkers.induct text chunkStart with
  | case1 startIndex endIndex scan hnext => rw [takeMarkers_none hnext]
  | case2 startIndex endIndex scan index hnext ih =>
    rw [takeMarkers_start hnext, ih]
    rfl
  | case3 startIndex endIndex scan index hnext ih =>
    rw [takeMarkers_end hnext, ih]
    rfl

/-- The loop from a place on ends with what the last marker behind it says. -/
theorem active_takeMarkers (offset : ℕ) (hstart : startIndex = search text offset true)
    (hend : endIndex = search text offset false) :
    (takeMarkers text chunkStart startIndex endIndex scan).active =
      (lastMarker (text.drop offset)).getD scan.active := by
  induction startIndex, endIndex, scan using takeMarkers.induct text chunkStart
    generalizing offset with
  | case1 startIndex endIndex scan hnext =>
    obtain ⟨rfl, rfl⟩ := nextMarker_eq_none hnext
    have hnowhere : ∀ place, markerAt ((text.drop offset).drop place) = none := by
      intro place
      rw [markerAt_eq_none, drop_drop]
      intro opens
      have hsearch : search text offset opens = none := by
        cases opens
        · exact hend.symm
        · exact hstart.symm
      exact (indexOfFrom?_eq_none (marker_ne_nil _)).mp hsearch _ (Nat.le_add_right _ _)
    have hlast : lastMarker (text.drop offset) = none := by
      rw [@lastMarker_eq_drop _ (text.drop offset).length fun place _ => hnowhere place,
        drop_length]
      rfl
    rw [takeMarkers_none hnext, hlast]
    rfl
  | case2 startIndex endIndex scan index hnext ih =>
    obtain ⟨hindex, hother⟩ := nextMarker_start hnext
    obtain ⟨hsearch, hlast⟩ := search_behind (hstart.symm.trans hindex) fun other hfound =>
      hother other (hend.trans hfound)
    rw [takeMarkers_start hnext, ih (index + 8) rfl (hend.trans hsearch), hlast]
    cases lastMarker (text.drop (index + 8)) <;> rfl
  | case3 startIndex endIndex scan index hnext ih =>
    obtain ⟨hindex, hother⟩ := nextMarker_end hnext
    obtain ⟨hsearch, hlast⟩ := search_behind (hend.symm.trans hindex) fun other hfound =>
      hother other (hstart.trans hfound)
    rw [takeMarkers_end hnext, ih (index + 8) (hstart.trans hsearch) rfl, hlast]
    cases lastMarker (text.drop (index + 8)) <;> rfl

end Loop

theorem search_zero (text : Text) (opens : Bool) :
    TextSearch.indexOf? (marker opens) text = search text 0 opens := by
  rw [search, TextSearch.indexOfFrom?, drop_zero]
  exact Option.map_id'.symm

theorem active_scanSynchronizedOutput (data markerTail : Text) (wasActive : Bool) :
    (scanSynchronizedOutput data markerTail wasActive).active =
      (lastMarker (markerTail ++ data)).getD wasActive :=
  active_takeMarkers 0 (search_zero _ true) (search_zero _ false)

theorem markerTail_scanSynchronizedOutput (data markerTail : Text) (wasActive : Bool) :
    (scanSynchronizedOutput data markerTail wasActive).markerTail =
      (markerTail ++ data).drop ((markerTail ++ data).length - 7) :=
  markerTail_takeMarkers

theorem lastMarker_of_short (hshort : text.length ≤ 7) : lastMarker text = none := by
  have hnowhere : ∀ place < text.length, markerAt (text.drop place) = none := by
    intro place hplace
    rw [markerAt_eq_none]
    intro opens hprefix
    have hlength := hprefix.length_le
    rw [length_marker, length_drop] at hlength
    omega
  rw [lastMarker_eq_drop hnowhere, drop_length]
  rfl

theorem lastMarker_append_marker (front : Text) (opens : Bool) :
    lastMarker (front ++ marker opens) = some opens := by
  induction front with
  | nil => cases opens <;> decide
  | cons code front ih =>
    rw [cons_append, lastMarker, ih]
    rfl

theorem lastMarker_append {front tail : Text} (htail : 7 ≤ tail.length ∨ front = [])
    (hshort : tail.length ≤ 7) (data : Text) :
    lastMarker (front ++ tail ++ data) =
      (lastMarker (tail ++ data)).or (lastMarker (front ++ tail)) := by
  induction front with
  | nil =>
    rw [nil_append, lastMarker_of_short hshort, Option.or_none]
  | cons code front ih =>
    have hfull : 7 ≤ tail.length := htail.resolve_right (cons_ne_nil _ _)
    have hmarker : markerAt (code :: (front ++ tail ++ data)) =
        markerAt (code :: (front ++ tail)) := by
      apply Option.ext
      intro opens
      rw [markerAt_eq_some, markerAt_eq_some]
      constructor
      · intro hprefix
        refine prefix_of_prefix_length_le hprefix (prefix_append _ data) ?_
        rw [length_marker, length_cons, length_append]
        omega
      · exact fun hprefix => hprefix.trans (prefix_append _ data)
    rw [cons_append, cons_append, lastMarker, lastMarker, hmarker,
      ih (Or.inl hfull), Option.or_assoc]

theorem drop_tail {front rest : Text} (hrest : 7 ≤ rest.length ∨ front = []) :
    (front ++ rest).drop ((front ++ rest).length - 7) = rest.drop (rest.length - 7) := by
  rcases hrest with hlength | rfl
  · rw [drop_append, length_append, drop_eq_nil_of_le (by omega), nil_append]
    congr 1
    omega
  · rfl

def Carries (past : Text) (wasActive : Bool) (state : SynchronizedOutputLatchState) : Prop :=
  state.markerTail = past.drop (past.length - 7) ∧ state.active = (lastMarker past).getD wasActive

variable {state : SynchronizedOutputLatchState} {wasActive : Bool}

section

variable {past : Text} (hcarries : Carries past wasActive state)
include hcarries

theorem Carries.advanceLatch
    (data : Text) : Carries (past ++ data) wasActive (advanceLatch state data) := by
  obtain ⟨htail, hactive⟩ := hcarries
  obtain ⟨front, hfront⟩ : ∃ front, past = front ++ state.markerTail :=
    ⟨past.take (past.length - 7), by rw [htail, take_append_drop]⟩
  have hlength : state.markerTail.length = min 7 past.length := by
    rw [htail, length_drop]
    omega
  have hwhole : 7 ≤ state.markerTail.length ∨ front = [] := by
    by_cases hpast : 7 ≤ past.length
    · exact Or.inl (by omega)
    · have hlengths := congrArg List.length hfront
      rw [length_append] at hlengths
      exact Or.inr (length_eq_zero_iff.mp (by omega))
  constructor
  · change (scanSynchronizedOutput _ _ _).markerTail = _
    rw [markerTail_scanSynchronizedOutput, hfront, append_assoc]
    exact (drop_tail (hwhole.imp_left fun hfull => by rw [length_append]; omega)).symm
  · change (scanSynchronizedOutput _ _ _).active = _
    rw [active_scanSynchronizedOutput, hactive, hfront, lastMarker_append hwhole (by omega)]
    cases lastMarker (state.markerTail ++ data) <;> rfl

theorem active_foldl_advanceLatch (chunks : List Text) :
    Carries (past ++ chunks.flatten) wasActive (chunks.foldl advanceLatch state) := by
  induction chunks generalizing past state with
  | nil =>
    rw [flatten_nil, append_nil]
    exact hcarries
  | cons chunk chunks ih =>
    rw [flatten_cons, ← append_assoc]
    exact ih (hcarries.advanceLatch chunk)

end

/-- However output is dropped in chunks, an end marker takes its place just where the
last marker of it all opens a frame. -/
theorem dropped_chunks_recover (chunks : List Text) (data : Text) :
    (advanceDroppedSynchronizedOutputLatch data (chunks.foldl
        (fun state chunk => (advanceDroppedSynchronizedOutputLatch chunk state).2)
        INITIAL_SYNCHRONIZED_OUTPUT_LATCH_STATE)).1 =
      if lastMarker (chunks.flatten ++ data) = some true then
        SYNCHRONIZED_OUTPUT_END_SEQUENCE
      else [] := by
  have hinitial : Carries [] false INITIAL_SYNCHRONIZED_OUTPUT_LATCH_STATE := ⟨rfl, rfl⟩
  have hactive := ((active_foldl_advanceLatch hinitial chunks).advanceLatch data).2
  change (if (advanceLatch (chunks.foldl advanceLatch _) data).active then _ else _) = _
  rw [hactive, nil_append]
  cases lastMarker (chunks.flatten ++ data) with
  | none => rfl
  | some opens => cases opens <;> rfl

section Splitting

variable {data : Text} {limit : ℕ}

/-- No marker is severed by the cut, but one at the start of the data. -/
def Whole (data : Text) (cut : ℕ) : Prop :=
  ∀ place opens, marker opens <+: data.drop place → place < cut → cut < place + 8 → place = 0

structure SafeCut (data : Text) (limit cut : ℕ) : Prop where
  pos : 1 ≤ cut
  le_min : cut ≤ min limit data.length
  whole : cut < data.length → Whole data cut
  closed_late : cut < data.length → lastMarker (data.take cut) = some true →
    ∀ place, marker false <+: data.drop place → place + 8 ≤ cut → 2 * (place + 8) < limit

theorem escape_of_lastIndexOf {place : ℕ} (hescape : [ESCAPE] <+: data.drop place) :
    data[place]? = some ESCAPE := by
  have hunit := prefix_iff_getElem?.mp hescape 0 (by decide)
  rwa [getElem?_drop] at hunit

theorem lastIndexOf_of_escape {place : ℕ} (hescape : data[place]? = some ESCAPE) :
    [ESCAPE] <+: data.drop place := by
  obtain ⟨hplace, hunit⟩ := List.getElem?_eq_some_iff.mp hescape
  rw [List.drop_eq_getElem_cons hplace, hunit]
  exact ⟨data.drop (place + 1), rfl⟩

section

variable (hlimit : 1 ≤ limit)
include hlimit

/-- The candidate is the limit with no escape close before it, or such an escape itself. -/
theorem splitCandidate_cases : (splitCandidate data limit = limit ∧
      ∀ place, data[place]? = some ESCAPE → place < limit → place + 7 < limit) ∨
    (splitCandidate data limit < limit ∧ limit < splitCandidate data limit + 8 ∧
      data[splitCandidate data limit]? = some ESCAPE ∧
      ∀ place, data[place]? = some ESCAPE → place < limit → place ≤ splitCandidate data limit) := by
  have hseven : SYNCHRONIZED_OUTPUT_MARKER_TAIL_CHARS = 7 := rfl
  have height : SYNCHRONIZED_OUTPUT_START_SEQUENCE.length = 8 := rfl
  rw [splitCandidate]
  cases hlast : TextSearch.lastIndexOf? [ESCAPE] data (limit - 1) with
  | none =>
    refine Or.inl ⟨rfl, fun place hescape hplace => ?_⟩
    exact absurd (lastIndexOf_of_escape hescape) (lastIndexOf?_eq_none.mp hlast place (by omega))
  | some escapeIndex =>
    obtain ⟨hle, hstands, hlater⟩ := lastIndexOf?_eq_some hlast
    have hlatest : ∀ place, data[place]? = some ESCAPE → place < limit → place ≤ escapeIndex := by
      intro place hescape hplace
      by_contra hafter
      exact hlater place (by omega) (by omega) (lastIndexOf_of_escape hescape)
    simp only [hseven, height]
    by_cases hclose : limit - 7 ≤ escapeIndex ∧ limit - escapeIndex < 8
    · rw [if_pos hclose]
      exact Or.inr ⟨by omega, by omega, escape_of_lastIndexOf hstands, hlatest⟩
    · rw [if_neg hclose]
      refine Or.inl ⟨rfl, fun place hescape hplace => ?_⟩
      have hplaceLe := hlatest place hescape hplace
      omega

theorem splitCandidate_le : splitCandidate data limit ≤ limit := by
  rcases @splitCandidate_cases data limit hlimit with ⟨hcandidate, -⟩ | ⟨hcandidate, -⟩ <;> omega

theorem unaligned_bounds : 1 ≤ unaligned data limit ∧ unaligned data limit ≤ limit := by
  have hle := @splitCandidate_le data limit hlimit
  rw [unaligned]
  split_ifs <;> omega

theorem whole_unaligned : Whole data (unaligned data limit) := by
  intro place opens hstands hplace hcut
  have hescape := escape_of_marker hstands
  rcases @splitCandidate_cases data limit hlimit with ⟨hcandidate, hfar⟩ | ⟨hlt, -, hother, hlatest⟩
  · have hunaligned : unaligned data limit = limit := by
      rw [unaligned, hcandidate]
      exact ite_self limit
    rw [hunaligned] at hplace hcut
    have hfarPlace := hfar place hescape hplace
    omega
  · by_cases hpositive : 0 < splitCandidate data limit
    · rw [unaligned, if_pos hpositive] at hplace hcut
      have hapart := escape_apart hstands hother hplace
      omega
    · rw [unaligned, if_neg hpositive] at hplace
      have hplaceLe := hlatest place hescape hplace
      omega

theorem unaligned_of_open (hopen : lastMarker (data.take (unaligned data limit)) = some true) :
    unaligned data limit = splitCandidate data limit := by
  rw [unaligned] at hopen ⊢
  by_cases hpositive : 0 < splitCandidate data limit
  · rw [if_pos hpositive]
  · rw [if_neg hpositive] at hopen
    have hshort : (data.take limit).length ≤ 7 := by
      rw [length_take]
      rcases @splitCandidate_cases data limit hlimit with ⟨hcandidate, -⟩ | ⟨-, hnear, -⟩ <;> omega
    rw [lastMarker_of_short hshort] at hopen
    cases hopen

theorem safeCut_unaligned (hlong : limit < data.length)
    (hlate : lastMarker (data.take (splitCandidate data limit)) = some true →
      ∀ place, marker false <+: data.drop place → place + 8 ≤ splitCandidate data limit →
        2 * (place + 8) < limit) : SafeCut data limit (unaligned data limit) where
  pos := (unaligned_bounds hlimit).1
  le_min := by
    have hbounds := (@unaligned_bounds data limit hlimit).2
    omega
  whole _ := whole_unaligned hlimit
  closed_late _ hopen := by
    have hcut := unaligned_of_open hlimit hopen
    rw [hcut] at hopen ⊢
    exact hlate hopen

end

theorem safeCut_aligned {lastClose : ℕ} (hcandidate : lastClose + 8 ≤ splitCandidate data limit)
    (hlimit : 1 ≤ limit) (hlong : limit < data.length)
    (hstands : marker false <+: data.drop lastClose) : SafeCut data limit (lastClose + 8) where
  pos := by omega
  le_min := by
    have hle := @splitCandidate_le data limit hlimit
    omega
  whole _ place opens hmarker hplace hcut := by
    have hapart := apart hstands hmarker (by omega)
    omega
  closed_late _ hopen := by
    obtain ⟨rest, hrest⟩ := hstands
    have htake : data.take (lastClose + 8) = data.take lastClose ++ marker false := by
      rw [take_add, ← hrest]
      congr 1
    rw [htake, lastMarker_append_marker] at hopen
    cases hopen

/-- The split chosen is safe. -/
theorem safeCut_resolve (hdata : data ≠ []) (hlimit : 1 ≤ limit) :
    SafeCut data limit (resolveSynchronizedOutputSafeSplit data limit [] false) := by
  rw [resolveSynchronizedOutputSafeSplit]
  by_cases hshort : data.length ≤ limit
  · rw [if_pos hshort]
    have hpositive := length_pos_iff.mpr hdata
    exact ⟨hpositive, by omega, fun hcut => absurd hcut (Nat.lt_irrefl _),
      fun hcut => absurd hcut (Nat.lt_irrefl _)⟩
  · rw [if_neg hshort]
    have hlong : limit < data.length := Nat.lt_of_not_le hshort
    have hscan := active_scanSynchronizedOutput (data.take (splitCandidate data limit)) [] false
    rw [nil_append] at hscan
    have hend : SYNCHRONIZED_OUTPUT_END_SEQUENCE = marker false := rfl
    simp only [hscan, hend, length_marker]
    cases hopen : (lastMarker (data.take (splitCandidate data limit))).getD false with
    | false =>
      refine safeCut_unaligned hlimit hlong fun hlast => ?_
      rw [hlast] at hopen
      cases hopen
    | true =>
      have hlong8 : 8 ≤ splitCandidate data limit := by
        by_contra hnear
        rw [lastMarker_of_short (by rw [length_take]; omega)] at hopen
        cases hopen
      simp only [Bool.not_true, Bool.false_eq_true, if_false]
      cases hclose : TextSearch.lastIndexOf? (marker false) data
          (splitCandidate data limit - 8) with
      | none =>
        refine safeCut_unaligned hlimit hlong fun _ place hstands hplace => ?_
        exact absurd hstands (lastIndexOf?_eq_none.mp hclose place (by omega))
      | some lastClose =>
        obtain ⟨hle, hstands, hlater⟩ := lastIndexOf?_eq_some hclose
        by_cases hlate : limit ≤ (lastClose + 8) * 2
        · simp only [hlate, if_true]
          exact safeCut_aligned (by omega) hlimit hlong hstands
        · simp only [hlate, if_false]
          refine safeCut_unaligned hlimit hlong fun _ place hplaced hplace => ?_
          have hplaceLe : place ≤ lastClose := by
            by_contra hafter
            exact hlater place (by omega) (by omega) hplaced
          omega

end Splitting

/-- The latch follows the last marker of the stream, and a slice severs none. -/
theorem frames_survive : (∀ (chunks : List Text) (wasActive : Bool),
      (chunks.foldl advanceLatch ⟨[], wasActive⟩).active =
        (lastMarker chunks.flatten).getD wasActive) ∧
    ∀ (data : Text) (limit : ℕ), data ≠ [] → 1 ≤ limit →
      SafeCut data limit (resolveSynchronizedOutputSafeSplit data limit [] false) := by
  constructor
  · intro chunks wasActive
    have hinitial : Carries [] wasActive ⟨[], wasActive⟩ := ⟨rfl, rfl⟩
    exact (active_foldl_advanceLatch hinitial chunks).2
  · exact fun data limit hdata hlimit => safeCut_resolve hdata hlimit

/-- A cut inside a marker moves back before its escape, and one behind a late close and the
next opening moves back to the close. -/
theorem frames_survive_cuts :
    let severed := replicate 4 0x61 ++ marker true
    let reopened := marker true ++ [0x62] ++ marker false ++ marker true ++ [0x63, 0x63, 0x63]
    resolveSynchronizedOutputSafeSplit severed 7 [] false = 4 ∧ SafeCut severed 7 4 ∧
      resolveSynchronizedOutputSafeSplit reopened 27 [] false = 17 ∧ SafeCut reopened 27 17 := by
  intro severed reopened
  have hsevered : resolveSynchronizedOutputSafeSplit severed 7 [] false = 4 := by
    decide +kernel
  have hreopened : resolveSynchronizedOutputSafeSplit reopened 27 [] false = 17 := by
    decide +kernel
  refine ⟨hsevered, ?_, hreopened, ?_⟩
  · rw [← hsevered]
    exact frames_survive.2 severed 7 (by decide) (by decide)
  · rw [← hreopened]
    exact frames_survive.2 reopened 27 (by decide) (by decide)

theorem clampToSafeBulkWriteSplitIndex_bounds {value : Text} {stop : ℕ} (hvalue : value ≠ [])
    (hstop : 1 ≤ stop) :
    1 ≤ clampToSafeBulkWriteSplitIndex value stop ∧
      clampToSafeBulkWriteSplitIndex value stop ≤ min stop value.length := by
  have hsafe := safeCut_resolve hvalue hstop
  have hclamp := StreamDataSplit.clampToSafeSplitIndex_le value 0
    (resolveSynchronizedOutputSafeSplit value stop [] false)
  have hlength := length_pos_iff.mpr hvalue
  have hle := hsafe.le_min
  rw [clampToSafeBulkWriteSplitIndex]
  omega

def BULK_WRITE_SLICE_CHARS : ℕ := 64 * 1024

/-- The slices an entry leaves in, one in each round of the drain loop. -/
def bulkSlices : ℕ → Text → List Text
  | 0, _ => []
  | rounds + 1, value =>
    if value.length ≤ BULK_WRITE_SLICE_CHARS then [value]
    else
      let stop := clampToSafeBulkWriteSplitIndex value BULK_WRITE_SLICE_CHARS
      value.take stop :: bulkSlices rounds (value.drop stop)

/-- The drain loop writes an entry whole, in no more rounds than it has units and none
over the bound. -/
theorem bulkSlices_whole {rounds : ℕ} {value : Text} (hrounds : value.length < rounds) :
    (bulkSlices rounds value).flatten = value ∧
      ∀ slice ∈ bulkSlices rounds value, slice.length ≤ BULK_WRITE_SLICE_CHARS := by
  induction rounds generalizing value with
  | zero => exact absurd hrounds (Nat.not_lt_zero _)
  | succ rounds ih =>
    rw [bulkSlices]
    by_cases hshort : value.length ≤ BULK_WRITE_SLICE_CHARS
    · simp [hshort]
    · rw [if_neg hshort]
      have hvalue : value ≠ [] := by
        rintro rfl
        exact hshort (Nat.zero_le _)
      obtain ⟨hpositive, hle⟩ := clampToSafeBulkWriteSplitIndex_bounds hvalue
        (by decide : 1 ≤ BULK_WRITE_SLICE_CHARS)
      have hlater : (value.drop (clampToSafeBulkWriteSplitIndex value
          BULK_WRITE_SLICE_CHARS)).length < rounds := by
        rw [length_drop]
        omega
      obtain ⟨hflatten, hslices⟩ := ih hlater
      refine ⟨?_, forall_mem_cons.mpr ⟨?_, hslices⟩⟩
      · rw [flatten_cons, hflatten, take_append_drop]
      · rw [length_take]
        omega

/-- An entry over the bound with a surrogate pair on its first cut. -/
theorem bulkSlices_whole_pair :
    let value := replicate 65535 0x61 ++ [0xD83D, 0xDC19] ++ replicate 75000 0x62
    (bulkSlices 140538 value).flatten = value ∧
      ∀ slice ∈ bulkSlices 140538 value, slice.length ≤ BULK_WRITE_SLICE_CHARS :=
  bulkSlices_whole (by
    rw [length_append, length_append, length_replicate, length_replicate]
    exact Nat.lt_succ_self _)

end Wakii.Terminal.SynchronizedOutput
