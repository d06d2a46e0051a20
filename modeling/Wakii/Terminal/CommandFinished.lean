import Wakii.Library.LastItems
import Wakii.Library.TextSearch
import Wakii.Library.TokenStream
import Wakii.Terminal.PartialEscapeTail

/-!
# Command-finished detection

A shell marks where a command starts and ends by OSC 133 sequences.  The scanner fires
for each of them, but not for the end of a prompt zone that an application opens and
closes on its own: that one follows the markers B and C with no output between.
-/

namespace Wakii.Terminal.CommandFinished

open List TextSearch

open EscapeTail (BACKSLASH BEL)
open TokenStream (Scanner)

def OSC_133_PREFIX : Text := [ESCAPE, 0x5d, 0x31, 0x33, 0x33, 0x3b]
def MAX_OSC_CARRY_LENGTH : ℕ := 4096
def SEMICOLON : CodeUnit := 0x3b
def STRING_TERMINATOR : Text := [ESCAPE, BACKSLASH]

structure OscTerminator where
  index : ℕ
  length : ℕ
  deriving DecidableEq

def findOscTerminator (data : Text) : Option OscTerminator :=
  match TextSearch.indexOf? [BEL] data, TextSearch.indexOf? STRING_TERMINATOR data with
  | none, none => none
  | some bel, none => some ⟨bel, 1⟩
  | none, some st => some ⟨st, 2⟩
  | some bel, some st => if bel < st then some ⟨bel, 1⟩ else some ⟨st, 2⟩

/-- An integer text, as its sign and the digits' value. -/
structure ParsedInteger where
  negative : Bool
  magnitude : ℕ
  deriving DecidableEq

/-- What `Number.parseInt(value, 10)` reads, not yet rounded to a number. -/
def parseInteger (value : Text) : Option ParsedInteger :=
  let trimmed := value.dropWhile Text.isSpace
  let signed := trimmed.head? = some 0x2d ∨ trimmed.head? = some 0x2b
  (leadingNumber (if signed then trimmed.tail else trimmed)).map
    fun magnitude => ⟨trimmed.head? = some 0x2d, magnitude⟩

/-- `toNumber` is how the language rounds an integer text. -/
def parseBestEffortExitCode {N : Type} (toNumber : ParsedInteger → N) (value : Option Text) :
    Option N :=
  (value.bind parseInteger).map toNumber

/-- The longest suffix of so many units at most that the introducer starts with. -/
def findPrefixCarryFrom (data : Text) : ℕ → Text
  | 0 => []
  | length + 1 =>
    let suffix := data.drop (data.length - (length + 1))
    if suffix.isPrefixOf OSC_133_PREFIX then suffix else findPrefixCarryFrom data length

def findPrefixCarry (data : Text) : Text :=
  findPrefixCarryFrom data (min data.length (OSC_133_PREFIX.length - 1))

def sequenceOf (payload : Text) : Text := payload.takeWhile (· ≠ SEMICOLON)

def exitCodeOf (payload : Text) : Option Text :=
  match payload.dropWhile (· ≠ SEMICOLON) with
  | [] => none
  | _ :: rest => some (rest.takeWhile (· ≠ SEMICOLON))

def MARKER_B : CodeUnit := 0x42
def MARKER_C : CodeUnit := 0x43
def MARKER_D : CodeUnit := 0x44

def isSuccess (payload : Text) : Bool :=
  sequenceOf payload = [MARKER_D] && exitCodeOf payload = some [0x30]

def closesAppOsc133Zone (adjacentMarkers payload : Text) : Bool :=
  isSuccess payload && [MARKER_B, MARKER_C].isSuffixOf adjacentMarkers

/-- What a scanner fires, with the place just past the sequence of a start. -/
inductive Event (N : Type)
  | commandStarted (endInChunk : ℤ)
  | commandFinished (bestEffortExitCode : Option N)
  deriving DecidableEq

def handleOsc133 {N : Type} (toNumber : ParsedInteger → N) (adjacentMarkers payload : Text)
    (endInChunk : ℤ) : List (Event N) × Text :=
  let sequence := sequenceOf payload
  let noted := (adjacentMarkers ++ sequence.take 1).rtake 2
  if closesAppOsc133Zone adjacentMarkers payload then ([], noted)
  else if sequence = [MARKER_C] then ([.commandStarted endInChunk], noted)
  else if sequence = [MARKER_D] then
    ([.commandFinished (parseBestEffortExitCode toNumber (exitCodeOf payload))], noted)
  else ([], noted)

structure ScannerState where
  carry : Text
  adjacentMarkers : Text
  deriving DecidableEq

def ScannerState.initial : ScannerState := ⟨[], []⟩

theorem findOscTerminator_lt {data : Text} {terminator : OscTerminator}
    (hfound : findOscTerminator data = some terminator) :
    0 < terminator.length ∧ terminator.index + terminator.length ≤ data.length := by
  rw [findOscTerminator] at hfound
  have hbel {index : ℕ} (hindex : TextSearch.indexOf? [BEL] data = some index) :
      index + 1 ≤ data.length :=
    (add_length_le_of_indexOf? hindex).resolve_right (by decide)
  have hst {index : ℕ} (hindex : TextSearch.indexOf? STRING_TERMINATOR data = some index) :
      index + 2 ≤ data.length :=
    (add_length_le_of_indexOf? hindex).resolve_right (by decide)
  split at hfound
  · cases hfound
  · cases hfound
    exact ⟨Nat.one_pos, hbel ‹_›⟩
  · cases hfound
    exact ⟨Nat.two_pos, hst ‹_›⟩
  · split_ifs at hfound
    · cases hfound
      exact ⟨Nat.one_pos, hbel ‹_›⟩
    · cases hfound
      exact ⟨Nat.two_pos, hst ‹_›⟩

/-- The loop over the sequences of the text, which starts at a place of the chunk. -/
def scanFrom {N : Type} (toNumber : ParsedInteger → N) (combined : Text)
    (combinedStartInChunk : ℤ) (adjacentMarkers : Text) : List (Event N) × ScannerState :=
  match TextSearch.indexOf? OSC_133_PREFIX combined with
  | none =>
    let carry := findPrefixCarry combined
    ([], ⟨carry, if carry.length < combined.length then [] else adjacentMarkers⟩)
  | some start =>
    let adjacent := if 0 < start then [] else adjacentMarkers
    let behind := combined.drop (start + OSC_133_PREFIX.length)
    match _hfound : findOscTerminator behind with
    | none => ([], ⟨(combined.drop start).rtake MAX_OSC_CARRY_LENGTH, adjacent⟩)
    | some terminator =>
      let sequenceEnd := start + OSC_133_PREFIX.length + terminator.index + terminator.length
      let handled := handleOsc133 toNumber adjacent (behind.take terminator.index)
        (combinedStartInChunk + sequenceEnd)
      let later := scanFrom toNumber (combined.drop sequenceEnd)
        (combinedStartInChunk + sequenceEnd)
        handled.2
      (handled.1 ++ later.1, later.2)
termination_by combined.length
decreasing_by
  have hlt := findOscTerminator_lt _hfound
  have hbehind : behind.length = combined.length - (start + OSC_133_PREFIX.length) := length_drop
  rw [length_drop]
  omega

def scan {N : Type} (toNumber : ParsedInteger → N) (state : ScannerState) (data : Text) :
    List (Event N) × ScannerState :=
  scanFrom toNumber (state.carry ++ data) (-(state.carry.length : ℤ)) state.adjacentMarkers

/-- A sequence with its payload, or a unit of other output. -/
structure Token where
  source : Text
  payload : Option Text
  deriving DecidableEq

section Stability

variable {data : Text}

/-- Which terminator comes first does not depend on what follows it. -/
theorem findOscTerminator_append {terminator : OscTerminator}
    (hfound : findOscTerminator data = some terminator) (later : Text) :
    findOscTerminator (data ++ later) = some terminator := by
  have hbelLength : [BEL].length = 1 := rfl
  have hstLength : STRING_TERMINATOR.length = 2 := rfl
  rw [findOscTerminator] at hfound ⊢
  cases hbel : TextSearch.indexOf? [BEL] data with
  | none =>
    cases hst : TextSearch.indexOf? STRING_TERMINATOR data with
    | none =>
      rw [hbel, hst] at hfound
      cases hfound
    | some st =>
      rw [hbel, hst] at hfound
      rw [indexOf?_append (by decide) hst later]
      have hend := (add_length_le_of_indexOf? hst).resolve_right (by decide)
      cases hlate : TextSearch.indexOf? [BEL] (data ++ later) with
      | none => exact hfound
      | some bel =>
        have hbehind := lt_of_indexOf?_append hbel hlate
        exact (if_neg (by omega)).trans hfound
  | some bel =>
    have hend := (add_length_le_of_indexOf? hbel).resolve_right (by decide)
    rw [indexOf?_append (by decide) hbel later]
    cases hst : TextSearch.indexOf? STRING_TERMINATOR data with
    | some st =>
      rw [hbel, hst] at hfound
      rw [indexOf?_append (by decide) hst later]
      exact hfound
    | none =>
      rw [hbel, hst] at hfound
      cases hlate : TextSearch.indexOf? STRING_TERMINATOR (data ++ later) with
      | none => exact hfound
      | some st =>
        have hbehind := lt_of_indexOf?_append hst hlate
        have hne : bel ≠ st := by
          rintro rfl
          have hunit := prefix_of_indexOf? (indexOf?_append (by decide) hbel later)
          have hsame := prefix_of_prefix_length_le hunit (prefix_of_indexOf? hlate) (by decide)
          exact absurd hsame (by decide)
        exact (if_pos (by omega)).trans hfound

theorem findOscTerminator_spec {data : Text} {terminator : OscTerminator}
    (hfound : findOscTerminator data = some terminator) :
    (∃ ending, (ending = [BEL] ∨ ending = STRING_TERMINATOR) ∧
      ending.length = terminator.length ∧ ending <+: data.drop terminator.index) ∧
    ∀ place < terminator.index,
      ¬ [BEL] <+: data.drop place ∧ ¬ STRING_TERMINATOR <+: data.drop place := by
  have hend := (findOscTerminator_lt hfound).2
  have hfirst {pattern : Text} (hlater : ∀ index ∈ TextSearch.indexOf? pattern data,
      terminator.index ≤ index) {place : ℕ} (hplace : place < terminator.index) :
      ¬ pattern <+: data.drop place := by
    cases hindex : TextSearch.indexOf? pattern data with
    | none => exact indexOf?_eq_none.mp hindex place (by omega)
    | some index =>
      exact not_prefix_of_lt_indexOf? hindex (hplace.trans_le (hlater index hindex))
  suffices hboth : (∃ ending, (ending = [BEL] ∨ ending = STRING_TERMINATOR) ∧
      ending.length = terminator.length ∧ TextSearch.indexOf? ending data = some terminator.index) ∧
      (∀ index ∈ TextSearch.indexOf? [BEL] data, terminator.index ≤ index) ∧
      ∀ index ∈ TextSearch.indexOf? STRING_TERMINATOR data, terminator.index ≤ index by
    obtain ⟨⟨ending, hending, hlength, hindex⟩, hbel, hst⟩ := hboth
    exact ⟨⟨ending, hending, hlength, prefix_of_indexOf? hindex⟩,
      fun place hplace => ⟨hfirst hbel hplace, hfirst hst hplace⟩⟩
  rw [findOscTerminator] at hfound
  split at hfound
  next => cases hfound
  next bel hbel hst =>
    cases hfound
    exact ⟨⟨_, .inl rfl, rfl, hbel⟩, by simp [hbel], by simp [hst]⟩
  next st hbel hst =>
    cases hfound
    exact ⟨⟨_, .inr rfl, rfl, hst⟩, by simp [hbel], by simp [hst]⟩
  next bel st hbel hst =>
    split_ifs at hfound with hless
    · cases hfound
      exact ⟨⟨_, .inl rfl, rfl, hbel⟩, by simp [hbel], by simp [hst, hless.le]⟩
    · cases hfound
      exact ⟨⟨_, .inr rfl, rfl, hst⟩, by simpa [hbel] using hless, by simp [hst]⟩

end Stability

/-! ## Frames behind a marker -/

section Frames

variable (marker : Text)

/-- The longest suffix of so many units at most that the marker starts with. -/
def markerCarryFrom (data : Text) : ℕ → Text
  | 0 => []
  | length + 1 =>
    let suffix := data.drop (data.length - (length + 1))
    if suffix.isPrefixOf marker then suffix else markerCarryFrom data length

def markerCarry (data : Text) : Text :=
  markerCarryFrom marker data (min data.length (marker.length - 1))

/-- The frame or the unit of other output a text starts with. -/
def nextFrame (input : Text) : Option Token :=
  if marker.isPrefixOf input then
    (findOscTerminator (input.drop marker.length)).map fun terminator =>
      ⟨input.take (marker.length + terminator.index + terminator.length),
        some ((input.drop marker.length).take terminator.index)⟩
  else if input.isPrefixOf marker then none
  else input.head?.map fun code => ⟨[code], none⟩

variable {marker} {input : Text} {token : Token}

theorem nextFrame_marker (hstart : marker <+: input) : nextFrame marker input =
    (findOscTerminator (input.drop marker.length)).map fun terminator =>
      ⟨input.take (marker.length + terminator.index + terminator.length),
        some ((input.drop marker.length).take terminator.index)⟩ :=
  if_pos (List.isPrefixOf_iff_prefix.mpr hstart)

theorem nextFrame_open (hstart : ¬ marker <+: input) (hopen : input <+: marker) :
    nextFrame marker input = none :=
  (if_neg (mt isPrefixOf_iff_prefix.mp hstart)).trans
    (if_pos (List.isPrefixOf_iff_prefix.mpr hopen))

theorem nextFrame_output (hstart : ¬ marker <+: input) (hopen : ¬ input <+: marker) :
    nextFrame marker input = input.head?.map fun code => ⟨[code], none⟩ :=
  (if_neg (mt isPrefixOf_iff_prefix.mp hstart)).trans
    (if_neg (mt isPrefixOf_iff_prefix.mp hopen))

theorem nextFrame_spec (htoken : nextFrame marker input = some token) :
    (token.source ≠ [] ∧ token.source <+: input) ∧
      ∀ later, nextFrame marker (input ++ later) = some token := by
  by_cases hstart : marker <+: input
  · rw [nextFrame_marker hstart] at htoken
    obtain ⟨terminator, hfound, rfl⟩ := Option.map_eq_some_iff.mp htoken
    obtain ⟨hpositive, hend⟩ := findOscTerminator_lt hfound
    have hlength := hstart.length_le
    rw [length_drop] at hend
    refine ⟨⟨?_, take_prefix _ _⟩, fun later => ?_⟩
    · rw [← length_pos_iff, length_take]
      omega
    · rw [nextFrame_marker (hstart.trans (prefix_append _ later)),
        drop_append_of_le_length hlength, findOscTerminator_append hfound, Option.map_some,
        take_append_of_le_length (by omega),
        take_append_of_le_length (by rw [length_drop]; omega)]
  · by_cases hopen : input <+: marker
    · rw [nextFrame_open hstart hopen] at htoken
      cases htoken
    · cases input with
      | nil => exact absurd nil_prefix hopen
      | cons code rest =>
        rw [nextFrame_output hstart hopen] at htoken
        cases htoken
        refine ⟨⟨cons_ne_nil _ _, ⟨rest, rfl⟩⟩, fun later => nextFrame_output ?_ ?_⟩
        · exact fun hlater => (List.prefix_or_prefix_of_prefix hlater
            (prefix_append (code :: rest) later)).elim hstart hopen
        · exact fun hlater => hopen ((prefix_append (code :: rest) later).trans hlater)

variable (marker)

def frames : Scanner CodeUnit Token where
  next := nextFrame marker
  source := Token.source
  source_ne_nil htoken := (nextFrame_spec htoken).1.1
  source_prefix htoken := (nextFrame_spec htoken).1.2
  next_append htoken := (nextFrame_spec htoken).2

/-- A payload between its marker and the first terminator behind it. -/
def IsFrame (source payload : Text) : Prop :=
  ∃ ending, (ending = [BEL] ∨ ending = STRING_TERMINATOR) ∧ source = marker ++ payload ++ ending ∧
    ∀ place < payload.length, ¬ [BEL] <+: (payload ++ ending).drop place ∧
      ¬ STRING_TERMINATOR <+: (payload ++ ending).drop place

theorem source_of_mem_tokens (htoken : token ∈ (frames marker).tokens input) :
    match token.payload with
    | none => ∃ code, token.source = [code]
    | some payload => IsFrame marker token.source payload := by
  obtain ⟨front, hnext⟩ := (frames marker).exists_next_of_mem htoken
  change nextFrame marker front = some token at hnext
  by_cases hstart : marker <+: front
  · rw [nextFrame_marker hstart] at hnext
    obtain ⟨terminator, hfound, rfl⟩ := Option.map_eq_some_iff.mp hnext
    obtain ⟨behind, rfl⟩ := hstart
    rw [drop_left] at hfound ⊢
    obtain ⟨⟨ending, hending, hlength, rest, hrest⟩, hfirst⟩ := findOscTerminator_spec hfound
    have htake : behind.take (terminator.index + terminator.length) =
        behind.take terminator.index ++ ending := by
      rw [take_add, ← hrest, ← hlength, take_left]
    refine ⟨ending, hending, ?_, fun place hplace => ?_⟩
    · rw [Nat.add_assoc, take_length_add_append, htake, append_assoc]
    · rw [← htake]
      have hless : place < terminator.index := hplace.trans_le (length_take_le _ _)
      have hshort : ((behind.take (terminator.index + terminator.length)).drop place) <+:
          behind.drop place := (List.take_prefix _ _).drop place
      exact ⟨fun hbel => (hfirst place hless).1 (hbel.trans hshort),
        fun hst => (hfirst place hless).2 (hst.trans hshort)⟩
  · by_cases hopen : front <+: marker
    · rw [nextFrame_open hstart hopen] at hnext
      cases hnext
    · rw [nextFrame_output hstart hopen] at hnext
      obtain ⟨code, -, rfl⟩ := Option.map_eq_some_iff.mp hnext
      exact ⟨code, rfl⟩

variable {marker}

theorem markerCarryFrom_cons {code : CodeUnit} {length : ℕ} (hlength : length ≤ input.length) :
    markerCarryFrom marker (code :: input) length = markerCarryFrom marker input length := by
  induction length with
  | zero => rfl
  | succ length ih =>
    have hplace : (code :: input).length - (length + 1) = (input.length - (length + 1)) + 1 := by
      rw [length_cons]
      omega
    rw [markerCarryFrom, markerCarryFrom, hplace, drop_succ_cons, ih (by omega)]

theorem length_markerCarry_le (data : Text) :
    (markerCarry marker data).length ≤ marker.length - 1 := by
  have hfrom : ∀ length, (markerCarryFrom marker data length).length ≤ length := by
    intro length
    induction length with
    | zero => exact Nat.le_refl 0
    | succ length ih =>
      rw [markerCarryFrom]
      split_ifs
      · rw [length_drop]
        omega
      · omega
  exact (hfrom _).trans (Nat.min_le_right _ _)

/-- Without a marker the carry is what the text ends in the middle of. -/
theorem markerCarry_eq (hnone : TextSearch.indexOf? marker input = none) :
    markerCarry marker input = (frames marker).rest input ∧
      ∀ token ∈ (frames marker).tokens input, token.payload = none := by
  induction input with
  | nil =>
    have hnext : (frames marker).next [] = none := by
      change nextFrame marker [] = none
      exact nextFrame_open (indexOf?_eq_none.mp hnone 0 (Nat.le_refl 0)) nil_prefix
    rw [Scanner.tokens_none hnext, Scanner.rest_none hnext]
    exact ⟨rfl, fun token htoken => absurd htoken not_mem_nil⟩
  | cons code rest ih =>
    rw [indexOf?_eq_none] at hnone
    have hstart : ¬ marker <+: code :: rest := hnone 0 (Nat.zero_le _)
    have hrest : TextSearch.indexOf? marker rest = none := indexOf?_eq_none.mpr fun place hplace =>
        hnone (place + 1) (Nat.succ_le_succ hplace)
    by_cases hopen : code :: rest <+: marker
    · have hnext : (frames marker).next (code :: rest) = none := nextFrame_open hstart hopen
      rw [Scanner.rest_none hnext, Scanner.tokens_none hnext]
      refine ⟨?_, fun token htoken => absurd htoken not_mem_nil⟩
      have hlength : (code :: rest).length ≤ marker.length - 1 := by
        have hle := hopen.length_le
        have hne : (code :: rest).length ≠ marker.length := fun heq =>
          hstart (hopen.eq_of_length heq ▸ prefix_rfl)
        omega
      rw [markerCarry, Nat.min_eq_left hlength, length_cons, markerCarryFrom,
        length_cons, Nat.sub_self, drop_zero,
        if_pos (List.isPrefixOf_iff_prefix.mpr hopen)]
    · have hnext : (frames marker).next (code :: rest) = some ⟨[code], none⟩ :=
        nextFrame_output hstart hopen
      obtain ⟨hcarry, htokens⟩ := ih hrest
      rw [Scanner.rest_some hnext, Scanner.tokens_some hnext]
      refine ⟨Eq.trans ?_ hcarry, fun token htoken => ?_⟩
      · rw [markerCarry, markerCarry]
        by_cases hlong : marker.length - 1 ≤ rest.length
        · rw [Nat.min_eq_right (by rw [length_cons]; omega), Nat.min_eq_right hlong,
            markerCarryFrom_cons hlong]
        · rw [Nat.min_eq_left (by rw [length_cons]; omega), Nat.min_eq_left (by omega),
            length_cons, markerCarryFrom, length_cons, Nat.sub_self, drop_zero,
            if_neg (mt isPrefixOf_iff_prefix.mp hopen), markerCarryFrom_cons (Nat.le_refl _)]
      · rcases mem_cons.mp htoken with rfl | hlater
        · rfl
        · exact htokens token hlater

theorem tokens_before {start : ℕ} (hstart : TextSearch.indexOf? marker input = some start) :
    (frames marker).tokens input = (input.take start).map (fun code => ⟨[code], none⟩) ++
        (frames marker).tokens (input.drop start) ∧
      (frames marker).rest input = (frames marker).rest (input.drop start) := by
  induction start generalizing input with
  | zero => exact ⟨rfl, rfl⟩
  | succ start ih =>
    cases input with
    | nil =>
      rw [TextSearch.indexOf?] at hstart
      split_ifs at hstart
      cases hstart
    | cons code rest =>
      have hlength := (prefix_of_indexOf? hstart).length_le
      have hfirst : ¬ marker <+: code :: rest :=
        not_prefix_of_lt_indexOf? hstart (Nat.succ_pos start)
      have hopen : ¬ code :: rest <+: marker := by
        intro hprefix
        have hshort := hprefix.length_le
        rw [length_drop, length_cons] at hlength
        rw [length_cons] at hshort
        omega
      have hrest : TextSearch.indexOf? marker rest = some start := by
        rw [TextSearch.indexOf?, if_neg (mt isPrefixOf_iff_prefix.mp hfirst)] at hstart
        obtain ⟨place, hplace, hsame⟩ := Option.map_eq_some_iff.mp hstart
        rw [hplace, Nat.succ.inj hsame]
      obtain ⟨htokens, hleft⟩ := ih hrest
      have hnext : (frames marker).next (code :: rest) = some ⟨[code], none⟩ :=
        nextFrame_output hfirst hopen
      rw [Scanner.tokens_some hnext, Scanner.rest_some hnext]
      exact ⟨congrArg (⟨[code], none⟩ :: ·) htokens, hleft⟩

end Frames

def nextToken : Text → Option Token
  | [] => none
  | code :: rest =>
    if OSC_133_PREFIX.isPrefixOf (code :: rest) then
      let behind := (code :: rest).drop OSC_133_PREFIX.length
      (findOscTerminator behind).map fun terminator =>
        ⟨(code :: rest).take (OSC_133_PREFIX.length + terminator.index + terminator.length),
          some (behind.take terminator.index)⟩
    else if (code :: rest).isPrefixOf OSC_133_PREFIX then none
    else some ⟨[code], none⟩

theorem nextToken_eq : nextToken = nextFrame OSC_133_PREFIX := by
  funext input
  cases input <;> rfl

theorem nextToken_spec {input : Text} {token : Token} (htoken : nextToken input = some token) :
    (token.source ≠ [] ∧ token.source <+: input) ∧
      ∀ later, nextToken (input ++ later) = some token := by
  rw [nextToken_eq] at htoken ⊢
  exact nextFrame_spec htoken

def scanner : Scanner CodeUnit Token where
  next := nextToken
  source := Token.source
  source_ne_nil htoken := (nextToken_spec htoken).1.1
  source_prefix htoken := (nextToken_spec htoken).1.2
  next_append htoken := (nextToken_spec htoken).2

theorem scanner_eq : scanner = frames OSC_133_PREFIX := by
  simp only [scanner, frames, nextToken_eq]

theorem findPrefixCarry_eq (data : Text) :
    findPrefixCarry data = markerCarry OSC_133_PREFIX data := by
  have hfrom : ∀ length, findPrefixCarryFrom data length =
      markerCarryFrom OSC_133_PREFIX data length := by
    intro length
    induction length with
    | zero => rfl
    | succ length ih => rw [findPrefixCarryFrom, markerCarryFrom, ih]
  exact hfrom _

end Wakii.Terminal.CommandFinished
