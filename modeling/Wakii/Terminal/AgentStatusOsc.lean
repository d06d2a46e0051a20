import Wakii.Terminal.CommandFinished

/-!
# Agent status sequences

A processor takes the OSC 9999 frames out of a terminal's output and holds back what may
become one.  It keeps the places of the terminators it has seen within a chunk, and starts
the search of a frame begun earlier where the last search ended.
-/

namespace Wakii.Terminal.AgentStatusOsc

open CommandFinished
open EscapeTail (BEL)
open TokenStream (Scanner)

def OSC_AGENT_STATUS_PREFIX : Text := [ESCAPE, 0x5d, 0x39, 0x39, 0x39, 0x39, 0x3b]
def MAX_PENDING : ℕ := 64 * 1024

def findAgentStatusPrefixCarryFrom (data : Text) : ℕ → Text
  | 0 => []
  | length + 1 =>
    let suffix := data.drop (data.length - (length + 1))
    if suffix.isPrefixOf OSC_AGENT_STATUS_PREFIX then suffix
    else findAgentStatusPrefixCarryFrom data length

def findAgentStatusPrefixCarry (data : Text) : Text :=
  match data.getLast? with
  | none => []
  | some lastChar =>
    if lastChar ≠ ESCAPE ∧ lastChar ≠ 0x5d ∧ lastChar ≠ 0x39 ∧ lastChar ≠ 0x3b then []
    else
      findAgentStatusPrefixCarryFrom data (min data.length (OSC_AGENT_STATUS_PREFIX.length - 1))

structure ProcessedAgentStatusChunk (P : Type) where
  cleanData : Text
  payloads : List P
  lastPayloadCleanOffset : Option ℕ
  payloadCleanOffsets : List ℕ
deriving DecidableEq

/-- The cached matches; none where the rest of the text holds no match. -/
structure NextTerminator where
  belIndex : Option ℕ
  stIndex : Option ℕ

/-- A match before the start of a search is searched for again. -/
def nextIndex (pattern data : Text) (searchFrom : ℕ) : Option ℕ → Option ℕ
  | none => none
  | some index =>
    if index < searchFrom then TextSearch.indexOfFrom? pattern data searchFrom else some index

def findAgentStatusTerminator (data : Text) (searchFrom : ℕ) (next : NextTerminator) :
    Option OscTerminator × NextTerminator :=
  let belIndex := nextIndex [BEL] data searchFrom next.belIndex
  let stIndex := nextIndex STRING_TERMINATOR data searchFrom next.stIndex
  (match belIndex, stIndex with
    | none, none => none
    | some bel, none => some ⟨bel, 1⟩
    | none, some st => some ⟨st, 2⟩
    | some bel, some st => if bel < st then some ⟨bel, 1⟩ else some ⟨st, 2⟩,
    ⟨belIndex, stIndex⟩)

/-- What a processor holds back, and how much of it was searched. -/
structure ProcessorState where
  pending : Text
  pendingSearched : ℕ
deriving DecidableEq

def ProcessorState.initial : ProcessorState := ⟨[], 0⟩

section Search

variable {pattern data : Text} {searchFrom earlier : ℕ} {next : NextTerminator}

theorem le_nextIndex {cached : Option ℕ} {index : ℕ}
    (hindex : nextIndex pattern data searchFrom cached = some index) : searchFrom ≤ index := by
  cases cached with
  | none => cases hindex
  | some known =>
    rw [nextIndex] at hindex
    split_ifs at hindex with hbefore
    · exact (TextSearch.indexOfFrom?_eq_some hindex).1
    · cases hindex
      exact Nat.le_of_not_lt hbefore

theorem findAgentStatusTerminator_le {terminator : OscTerminator}
    (hfound : (findAgentStatusTerminator data searchFrom next).1 = some terminator) :
    searchFrom ≤ terminator.index ∧ 0 < terminator.length := by
  rw [findAgentStatusTerminator] at hfound
  dsimp only at hfound
  split at hfound
  next => cases hfound
  next bel hbel _ =>
    cases hfound
    exact ⟨le_nextIndex hbel, Nat.one_pos⟩
  next st _ hst =>
    cases hfound
    exact ⟨le_nextIndex hst, Nat.two_pos⟩
  next bel st hbel hst =>
    split_ifs at hfound
    · cases hfound
      exact ⟨le_nextIndex hbel, Nat.one_pos⟩
    · cases hfound
      exact ⟨le_nextIndex hst, Nat.two_pos⟩

end Search

variable {P : Type} (parseAgentStatusPayload : Text → Option P)

def ProcessedAgentStatusChunk.addPayload (chunk : ProcessedAgentStatusChunk P) (text : Text) :
    ProcessedAgentStatusChunk P :=
  match parseAgentStatusPayload text with
  | none => chunk
  | some parsed =>
    { chunk with
      payloads := chunk.payloads ++ [parsed]
      lastPayloadCleanOffset := some chunk.cleanData.length
      payloadCleanOffsets := chunk.payloadCleanOffsets ++ [chunk.cleanData.length] }

def ProcessedAgentStatusChunk.addClean (chunk : ProcessedAgentStatusChunk P) (text : Text) :
    ProcessedAgentStatusChunk P :=
  { chunk with cleanData := chunk.cleanData ++ text }

def processFrom (combined : Text) (resumeFrom cursor : ℕ) (next : NextTerminator)
    (chunk : ProcessedAgentStatusChunk P) : ProcessedAgentStatusChunk P × ProcessorState :=
  if _hcursor : cursor < combined.length then
    match _hstart : TextSearch.indexOfFrom? OSC_AGENT_STATUS_PREFIX combined cursor with
    | none =>
      let tail := combined.drop cursor
      let carry := findAgentStatusPrefixCarry tail
      (chunk.addClean (tail.take (tail.length - carry.length)), ⟨carry, 0⟩)
    | some start =>
      let clean := chunk.addClean ((combined.take start).drop cursor)
      let payloadStart := start + OSC_AGENT_STATUS_PREFIX.length
      -- minus one so a terminator across the previous chunk boundary is still found
      let searchFrom :=
        if start = 0 ∧ 0 < resumeFrom then max payloadStart (resumeFrom - 1) else payloadStart
      let found := findAgentStatusTerminator combined searchFrom next
      match _hfound : found.1 with
      | none =>
        let candidate := combined.drop start
        let pending := if MAX_PENDING < candidate.length then [] else candidate
        (clean, ⟨pending, pending.length⟩)
      | some terminator =>
        processFrom combined resumeFrom (terminator.index + terminator.length) found.2
          (clean.addPayload parseAgentStatusPayload
            ((combined.take terminator.index).drop payloadStart))
  else (chunk, ⟨[], 0⟩)
termination_by combined.length - cursor
decreasing_by
  have hle := (TextSearch.indexOfFrom?_eq_some _hstart).1
  obtain ⟨hfrom, hpositive⟩ := findAgentStatusTerminator_le _hfound
  have hsearch : start + OSC_AGENT_STATUS_PREFIX.length ≤ searchFrom := by
    dsimp only [searchFrom]
    split_ifs
    · exact Nat.le_max_left _ _
    · exact Nat.le_refl _
  omega

def process (state : ProcessorState) (data : Text) : ProcessedAgentStatusChunk P × ProcessorState :=
  if state.pending = [] ∧ TextSearch.includes OSC_AGENT_STATUS_PREFIX data = false then
    let carry := findAgentStatusPrefixCarry data
    if carry = [] then (⟨data, [], none, []⟩, state)
    else (⟨data.take (data.length - carry.length), [], none, []⟩, { state with pending := carry })
  else
    processFrom parseAgentStatusPayload (state.pending ++ data) state.pendingSearched 0
      ⟨some 0, some 0⟩ ⟨[], [], none, []⟩

end Wakii.Terminal.AgentStatusOsc
