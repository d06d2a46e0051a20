import Wakii.Terminal.AgentStatusOsc

/-!
# Agent status sequences do not depend on where the output is cut

The loop adds what the tokens of the text add, one by one, and holds back what the stream so
far ends in the middle of.
-/

namespace Wakii.Terminal.AgentStatusOsc

open List CommandFinished TextSearch
open EscapeTail (BEL)
open TokenStream (Scanner)

def unfinished (stream : Text) : Text := (frames OSC_AGENT_STATUS_PREFIX).rest stream

def tokens (stream : Text) : List Token := (frames OSC_AGENT_STATUS_PREFIX).tokens stream

theorem tokens_nil : tokens [] = [] := Scanner.tokens_none rfl

theorem unfinished_nil : unfinished [] = [] := Scanner.rest_none rfl

section Search

variable {pattern data : Text} {searchFrom earlier : ℕ} {next : NextTerminator}

theorem stringTerminator_ne_nil : STRING_TERMINATOR ≠ [] := cons_ne_nil _ _

theorem nextIndex_eq (hpattern : pattern ≠ []) (hearlier : earlier ≤ searchFrom) :
    nextIndex pattern data searchFrom (TextSearch.indexOfFrom? pattern data earlier) =
      TextSearch.indexOfFrom? pattern data searchFrom := by
  cases hcached : TextSearch.indexOfFrom? pattern data earlier with
  | none =>
    rw [indexOfFrom?_eq_none hpattern] at hcached
    exact ((indexOfFrom?_eq_none hpattern).mpr fun place hplace =>
      hcached place (hearlier.trans hplace)).symm
  | some index =>
    rw [nextIndex]
    split_ifs with hbefore
    · rfl
    · have hfirst := (indexOfFrom?_eq_some hcached).2.2
      rw [← hcached]
      exact indexOfFrom?_skip hpattern hearlier fun place hle hless =>
        hfirst place hle (hless.trans_le (Nat.le_of_not_lt hbefore))

/-- What is cached is what a search from some earlier place finds. -/
def Cached (data : Text) (earlier : ℕ) (next : NextTerminator) : Prop :=
  ∀ searchFrom, earlier ≤ searchFrom →
    nextIndex [BEL] data searchFrom next.belIndex = TextSearch.indexOfFrom? [BEL] data searchFrom ∧
    nextIndex STRING_TERMINATOR data searchFrom next.stIndex =
      TextSearch.indexOfFrom? STRING_TERMINATOR data searchFrom

theorem cached_start (data : Text) : Cached data 1 ⟨some 0, some 0⟩ :=
  fun _ hsearch => ⟨if_pos hsearch, if_pos hsearch⟩

variable (hcached : Cached data earlier next) (hsearch : earlier ≤ searchFrom)
include hcached hsearch

theorem findAgentStatusTerminator_cached :
    Cached data searchFrom (findAgentStatusTerminator data searchFrom next).2 := by
  intro later hlater
  obtain ⟨hbel, hst⟩ := hcached searchFrom hsearch
  rw [findAgentStatusTerminator]
  dsimp only
  rw [hbel, hst]
  exact ⟨nextIndex_eq (cons_ne_nil _ _) hlater, nextIndex_eq stringTerminator_ne_nil hlater⟩

/-- The terminator found is the first one behind the start of the payload. -/
theorem findAgentStatusTerminator_eq {payloadStart : ℕ} (hstart : payloadStart ≤ searchFrom)
    (hskipped : ∀ place, payloadStart ≤ place → place < searchFrom →
      ¬ [BEL] <+: data.drop place ∧ ¬ STRING_TERMINATOR <+: data.drop place) :
    (findAgentStatusTerminator data searchFrom next).1 =
      (findOscTerminator (data.drop payloadStart)).map fun terminator =>
        ⟨terminator.index + payloadStart, terminator.length⟩ := by
  obtain ⟨hbel, hst⟩ := hcached searchFrom hsearch
  have hbelSkip := indexOfFrom?_skip (cons_ne_nil BEL []) hstart
    fun place hle hless => (hskipped place hle hless).1
  have hstSkip := indexOfFrom?_skip stringTerminator_ne_nil hstart
    fun place hle hless => (hskipped place hle hless).2
  rw [findAgentStatusTerminator]
  dsimp only
  rw [hbel, hst, ← hbelSkip, ← hstSkip, TextSearch.indexOfFrom?, TextSearch.indexOfFrom?,
    findOscTerminator]
  cases TextSearch.indexOf? [BEL] (data.drop payloadStart) with
  | none => cases TextSearch.indexOf? STRING_TERMINATOR (data.drop payloadStart) <;> rfl
  | some bel =>
    cases TextSearch.indexOf? STRING_TERMINATOR (data.drop payloadStart) with
    | none => rfl
    | some st =>
      simp only [Option.map_some, Nat.add_lt_add_iff_right]
      split_ifs <;> rfl

end Search

section Carry

theorem findAgentStatusPrefixCarry_eq (data : Text) :
    findAgentStatusPrefixCarry data = markerCarry OSC_AGENT_STATUS_PREFIX data := by
  have hfrom : ∀ length, findAgentStatusPrefixCarryFrom data length =
      markerCarryFrom OSC_AGENT_STATUS_PREFIX data length := by
    intro length
    induction length with
    | zero => rfl
    | succ length ih => rw [findAgentStatusPrefixCarryFrom, markerCarryFrom, ih]
  rw [findAgentStatusPrefixCarry]
  cases hlast : data.getLast? with
  | none =>
    rw [getLast?_eq_none_iff.mp hlast]
    rfl
  | some lastChar =>
    dsimp only
    split_ifs with hother
    · -- a carry would end in a unit of the marker
      have hnone : ∀ length, markerCarryFrom OSC_AGENT_STATUS_PREFIX data length = [] := by
        intro length
        induction length with
        | zero => rfl
        | succ length ih =>
          rw [markerCarryFrom, if_neg, ih]
          intro hprefix
          have hend : (data.drop (data.length - (length + 1))).getLast? = some lastChar := by
            have hpositive : data ≠ [] := by
              rintro rfl
              cases hlast
            rw [getLast?_drop, if_neg, hlast]
            have hlength := length_pos_iff.mpr hpositive
            omega
          have hmem := (List.isPrefixOf_iff_prefix.mp hprefix).subset (mem_of_getLast? hend)
          simp only [OSC_AGENT_STATUS_PREFIX, mem_cons, not_mem_nil, or_false] at hmem
          tauto
      exact (hnone _).symm
    · exact hfrom _

end Carry

variable {P : Type} (parse : Text → Option P)

def add (chunk : ProcessedAgentStatusChunk P) (token : Token) : ProcessedAgentStatusChunk P :=
  match token.payload with
  | none => chunk.addClean token.source
  | some payload => chunk.addPayload parse payload

def heldState (text : Text) : ProcessorState :=
  if OSC_AGENT_STATUS_PREFIX <+: text then
    let pending := if MAX_PENDING < text.length then [] else text
    ⟨pending, pending.length⟩
  else ⟨text, 0⟩

section Loop

variable {parse} {combined : Text} {resumeFrom cursor start : ℕ} {next : NextTerminator}
  {chunk : ProcessedAgentStatusChunk P}

theorem foldl_add_output {parts : List Token} (hparts : ∀ token ∈ parts, token.payload = none) :
    parts.foldl (add parse) chunk = chunk.addClean (parts.flatMap Token.source) := by
  induction parts generalizing chunk with
  | nil => simp [ProcessedAgentStatusChunk.addClean]
  | cons token parts ih =>
    have hfirst : add parse chunk token = chunk.addClean token.source := by
      rw [add, hparts token mem_cons_self]
    rw [foldl_cons, hfirst, ih fun other hother => hparts other (mem_cons_of_mem _ hother)]
    simp [ProcessedAgentStatusChunk.addClean]

theorem foldl_add_units (units : Text) :
    (units.map fun code => (⟨[code], none⟩ : Token)).foldl (add parse) chunk =
      chunk.addClean units := by
  rw [foldl_add_output]
  · congr 1
    induction units with
    | nil => rfl
    | cons code units ih => rw [map_cons, flatMap_cons, ih]; rfl
  · intro token htoken
    obtain ⟨code, -, rfl⟩ := mem_map.mp htoken
    rfl

theorem processFrom_none (hcursor : cursor < combined.length)
    (hnone : TextSearch.indexOfFrom? OSC_AGENT_STATUS_PREFIX combined cursor = none) :
    processFrom parse combined resumeFrom cursor next chunk =
      let tail := combined.drop cursor
      let carry := findAgentStatusPrefixCarry tail
      (chunk.addClean (tail.take (tail.length - carry.length)), ⟨carry, 0⟩) := by
  rw [processFrom, dif_pos hcursor]
  split <;> simp_all

def searchStart (resumeFrom start : ℕ) : ℕ :=
  if start = 0 ∧ 0 < resumeFrom then
    max (start + OSC_AGENT_STATUS_PREFIX.length) (resumeFrom - 1)
  else start + OSC_AGENT_STATUS_PREFIX.length

section

variable (hcursor : cursor < combined.length)
  (hstart : TextSearch.indexOfFrom? OSC_AGENT_STATUS_PREFIX combined cursor = some start)
include hcursor hstart

theorem processFrom_open
    (hopen : (findAgentStatusTerminator combined (searchStart resumeFrom start) next).1 = none) :
    processFrom parse combined resumeFrom cursor next chunk =
      let pending := if MAX_PENDING < (combined.drop start).length then [] else combined.drop start
      (chunk.addClean ((combined.take start).drop cursor), ⟨pending, pending.length⟩) := by
  rw [processFrom, dif_pos hcursor]
  split
  next hnone => cases hstart.symm.trans hnone
  next found hsome =>
    obtain rfl := Option.some.inj (hstart.symm.trans hsome)
    dsimp only
    split
    next => rfl
    next terminator hfound => cases hopen.symm.trans hfound

theorem processFrom_frame {terminator : OscTerminator}
    (hfound : (findAgentStatusTerminator combined (searchStart resumeFrom start) next).1 =
      some terminator) :
    processFrom parse combined resumeFrom cursor next chunk =
      processFrom parse combined resumeFrom (terminator.index + terminator.length)
        (findAgentStatusTerminator combined (searchStart resumeFrom start) next).2
        ((chunk.addClean ((combined.take start).drop cursor)).addPayload parse
          ((combined.take terminator.index).drop (start + OSC_AGENT_STATUS_PREFIX.length))) := by
  conv_lhs => rw [processFrom, dif_pos hcursor]
  split
  next hnone => cases hstart.symm.trans hnone
  next found hsome =>
    obtain rfl := Option.some.inj (hstart.symm.trans hsome)
    dsimp only
    split
    next hopen => cases hfound.symm.trans hopen
    next other hother =>
      obtain rfl := Option.some.inj (hfound.symm.trans hother)
      rfl

end

theorem output_eq {text : Text} (hnone : TextSearch.indexOf? OSC_AGENT_STATUS_PREFIX text = none) :
    (chunk.addClean (text.take (text.length - (findAgentStatusPrefixCarry text).length)),
        (⟨findAgentStatusPrefixCarry text, 0⟩ : ProcessorState)) =
      ((tokens text).foldl (add parse) chunk, heldState (unfinished text)) := by
  obtain ⟨hcarry, hparts⟩ := markerCarry_eq hnone
  have hshort := @length_markerCarry_le OSC_AGENT_STATUS_PREFIX text
  have hsources := (frames OSC_AGENT_STATUS_PREFIX).sources_append_rest text
  have hclosed : ¬ OSC_AGENT_STATUS_PREFIX <+: unfinished text := fun hmarker => by
    have hlength := hmarker.length_le
    have hseven : OSC_AGENT_STATUS_PREFIX.length = 7 := rfl
    rw [hcarry] at hshort
    change _ ≤ ((frames OSC_AGENT_STATUS_PREFIX).rest text).length at hlength
    omega
  have htake {front back whole : Text} (hwhole : front ++ back = whole) :
      whole.take (whole.length - back.length) = front := by
    rw [← hwhole, length_append, Nat.add_sub_cancel, take_left]
  rw [tokens, foldl_add_output hparts, heldState, if_neg hclosed, findAgentStatusPrefixCarry_eq,
    hcarry, htake hsources]
  rfl

/-- The loop adds what the tokens add, and holds back what is left. -/
theorem processFrom_eq (hcursor : cursor ≤ combined.length)
    (hcached : Cached combined (cursor + 1) next)
    (hresume : ∀ place, OSC_AGENT_STATUS_PREFIX.length ≤ place → place < resumeFrom - 1 →
      ¬ [BEL] <+: combined.drop place ∧ ¬ STRING_TERMINATOR <+: combined.drop place) :
    processFrom parse combined resumeFrom cursor next chunk =
      ((tokens (combined.drop cursor)).foldl (add parse) chunk,
        heldState (unfinished (combined.drop cursor))) := by
  induction hleft : combined.length - cursor using Nat.strongRecOn generalizing cursor next
    chunk with
  | _ left ih =>
    by_cases hless : cursor < combined.length
    · cases hfirst : TextSearch.indexOf? OSC_AGENT_STATUS_PREFIX (combined.drop cursor) with
      | none =>
        have hnone : TextSearch.indexOfFrom? OSC_AGENT_STATUS_PREFIX combined cursor = none := by
          rw [TextSearch.indexOfFrom?, hfirst]
          rfl
        rw [processFrom_none hless hnone]
        exact output_eq hfirst
      | some offset =>
        have hstart : TextSearch.indexOfFrom? OSC_AGENT_STATUS_PREFIX combined cursor =
            some (offset + cursor) := by
          rw [TextSearch.indexOfFrom?, hfirst]
          rfl
        obtain ⟨htokens, hrest⟩ := tokens_before hfirst
        have hunits : (combined.drop cursor).take offset =
            (combined.take (offset + cursor)).drop cursor := by
          rw [drop_take, Nat.add_sub_cancel]
        have hstands := prefix_of_indexOf? hfirst
        rw [drop_drop, Nat.add_comm cursor offset] at htokens hrest hstands
        generalize hplace : offset + cursor = start at *
        have hnext := nextFrame_marker hstands
        rw [drop_drop] at hnext
        have hwithin := hstands.length_le
        rw [length_drop] at hwithin
        have hseven : OSC_AGENT_STATUS_PREFIX.length = 7 := rfl
        have hsearch : start + OSC_AGENT_STATUS_PREFIX.length ≤ searchStart resumeFrom start := by
          rw [searchStart]
          split_ifs
          · exact Nat.le_max_left _ _
          · exact Nat.le_refl _
        have hterminator := findAgentStatusTerminator_eq hcached (by omega) hsearch
          fun place hle hbefore => by
            rw [searchStart] at hbefore
            split_ifs at hbefore with hzero
            · exact hresume place (by omega) (by omega)
            · omega
        rw [tokens, unfinished, htokens, hrest, hunits, foldl_append, foldl_add_units]
        cases hfound : findOscTerminator
          (combined.drop (start + OSC_AGENT_STATUS_PREFIX.length)) with
        | none =>
          rw [hfound] at hnext hterminator
          rw [processFrom_open hless hstart hterminator, Scanner.tokens_none hnext,
            Scanner.rest_none hnext, heldState, if_pos hstands]
          rfl
        | some terminator =>
          rw [hfound] at hnext hterminator
          obtain ⟨hpositive, hend⟩ := findOscTerminator_lt hfound
          obtain ⟨hlater, -⟩ := findAgentStatusTerminator_le hterminator
          rw [length_drop] at hend
          generalize hcode : OSC_AGENT_STATUS_PREFIX.length = seven at *
          have hsource : ((combined.drop start).take
              (seven + terminator.index + terminator.length)).length =
              seven + terminator.index + terminator.length := by
            rw [length_take_of_le]
            rw [length_drop]
            omega
          have hbehind : (combined.drop start).drop ((combined.drop start).take
              (seven + terminator.index + terminator.length)).length =
              combined.drop (terminator.index + (start + seven) + terminator.length) := by
            rw [hsource, drop_drop]
            congr 1
            omega
          have hpayload :
              (combined.take (terminator.index + (start + seven))).drop (start + seven) =
              (combined.drop (start + seven)).take terminator.index := by
            rw [drop_take, Nat.add_sub_cancel]
          have hmono : Cached combined (terminator.index + (start + seven) + terminator.length + 1)
              (findAgentStatusTerminator combined (searchStart resumeFrom start) next).2 :=
            fun later hle => findAgentStatusTerminator_cached hcached (by omega) later
              (hlater.trans (by dsimp only; omega))
          rw [processFrom_frame hless hstart hterminator, Scanner.tokens_some hnext,
            Scanner.rest_some hnext]
          change _ = ((_ :: (frames _).tokens ((combined.drop start).drop
            (List.take _ (combined.drop start)).length)).foldl _ _, heldState ((frames _).rest
              ((combined.drop start).drop (List.take _ (combined.drop start)).length)))
          rw [hbehind]
          dsimp only
          rw [hcode, hpayload]
          exact ih _ (by omega) (by omega) hmono rfl
    · have hend : combined.drop cursor = [] := drop_eq_nil_of_le (Nat.le_of_not_lt hless)
      rw [processFrom, dif_neg hless, hend, tokens_nil, unfinished_nil]
      rfl

end Loop

section Calls

variable {past data : Text}

theorem tokens_append : tokens (past ++ data) = tokens past ++ tokens (unfinished past ++ data) :=
  (frames OSC_AGENT_STATUS_PREFIX).tokens_append past data

theorem unfinished_append : unfinished (past ++ data) = unfinished (unfinished past ++ data) :=
  (frames OSC_AGENT_STATUS_PREFIX).rest_append past data

theorem tokens_unfinished : tokens (unfinished past) = [] :=
  Scanner.tokens_none ((frames OSC_AGENT_STATUS_PREFIX).next_rest past)

theorem not_terminated (hmarker : OSC_AGENT_STATUS_PREFIX <+: unfinished past) {pattern : Text}
    (hpattern : pattern = [BEL] ∨ pattern = STRING_TERMINATOR) {place : ℕ}
    (hbehind : OSC_AGENT_STATUS_PREFIX.length ≤ place)
    (hplace : place + 1 < (unfinished past).length) :
    ¬ pattern <+: (unfinished past ++ data).drop place := by
  intro hstands
  have hnext : nextFrame OSC_AGENT_STATUS_PREFIX (unfinished past) = none :=
    (frames OSC_AGENT_STATUS_PREFIX).next_rest past
  rw [nextFrame_marker hmarker, Option.map_eq_none_iff] at hnext
  have hsearch : TextSearch.indexOf? pattern
      ((unfinished past).drop OSC_AGENT_STATUS_PREFIX.length) = none := by
    rw [findOscTerminator] at hnext
    split at hnext
    next hbel hst => rcases hpattern with rfl | rfl <;> assumption
    next => cases hnext
    next => cases hnext
    next => split_ifs at hnext
  have hlength : pattern.length ≤ 2 := by
    rcases hpattern with rfl | rfl
    · exact Nat.le_succ 1
    · exact Nat.le_refl 2
  have hwithin := prefix_drop_of_append hstands (by omega)
  refine indexOf?_eq_none.mp hsearch (place - OSC_AGENT_STATUS_PREFIX.length) ?_ ?_
  · rw [length_drop]
    omega
  · rw [drop_drop, Nat.add_sub_cancel' hbehind]
    exact hwithin

def ProcessedAgentStatusChunk.empty : ProcessedAgentStatusChunk P := ⟨[], [], none, []⟩

variable (hfits : (unfinished past).length ≤ MAX_PENDING)
include hfits

theorem heldState_pending : (heldState (unfinished past)).pending = unfinished past := by
  rw [heldState, if_neg (Nat.not_lt.mpr hfits)]
  split_ifs <;> rfl

theorem process_eq : process parse (heldState (unfinished past)) data =
    ((tokens (unfinished past ++ data)).foldl (add parse) .empty,
      heldState (unfinished (past ++ data))) := by
  rw [process, heldState_pending hfits, unfinished_append]
  split_ifs with hfast
  · obtain ⟨hpending, hincludes⟩ := hfast
    have hnone := indexOf?_eq_none.mpr (includes_eq_false.mp hincludes)
    rw [hpending, nil_append, ← output_eq hnone]
    dsimp only
    split_ifs with hcarry
    · rw [hcarry]
      exact Prod.ext (congrArg (ProcessedAgentStatusChunk.mk · _ _ _) take_length.symm) rfl
    · rfl
  · refine processFrom_eq (Nat.zero_le _) (cached_start _) fun place hbehind hplace => ?_
    rw [heldState] at hplace
    split_ifs at hplace with hmarker hlong
    · exact absurd hlong (Nat.not_lt.mpr hfits)
    · dsimp only at hplace
      exact ⟨not_terminated hmarker (.inl rfl) hbehind (by omega),
        not_terminated hmarker (.inr rfl) hbehind (by omega)⟩
    · exact absurd hplace (Nat.not_lt_zero _)

end Calls

section Runs

variable {P : Type}

/-- Two chunks in a row, with the places of the second one's payloads behind the first. -/
def ProcessedAgentStatusChunk.append (front back : ProcessedAgentStatusChunk P) :
    ProcessedAgentStatusChunk P where
  cleanData := front.cleanData ++ back.cleanData
  payloads := front.payloads ++ back.payloads
  lastPayloadCleanOffset :=
    (back.lastPayloadCleanOffset.map (front.cleanData.length + ·)).or front.lastPayloadCleanOffset
  payloadCleanOffsets :=
    front.payloadCleanOffsets ++ back.payloadCleanOffsets.map (front.cleanData.length + ·)

def processChunks (parse : Text → Option P) (state : ProcessorState) :
    List Text → ProcessedAgentStatusChunk P × ProcessorState
  | [] => (.empty, state)
  | data :: later =>
    let first := process parse state data
    let behind := processChunks parse first.2 later
    (first.1.append behind.1, behind.2)

variable {parse : Text → Option P} {front chunk : ProcessedAgentStatusChunk P}

theorem append_empty : front.append .empty = front := by
  simp [ProcessedAgentStatusChunk.append, ProcessedAgentStatusChunk.empty]

theorem add_append (token : Token) :
    add parse (front.append chunk) token = front.append (add parse chunk token) := by
  rw [add, add]
  cases token.payload with
  | none =>
    simp [ProcessedAgentStatusChunk.append, ProcessedAgentStatusChunk.addClean]
  | some payload =>
    dsimp only
    rw [ProcessedAgentStatusChunk.addPayload, ProcessedAgentStatusChunk.addPayload]
    cases parse payload with
    | none => rfl
    | some parsed => simp [ProcessedAgentStatusChunk.append]

theorem foldl_add_append (parts : List Token) :
    parts.foldl (add parse) (front.append chunk) =
      front.append (parts.foldl (add parse) chunk) := by
  induction parts generalizing chunk with
  | nil => rfl
  | cons token parts ih => rw [foldl_cons, add_append, ih, foldl_cons]

theorem foldl_add_eq (parts : List Token) :
    parts.foldl (add parse) front = front.append (parts.foldl (add parse) .empty) :=
  calc parts.foldl (add parse) front = parts.foldl (add parse) (front.append .empty) := by
        rw [append_empty]
    _ = front.append (parts.foldl (add parse) .empty) := foldl_add_append parts

theorem processChunks_eq {past : Text} {chunks : List Text} (hfits : ∀ front, front <+: chunks →
      (unfinished (past ++ front.flatten)).length ≤ MAX_PENDING) :
    processChunks parse (heldState (unfinished past)) chunks =
      ((tokens (unfinished past ++ chunks.flatten)).foldl (add parse) .empty,
        heldState (unfinished (past ++ chunks.flatten))) := by
  induction chunks generalizing past with
  | nil => rw [flatten_nil, append_nil, append_nil, tokens_unfinished]; rfl
  | cons data later ih =>
    have hpast : (unfinished past).length ≤ MAX_PENDING := by
      simpa using hfits [] nil_prefix
    have hlater := @ih (past ++ data) fun front hfront => by
      simpa using hfits (data :: front) (cons_prefix_cons.mpr ⟨rfl, hfront⟩)
    rw [processChunks, process_eq parse hpast]
    dsimp only
    rw [hlater, flatten_cons, ← append_assoc, ← append_assoc,
      @tokens_append (unfinished past ++ data), ← unfinished_append, foldl_append]
    exact Prod.ext (foldl_add_eq _).symm rfl

theorem foldl_add_cleanData (parts : List Token) :
    (parts.foldl (add parse) chunk).cleanData = chunk.cleanData ++
      (parts.filter fun token => token.payload.isNone).flatMap Token.source := by
  induction parts generalizing chunk with
  | nil => simp
  | cons token parts ih =>
    rw [foldl_cons, ih, add]
    cases hpayload : token.payload with
    | none => simp [hpayload, ProcessedAgentStatusChunk.addClean]
    | some payload =>
      rw [filter_cons_of_neg (by simp [hpayload])]
      dsimp only
      rw [ProcessedAgentStatusChunk.addPayload]
      cases parse payload <;> rfl

theorem processing_composes (parse : Text → Option P) (chunks : List Text)
    (hfits : ∀ front, front <+: chunks → (unfinished front.flatten).length ≤ MAX_PENDING) :
    let processed := processChunks parse .initial chunks
    processed = process parse .initial chunks.flatten ∧
      ∃ parts : List Token, processed.1 = parts.foldl (add parse) .empty ∧ processed.1.cleanData =
          (parts.filter fun token => token.payload.isNone).flatMap Token.source ∧
        parts.flatMap Token.source ++ processed.2.pending = chunks.flatten ∧
        ∀ token ∈ parts, match token.payload with
          | none => ∃ code, token.source = [code]
          | some payload => IsFrame OSC_AGENT_STATUS_PREFIX token.source payload := by
  have hrun := @processChunks_eq P parse [] chunks fun front hfront => hfits front hfront
  have hcall := @process_eq P parse [] chunks.flatten (hfits [] nil_prefix)
  have hinitial : heldState (unfinished []) = .initial := by
    rw [unfinished_nil]
    rfl
  rw [hinitial, unfinished_nil, nil_append] at hrun hcall
  dsimp only
  refine ⟨hrun.trans hcall.symm, tokens chunks.flatten, congrArg Prod.fst hrun, ?_, ?_,
    fun token htoken => source_of_mem_tokens _ htoken⟩
  · rw [hrun]
    exact foldl_add_cleanData _
  · rw [hrun]
    dsimp only
    rw [heldState_pending (hfits chunks (prefix_refl _))]
    exact (frames OSC_AGENT_STATUS_PREFIX).sources_append_rest _

/-- A frame that is cut behind its marker, by a processor that takes every payload. -/
theorem processing_composes_cut :
    let chunks : List Text := [OSC_AGENT_STATUS_PREFIX, [0x7b, 0x7d], [BEL, 0x61]]
    processChunks some .initial chunks = process some .initial chunks.flatten :=
  (processing_composes some _ fun front hfront =>
    ((frames OSC_AGENT_STATUS_PREFIX).length_rest_le _).trans
      (hfront.flatten.length_le.trans (by decide))).1

end Runs

end Wakii.Terminal.AgentStatusOsc
