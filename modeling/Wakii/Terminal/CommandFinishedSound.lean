import Wakii.Terminal.CommandFinished

/-!
# Command-finished detection does not depend on where the output is cut

The loop fires what the tokens of the stream fire, and carries what the stream so far
ends in the middle of, so that chunk by chunk the same is fired at the same places.
-/

namespace Wakii.Terminal.CommandFinished

open List

open EscapeTail (BEL)
open TokenStream (Scanner)

variable {N : Type} (toNumber : ParsedInteger → N)

theorem carry_of_none {text : Text} (hnone : TextSearch.indexOf? OSC_133_PREFIX text = none) :
    findPrefixCarry text = scanner.rest text ∧
      ∀ token ∈ scanner.tokens text, token.payload = none := by
  rw [findPrefixCarry_eq, scanner_eq]
  exact markerCarry_eq hnone

def fire (place : ℤ) (adjacentMarkers : Text) : List Token → List (Event N) × Text
  | [] => ([], adjacentMarkers)
  | token :: rest =>
    let endPlace := place + token.source.length
    match token.payload with
    | none => fire endPlace [] rest
    | some payload =>
      let handled := handleOsc133 toNumber adjacentMarkers payload endPlace
      let later := fire endPlace handled.2 rest
      (handled.1 ++ later.1, later.2)

section Firing

variable {place : ℤ} {adjacent : Text}

theorem fire_outputs {parts : List Token} (hparts : ∀ token ∈ parts, token.payload = none) :
    fire toNumber place adjacent parts = ([], if parts = [] then adjacent else []) := by
  induction parts generalizing place adjacent with
  | nil => rfl
  | cons token parts ih =>
    rw [fire, hparts token mem_cons_self]
    simp only
    rw [ih fun other hother => hparts other (mem_cons_of_mem _ hother), ite_self,
      if_neg (cons_ne_nil _ _)]

theorem fire_units (units : Text) (rest : List Token) :
    fire toNumber place adjacent (units.map (fun code => ⟨[code], none⟩) ++ rest) =
      fire toNumber (place + units.length) (if units = [] then adjacent else []) rest := by
  induction units generalizing place adjacent with
  | nil => simp
  | cons code units ih =>
    have hplace : place + 1 + (units.length : ℤ) = place + ((code :: units).length : ℕ) := by
      rw [length_cons]
      omega
    rw [map_cons, cons_append, fire]
    simp only [length_singleton, Int.natCast_one]
    rw [ih, hplace, ite_self, if_neg (cons_ne_nil _ _)]

end Firing

theorem length_sources (text : Text) :
    ((scanner.tokens text).flatMap Token.source).length + (scanner.rest text).length =
      text.length := by
  have hsources := congrArg List.length (scanner.sources_append_rest text)
  rwa [length_append] at hsources

section Rounds

variable {text : Text} {place : ℤ} {adjacent : Text} {start : ℕ}

theorem scanFrom_none (hnone : TextSearch.indexOf? OSC_133_PREFIX text = none) :
    scanFrom toNumber text place adjacent = ([], ⟨findPrefixCarry text,
      if (findPrefixCarry text).length < text.length then [] else adjacent⟩) := by
  rw [scanFrom, hnone]

theorem scanFrom_open (hstart : TextSearch.indexOf? OSC_133_PREFIX text = some start)
    (hopen : findOscTerminator (text.drop (start + OSC_133_PREFIX.length)) = none) :
    scanFrom toNumber text place adjacent = ([], ⟨(text.drop start).rtake MAX_OSC_CARRY_LENGTH,
      if 0 < start then [] else adjacent⟩) := by
  rw [scanFrom, hstart]
  simp only
  split <;> simp_all

theorem scanFrom_sequence {terminator : OscTerminator}
    (hstart : TextSearch.indexOf? OSC_133_PREFIX text = some start)
    (hfound : findOscTerminator (text.drop (start + OSC_133_PREFIX.length)) = some terminator) :
    scanFrom toNumber text place adjacent =
      let sequenceEnd := start + OSC_133_PREFIX.length + terminator.index + terminator.length
      let handled := handleOsc133 toNumber (if 0 < start then [] else adjacent)
        ((text.drop (start + OSC_133_PREFIX.length)).take terminator.index) (place + sequenceEnd)
      let later := scanFrom toNumber (text.drop sequenceEnd) (place + sequenceEnd) handled.2
      (handled.1 ++ later.1, later.2) := by
  rw [scanFrom, hstart]
  simp only
  split <;> simp_all

end Rounds

theorem tokens_eq_nil {text : Text} :
    scanner.tokens text = [] ↔ ¬ (scanner.rest text).length < text.length := by
  have hsources := length_sources text
  constructor
  · intro hnil
    rw [hnil] at hsources
    exact Nat.not_lt.mpr (Nat.le_of_eq (hsources.symm.trans (Nat.zero_add _)))
  · intro hwhole
    cases hparts : scanner.tokens text with
    | nil => rfl
    | cons token parts =>
      have hmem : token ∈ scanner.tokens text := by rw [hparts]; exact mem_cons_self
      obtain ⟨front, hnext⟩ := scanner.exists_next_of_mem hmem
      have hpositive : 0 < token.source.length := length_pos_iff.mpr (scanner.source_ne_nil hnext)
      rw [hparts, flatMap_cons, length_append] at hsources
      omega

/-- The loop fires what its tokens fire, and carries what is left. -/
theorem scanFrom_eq (text : Text) (place : ℤ) (adjacent : Text) :
    scanFrom toNumber text place adjacent =
      ((fire toNumber place adjacent (scanner.tokens text)).1,
        ⟨(scanner.rest text).rtake MAX_OSC_CARRY_LENGTH,
          (fire toNumber place adjacent (scanner.tokens text)).2⟩) := by
  induction hlength : text.length using Nat.strongRecOn generalizing text place adjacent with
  | _ length ih =>
    cases hstart : TextSearch.indexOf? OSC_133_PREFIX text with
    | none =>
      obtain ⟨hcarry, hparts⟩ := carry_of_none hstart
      have hfire := @fire_outputs N toNumber place adjacent _ hparts
      have hshort := @length_markerCarry_le OSC_133_PREFIX text
      rw [← findPrefixCarry_eq, hcarry] at hshort
      rw [scanFrom_none toNumber hstart, hfire, hcarry, LastItems.rtake_of_length_le
        (hshort.trans (by decide))]
      by_cases hnil : scanner.tokens text = []
      · rw [if_pos hnil, if_neg (tokens_eq_nil.mp hnil)]
      · rw [if_neg hnil, if_pos (not_not.mp (mt tokens_eq_nil.mpr hnil))]
    | some start =>
      obtain ⟨htokens, hrest⟩ := tokens_before hstart
      have hstands := TextSearch.prefix_of_indexOf? hstart
      have hnext := nextFrame_marker hstands
      rw [← scanner_eq] at htokens hrest
      rw [← nextToken_eq] at hnext
      have hwithin := hstands.length_le
      have hsix : OSC_133_PREFIX.length = 6 := rfl
      rw [length_drop] at hwithin
      rw [drop_drop] at hnext
      have hunits : text.take start = [] ↔ ¬ 0 < start := by
        rw [take_eq_nil_iff]
        constructor
        · rintro (rfl | rfl)
          · exact Nat.lt_irrefl 0
          · rw [length_nil] at hwithin
            omega
        · exact fun hzero => Or.inl (Nat.eq_zero_of_not_pos hzero)
      have hadjacent : (if text.take start = [] then adjacent else []) =
          if 0 < start then [] else adjacent := by
        by_cases hpositive : 0 < start
        · rw [if_pos hpositive, if_neg (mt hunits.mp (not_not.mpr hpositive))]
        · rw [if_neg hpositive, if_pos (hunits.mpr hpositive)]
      have hplace : (text.take start).length = start := length_take_of_le (by omega)
      rw [htokens, hrest, fire_units, hadjacent, hplace]
      cases hfound : findOscTerminator (text.drop (start + OSC_133_PREFIX.length)) with
      | none =>
        rw [hfound] at hnext
        have hopen : scanner.next (text.drop start) = none := hnext
        rw [scanFrom_open toNumber hstart hfound, Scanner.tokens_none hopen,
          Scanner.rest_none hopen]
        rfl
      | some terminator =>
        rw [hfound] at hnext
        have hclosed : scanner.next (text.drop start) = some ⟨(text.drop start).take
                (OSC_133_PREFIX.length + terminator.index + terminator.length),
              some ((text.drop (start + OSC_133_PREFIX.length)).take terminator.index)⟩ :=
          hnext
        obtain ⟨hpositive, hend⟩ := findOscTerminator_lt hfound
        rw [length_drop] at hend
        have hsource : ((text.drop start).take
            (OSC_133_PREFIX.length + terminator.index + terminator.length)).length =
            OSC_133_PREFIX.length + terminator.index + terminator.length :=
          length_take_of_le (by rw [length_drop]; omega)
        have hbehind : (text.drop start).drop
            (OSC_133_PREFIX.length + terminator.index + terminator.length) =
            text.drop (start + OSC_133_PREFIX.length + terminator.index + terminator.length) := by
          rw [drop_drop]
          congr 1
          omega
        have hlater : (place + (start : ℤ) +
            ((OSC_133_PREFIX.length + terminator.index + terminator.length : ℕ) : ℤ)) =
            place + ((start + OSC_133_PREFIX.length + terminator.index +
              terminator.length : ℕ) : ℤ) := by
          omega
        have hshorter : (text.drop (start + OSC_133_PREFIX.length + terminator.index +
            terminator.length)).length < length := by
          rw [length_drop]
          omega
        have hparts := Scanner.tokens_some hclosed
        have hleft := Scanner.rest_some hclosed
        change scanner.tokens _ = _ :: scanner.tokens (List.drop (List.length
          ((text.drop start).take _)) _) at hparts
        change scanner.rest _ = scanner.rest (List.drop (List.length
          ((text.drop start).take _)) _) at hleft
        rw [hsource, hbehind] at hparts hleft
        rw [scanFrom_sequence toNumber hstart hfound, hparts, hleft, fire]
        simp only
        rw [hsource, hlater, ih _ hshorter _ _ _ rfl]

def Event.shift (count : ℤ) : Event N → Event N
  | .commandStarted endInChunk => .commandStarted (count + endInChunk)
  | .commandFinished code => .commandFinished code

/-- What the chunks fire, with the places counted from the start of the first chunk. -/
def scanChunks : ℤ → ScannerState → List Text → List (Event N) × ScannerState
  | _, state, [] => ([], state)
  | place, state, chunk :: rest =>
    let fired := scan toNumber state chunk
    let later := scanChunks (place + chunk.length) fired.2 rest
    (fired.1.map (Event.shift place) ++ later.1, later.2)

def Token.isMarker (token : Token) : Bool := token.payload.isSome

def Token.initial (token : Token) : Text :=
  match token.payload with
  | none => []
  | some payload => (sequenceOf payload).take 1

/-- The commands of the markers behind the last other output, by their first units. -/
def adjacentTo (before : List Token) : Text :=
  (before.rtakeWhile Token.isMarker).flatMap Token.initial

def eventOf (before : List Token) (token : Token) : List (Event N) :=
  match token.payload with
  | none => []
  | some payload =>
    if isSuccess payload ∧ [MARKER_B, MARKER_C] <:+ adjacentTo before then []
    else if sequenceOf payload = [MARKER_C] then
      [.commandStarted ((before ++ [token]).flatMap Token.source).length]
    else if sequenceOf payload = [MARKER_D] then
      [.commandFinished (parseBestEffortExitCode toNumber (exitCodeOf payload))]
    else []

def expected (before : List Token) : List Token → List (Event N)
  | [] => []
  | token :: rest => eventOf toNumber before token ++ expected (before ++ [token]) rest

section Expected

variable {before : List Token} {token : Token}

theorem adjacentTo_output (hpayload : token.payload = none) :
    adjacentTo (before ++ [token]) = [] := by
  rw [adjacentTo, rtakeWhile_concat_neg]
  · rfl
  · rw [Token.isMarker, hpayload]
    exact Bool.false_ne_true

theorem adjacentTo_marker {payload : Text} (hpayload : token.payload = some payload) :
    adjacentTo (before ++ [token]) = adjacentTo before ++ (sequenceOf payload).take 1 := by
  rw [adjacentTo, rtakeWhile_concat_pos, flatMap_append, flatMap_singleton, Token.initial, hpayload]
  · rfl
  · rw [Token.isMarker, hpayload]
    rfl

theorem closes_iff {adjacent payload : Text} :
    closesAppOsc133Zone (adjacent.rtake 2) payload = true ↔
      isSuccess payload = true ∧ [MARKER_B, MARKER_C] <:+ adjacent := by
  rw [closesAppOsc133Zone, Bool.and_eq_true, isSuffixOf_iff_suffix,
    LastItems.suffix_rtake (by decide)]

theorem handleOsc133_eq {payload : Text} (hpayload : token.payload = some payload) :
    handleOsc133 toNumber ((adjacentTo before).rtake 2) payload
        ((before ++ [token]).flatMap Token.source).length =
      (eventOf toNumber before token, (adjacentTo (before ++ [token])).rtake 2) := by
  rw [adjacentTo_marker hpayload, ← LastItems.rtake_append_rtake 2 (adjacentTo before),
    handleOsc133,
    eventOf, hpayload]
  simp only [closes_iff]
  split_ifs <;> rfl

theorem fire_eq_expected (before parts : List Token) :
    fire toNumber (before.flatMap Token.source).length ((adjacentTo before).rtake 2) parts =
      (expected toNumber before parts, (adjacentTo (before ++ parts)).rtake 2) := by
  induction parts generalizing before with
  | nil => rw [append_nil]; rfl
  | cons token parts ih =>
    have hplace : ((before.flatMap Token.source).length : ℤ) + token.source.length =
        ((before ++ [token]).flatMap Token.source).length := by
      rw [flatMap_append, length_append, flatMap_singleton]
      exact (Int.natCast_add _ _).symm
    have hparts : before ++ token :: parts = before ++ [token] ++ parts := by
      rw [append_assoc]
      rfl
    rw [fire, hplace, expected, hparts]
    cases hpayload : token.payload with
    | none =>
      have hnone : eventOf toNumber before token = [] := by rw [eventOf, hpayload]
      have hadjacent := ih (before ++ [token])
      rw [adjacentTo_output hpayload] at hadjacent
      rw [hnone, nil_append]
      exact hadjacent
    | some payload =>
      simp only
      rw [handleOsc133_eq toNumber hpayload, ih (before ++ [token])]

theorem expected_append (before first second : List Token) :
    expected toNumber before (first ++ second) =
      expected toNumber before first ++ expected toNumber (before ++ first) second := by
  induction first generalizing before with
  | nil => rw [append_nil]; rfl
  | cons token first ih =>
    rw [cons_append, expected, expected, ih, append_assoc, append_assoc]
    rfl

end Expected

section Chunks

variable {place : ℤ} {adjacent : Text}

theorem handleOsc133_shift (count : ℤ) (payload : Text) :
    handleOsc133 toNumber adjacent payload (count + place) =
      ((handleOsc133 toNumber adjacent payload place).1.map (Event.shift count),
        (handleOsc133 toNumber adjacent payload place).2) := by
  rw [handleOsc133, handleOsc133]
  split_ifs <;> rfl

theorem fire_shift (count : ℤ) (parts : List Token) :
    fire toNumber (count + place) adjacent parts =
      ((fire toNumber place adjacent parts).1.map (Event.shift count),
        (fire toNumber place adjacent parts).2) := by
  induction parts generalizing place adjacent with
  | nil => rfl
  | cons token parts ih =>
    rw [fire, fire, Int.add_assoc]
    cases token.payload with
    | none => exact ih
    | some payload =>
      simp only
      rw [handleOsc133_shift, ih, map_append]

def stateAt (past : Text) : ScannerState :=
  ⟨scanner.rest past, (adjacentTo (scanner.tokens past)).rtake 2⟩

theorem scan_stateAt {past : Text} (chunk : Text)
    (hfits : (scanner.rest (past ++ chunk)).length ≤ MAX_OSC_CARRY_LENGTH) :
    expected toNumber [] (scanner.tokens past) ++
        (scan toNumber (stateAt past) chunk).1.map (Event.shift past.length) =
      expected toNumber [] (scanner.tokens (past ++ chunk)) ∧
    (scan toNumber (stateAt past) chunk).2 = stateAt (past ++ chunk) := by
  have hsources := length_sources past
  have hplace : (past.length : ℤ) + -((scanner.rest past).length : ℤ) =
      ((scanner.tokens past).flatMap Token.source).length := by omega
  have hfire := @fire_shift N toNumber (-((scanner.rest past).length : ℤ))
    ((adjacentTo (scanner.tokens past)).rtake 2) past.length
    (scanner.tokens (scanner.rest past ++ chunk))
  rw [hplace, fire_eq_expected, Prod.mk.injEq] at hfire
  have hscan := scanFrom_eq toNumber (scanner.rest past ++ chunk)
    (-((scanner.rest past).length : ℤ))
    ((adjacentTo (scanner.tokens past)).rtake 2)
  change scan toNumber (stateAt past) chunk = _ at hscan
  simp only [hscan]
  constructor
  · rw [← hfire.1, scanner.tokens_append past chunk, expected_append, nil_append]
  · rw [← hfire.2, ← scanner.tokens_append past chunk, ← scanner.rest_append past chunk,
      LastItems.rtake_of_length_le hfits, stateAt]

theorem scanChunks_stateAt {past : Text} (chunks : List Text)
    (hfits : scanner.Fits MAX_OSC_CARRY_LENGTH (past ++ chunks.flatten)) :
    expected toNumber [] (scanner.tokens past) ++
        (scanChunks toNumber past.length (stateAt past) chunks).1 =
      expected toNumber [] (scanner.tokens (past ++ chunks.flatten)) ∧
    (scanChunks toNumber past.length (stateAt past) chunks).2 =
      stateAt (past ++ chunks.flatten) := by
  induction chunks generalizing past with
  | nil =>
    rw [flatten_nil, append_nil]
    exact ⟨append_nil _, rfl⟩
  | cons chunk chunks ih =>
    rw [flatten_cons, ← append_assoc] at hfits ⊢
    have hbounded := hfits (past ++ chunk) (prefix_append _ _)
    obtain ⟨hfired, hstate⟩ := scan_stateAt toNumber chunk hbounded
    obtain ⟨hlater, hlast⟩ := ih hfits
    have hplace : (past.length : ℤ) + chunk.length = (past ++ chunk).length := by
      rw [length_append]
      exact (Int.natCast_add _ _).symm
    simp only [scanChunks, hstate, hplace]
    rw [← append_assoc, hfired]
    exact ⟨hlater, hlast⟩

end Chunks

theorem stateAt_nil : stateAt [] = .initial := by
  rw [stateAt, @Scanner.tokens_none _ _ scanner [] rfl, Scanner.rest_none rfl]
  rfl

theorem scan_initial (stream : Text) :
    (scan toNumber .initial stream).1 = expected toNumber [] (scanner.tokens stream) := by
  have hscan : scan toNumber .initial stream = _ := scanFrom_eq toNumber stream 0 []
  have hexpected := fire_eq_expected toNumber [] (scanner.tokens stream)
  rw [hscan]
  exact congrArg Prod.fst hexpected

/-- What is fired depends on the stream alone, and which ends of commands are not. -/
theorem command_detection :
    (∀ chunks : List Text, scanner.Fits MAX_OSC_CARRY_LENGTH chunks.flatten →
      (scanChunks toNumber 0 .initial chunks).1 = (scan toNumber .initial chunks.flatten).1) ∧
    (∀ stream : Text, (scan toNumber .initial stream).1 =
      expected toNumber [] (scanner.tokens stream)) ∧
    ∀ (before : List Token) (token : Token) (payload : Text), token.payload = some payload →
      isSuccess payload = true →
      (eventOf toNumber before token = [] ↔ [MARKER_B, MARKER_C] <:+ adjacentTo before) := by
  refine ⟨fun chunks hfits => ?_, scan_initial toNumber,
    fun before token payload hpayload hsuccess => ?_⟩
  · obtain ⟨hfired, -⟩ := @scanChunks_stateAt N toNumber [] chunks hfits
    rw [stateAt_nil, nil_append] at hfired
    rw [scan_initial, ← hfired, @Scanner.tokens_none _ _ scanner [] rfl]
    rfl
  · have hcommand : sequenceOf payload = [MARKER_D] := by
      rw [isSuccess, Bool.and_eq_true] at hsuccess
      exact of_decide_eq_true hsuccess.1
    have hne : [MARKER_D] ≠ [MARKER_C] := by decide
    rw [eventOf, hpayload]
    by_cases hcloses : [MARKER_B, MARKER_C] <:+ adjacentTo before
    · simp only [hsuccess, hcloses, and_self, if_true]
    · simp only [hcloses, and_false, if_false, hcommand, hne, if_true, iff_false]
      exact cons_ne_nil _ _

/-- Integers as they are, the way small ones are numbers. -/
def exitCode (parsed : ParsedInteger) : ℤ :=
  if parsed.negative then -parsed.magnitude else parsed.magnitude

def sequenceText (payload : Text) : Text := OSC_133_PREFIX ++ payload ++ [BEL]

theorem command_detection_start :
    (scanChunks exitCode 0 .initial [OSC_133_PREFIX, [MARKER_C, BEL]]).1 =
        (scan exitCode .initial (sequenceText [MARKER_C])).1 ∧
      (eventOf exitCode []
        ⟨sequenceText [MARKER_D, SEMICOLON, 0x30], some [MARKER_D, SEMICOLON, 0x30]⟩ = [] ↔
        [MARKER_B, MARKER_C] <:+ adjacentTo []) :=
  ⟨(command_detection exitCode).1 [OSC_133_PREFIX, [MARKER_C, BEL]]
    (scanner.fits_of_length_le (by decide)),
    (command_detection exitCode).2.2 [] _ [MARKER_D, SEMICOLON, 0x30] rfl (by decide)⟩

theorem tokens_sequenceText {payload : Text}
    (hnext : nextToken (sequenceText payload) = some ⟨sequenceText payload, some payload⟩)
    (behind : Text) : scanner.tokens (sequenceText payload ++ behind) =
      ⟨sequenceText payload, some payload⟩ :: scanner.tokens behind := by
  have hsome : scanner.next (scanner.source ⟨sequenceText payload, some payload⟩) =
      some ⟨sequenceText payload, some payload⟩ := hnext
  exact Scanner.tokens_append_of_next (scanner.next_append hsome behind)

/-- A marker without a command stands between B, C and the end that is not fired. -/
theorem empty_marker_between :
    let front := sequenceText [MARKER_B] ++ (sequenceText [MARKER_C] ++ (sequenceText [] ++ []))
    (scan exitCode .initial (front ++ sequenceText [MARKER_D, SEMICOLON, 0x30])).1 =
        (scan exitCode .initial front).1 ∧
      ¬ ∃ earlier, (scanner.tokens front).map Token.payload =
        earlier ++ [some [MARKER_B], some [MARKER_C]] := by
  have hnil : scanner.tokens [] = [] := Scanner.tokens_none rfl
  have htokens (behind : Text) := @tokens_sequenceText [MARKER_B] (by decide) behind
  have htokensC (behind : Text) := @tokens_sequenceText [MARKER_C] (by decide) behind
  have htokensEmpty (behind : Text) := @tokens_sequenceText [] (by decide) behind
  have htokensD := @tokens_sequenceText [MARKER_D, SEMICOLON, 0x30] (by decide) []
  rw [append_nil] at htokensD
  constructor
  · rw [scan_initial, scan_initial, append_assoc, append_assoc, append_assoc,
      nil_append, htokens, htokens, htokensC, htokensC, htokensEmpty, htokensEmpty, htokensD,
      hnil]
    decide
  · rw [htokens, htokensC, htokensEmpty, hnil]
    rintro ⟨earlier, hearlier⟩
    have hsuffix : [some [MARKER_B], some [MARKER_C]] <:+
        [some [MARKER_B], some [MARKER_C], some []] := ⟨earlier, hearlier.symm⟩
    exact absurd hsuffix (by decide)

end Wakii.Terminal.CommandFinished
