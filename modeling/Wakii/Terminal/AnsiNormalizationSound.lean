import Wakii.Library.LastItems
import Wakii.Terminal.AnsiNormalization

/-!
# Normalization does not depend on where the output is cut

The tokens of a chunk stay tokens when the output goes on, so a chunk is read on from its
pending text.  A string that lost its middle ends where it would have ended; only of a CSI
sequence the middle can matter.  Every escape that is left in a text starts a line control.
-/

namespace Wakii.Terminal.AnsiNormalization

open Bool List

open FrameStream (Cut Outcome)
open LastItems (rtake_append_of_le rtake_append_rtake)

/-- The text and the pending text of some output that nothing was pending before. -/
def normalized (output : Text) : NormalizedChunk :=
  ⟨(FrameStream.read tokens output).1.flatMap fun token => token.kept,
    pendingOf (FrameStream.read tokens output).2⟩

section Reading

variable {input rest : Text} {token : Token}

theorem normalized_more (hmore : nextToken input = .more) :
    normalized input = ⟨[], trimPendingAnsiControl input⟩ := by
  rw [normalized, FrameStream.read_more tokens hmore]
  rfl

theorem normalized_token (htoken : nextToken input = .frame token rest) :
    normalized input = ⟨token.kept ++ (normalized rest).text, (normalized rest).pendingAnsi⟩ := by
  rw [normalized, FrameStream.read_frame tokens htoken]
  rfl

theorem normalized_plain {chunk : Text} (hplain : terminalChunkNeedsNormalization chunk = false) :
    normalized chunk = ⟨chunk, []⟩ := by
  induction chunk with
  | nil => exact normalized_more rfl
  | cons code behind ih =>
    rw [terminalChunkNeedsNormalization, any_cons, or_eq_false_iff] at hplain
    have hkept : nextToken (code :: behind) = .frame ⟨[code], [code]⟩ behind := by
      simp only [or_eq_false_iff, beq_eq_false_iff_ne, ne_eq, decide_eq_false_iff_not,
        and_eq_false_iff] at hplain
      obtain ⟨⟨⟨⟨⟨⟨hescape, hdelete⟩, hreturn⟩, hlow⟩, hcontrol⟩, hhigh⟩, -⟩ := hplain
      rw [nextToken]
      split_ifs with hascii hkept hprintable
      · rfl
      · rfl
      · rfl
      · refine absurd ?_ hprintable
        have htab : code.val ≠ TAB.val := fun hsame => hkept (Or.inr (Or.inl (Fin.ext hsame)))
        have hnewline : code.val ≠ NEWLINE.val :=
          fun hsame => hkept (Or.inr (Or.inr (Fin.ext hsame)))
        simp only [isTerminalPreviewPrintableCodeUnit, and_eq_true, or_eq_true,
          decide_eq_true_eq, bne_iff_ne, ne_eq]
        change code.val ≠ 9 at htab
        change code.val ≠ 10 at hnewline
        omega
    rw [normalized_token hkept, ih hplain.2]
    rfl

theorem normalizeTerminalChunk_eq (chunk pendingAnsi : Text) :
    normalizeTerminalChunk chunk pendingAnsi = normalized (pendingAnsi ++ chunk) := by
  rw [normalizeTerminalChunk]
  split_ifs with hfast
  · obtain ⟨hpending, hplain⟩ := hfast
    rw [length_eq_zero_iff.mp hpending, nil_append, normalized_plain (by simpa using hplain)]
  · rfl

end Reading

section Trimming

theorem trimmed_cons {limit : ℕ} (hlimit : 2 ≤ limit) (first second : CodeUnit) (rest : Text) :
    (if (first :: second :: rest).length ≤ limit then first :: second :: rest
      else (first :: second :: rest).take 2 ++
        (first :: second :: rest).rtake (limit - ((first :: second :: rest).take 2).length)) =
      first :: second :: rest.rtake (limit - 2) := by
  split_ifs with hshort
  · simp only [length_cons] at hshort
    rw [List.rtake, Nat.sub_eq_zero_of_le (by omega), drop_zero]
  · simp only [length_cons] at hshort
    have hrest : limit - 2 ≤ rest.length := by omega
    exact congrArg (first :: second :: ·) (rtake_append_of_le [first, second] hrest)

theorem trimPendingAnsiControl_cons (first second : CodeUnit) (rest : Text) :
    trimPendingAnsiControl (first :: second :: rest) =
      first :: second :: rest.rtake (MAX_TAIL_PENDING_ANSI_CHARS - 2) :=
  trimmed_cons (by decide) first second rest

variable {isOsc : Bool}

theorem findStringEnd_behind {front back : Text}
    (hopen : findStringEnd isOsc (front ++ back) = none) (hback : front = [] ∨ back ≠ [])
    (later : Text) : findStringEnd isOsc (front ++ (back ++ later)) =
      (findStringEnd isOsc (back ++ later)).map (· + front.length) := by
  induction front with
  | nil => exact Option.map_id'.symm
  | cons code rest ih =>
    have hsome : back ≠ [] := hback.resolve_left (cons_ne_nil _ _)
    rw [cons_append, findStringEnd] at hopen
    split_ifs at hopen with hbell hterminator
    rw [Option.map_eq_none_iff] at hopen
    have hhead : (rest ++ (back ++ later)).head? = (rest ++ back).head? := by
      rw [← append_assoc, head?_append_of_ne_nil _ (append_ne_nil_of_right_ne_nil rest hsome)]
    rw [cons_append, findStringEnd, if_neg hbell, hhead, if_neg hterminator,
      ih hopen (Or.inr hsome), Option.map_map]
    exact congrArg (fun shift => (findStringEnd isOsc (back ++ later)).map shift)
      (funext fun place => Nat.add_assoc place rest.length 1)

end Trimming

/-- The CSI sequences that output is read as, other than one it ends in the middle of. -/
def csiSequences (output : Text) : List Text :=
  ((FrameStream.read tokens output).1.map fun token => token.source).filter
    fun source => [ESCAPE, 0x5b].isPrefixOf source

theorem mem_csiSequences_token {input rest : Text} {token : Token}
    (htoken : nextToken input = .frame token rest)
    (hcsi : [ESCAPE, 0x5b].isPrefixOf token.source = true) :
    token.source ∈ csiSequences input := by
  rw [csiSequences, FrameStream.read_frame tokens htoken]
  exact mem_filter.mpr ⟨mem_cons_self, hcsi⟩

section Pending

variable {first : CodeUnit} {behind : Text}

theorem nextToken_open (hopen : findTerminalEscapeSequenceEnd (first :: behind) = none) :
    nextToken (ESCAPE :: first :: behind) = .more := by
  unfold nextToken
  simp only [hopen]
  rfl

theorem nextToken_closed {offset : ℕ}
    (hend : findTerminalEscapeSequenceEnd (first :: behind) = some offset) :
    nextToken (ESCAPE :: first :: behind) = .frame ⟨ESCAPE :: (first :: behind).take offset,
        if isKeptSequence ((first :: behind).take offset) then
          ESCAPE :: (first :: behind).take offset else []⟩ ((first :: behind).drop offset) := by
  unfold nextToken
  simp only [hend]
  rfl

theorem classify_ne_csi (hfirst : first ≠ 0x5b) :
    classifyTerminalEscapeIntroducer (some first) ≠ .csi := by
  have hval : first.val ≠ 0x5b := fun hsame => hfirst (Fin.ext hsame)
  rw [classifyTerminalEscapeIntroducer, if_neg hval]
  split_ifs <;> exact fun hkind => (by cases hkind)

theorem isKeptSequence_of_ne (hfirst : first ≠ 0x5b) (behind : Text) :
    isKeptSequence (first :: behind) = false := by
  rw [isKeptSequence, head?_cons, and_eq_false_iff]
  exact Or.inl (decide_eq_false (classify_ne_csi hfirst))

theorem more_cases {input : Text} (hmore : nextToken input = .more) :
    input.length ≤ 1 ∨ ∃ first behind, input = ESCAPE :: first :: behind ∧
      findTerminalEscapeSequenceEnd (first :: behind) = none := by
  obtain _ | ⟨code, _ | ⟨first, behind⟩⟩ := input
  · exact Or.inl (Nat.zero_le 1)
  · exact Or.inl (Nat.le_refl 1)
  · by_cases hescape : code = ESCAPE
    · subst hescape
      cases hend : findTerminalEscapeSequenceEnd (first :: behind) with
      | none => exact Or.inr ⟨first, behind, rfl, hend⟩
      | some offset =>
        rw [nextToken_closed hend] at hmore
        cases hmore
    · rw [nextToken, if_neg hescape] at hmore
      split_ifs at hmore with hplain hreturn hnil
      cases hnil

theorem sequenceEnd_cases (first : CodeUnit) :
    (first = 0x5b ∧ ∀ behind, findTerminalEscapeSequenceEnd (first :: behind) =
        (behind.findIdx? isCsiFinal).map (· + 2)) ∨
      (first ≠ 0x5b ∧ ∃ isOsc, ∀ behind, findTerminalEscapeSequenceEnd (first :: behind) =
        (findStringEnd isOsc behind).map (· + 2)) ∨
      ∀ behind, findTerminalEscapeSequenceEnd (first :: behind) = some 1 := by
  by_cases hcsi : first = 0x5b
  · exact Or.inl ⟨hcsi, fun behind => by rw [hcsi]; rfl⟩
  · have hclass := classify_ne_csi hcsi
    refine Or.inr ?_
    cases hkind : classifyTerminalEscapeIntroducer (some first) with
    | csi => exact absurd hkind hclass
    | osc => exact Or.inl ⟨hcsi, true, fun behind => by simp [findTerminalEscapeSequenceEnd, hkind]⟩
    | string =>
        exact Or.inl ⟨hcsi, false, fun behind => by simp [findTerminalEscapeSequenceEnd, hkind]⟩
    | intermediate => exact Or.inr fun behind => by simp [findTerminalEscapeSequenceEnd, hkind]
    | execute => exact Or.inr fun behind => by simp [findTerminalEscapeSequenceEnd, hkind]
    | final => exact Or.inr fun behind => by simp [findTerminalEscapeSequenceEnd, hkind]

theorem sequence_mem_csiSequences {later : Text} {index : ℕ} (hfirst : first = 0x5b)
    (hend : ∀ behind, findTerminalEscapeSequenceEnd (first :: behind) =
      (behind.findIdx? isCsiFinal).map (· + 2))
    (hopen : behind.findIdx? isCsiFinal = none) (hfound : later.findIdx? isCsiFinal = some index) :
    ESCAPE :: (first :: (behind ++ later)).take (index + behind.length + 2) ∈
      csiSequences (ESCAPE :: first :: (behind ++ later)) := by
  have hplace : findTerminalEscapeSequenceEnd (first :: (behind ++ later)) =
      some (index + behind.length + 2) := by
    rw [hend, findIdx?_append, hopen, hfound]
    rfl
  exact mem_csiSequences_token (nextToken_closed hplace) (by rw [hfirst]; rfl)

/-- A pending text that lost its middle is read on as the whole one would be, unless it is
a CSI sequence that ends later. -/
theorem normalized_trim {pending : Text} (hmore : nextToken pending = .more) (later : Text)
    (hcsi : ∀ source ∈ csiSequences (pending ++ later),
      source.length ≤ MAX_TAIL_PENDING_ANSI_CHARS) :
    normalized (trimPendingAnsiControl pending ++ later) = normalized (pending ++ later) := by
  by_cases hshort : pending.length ≤ MAX_TAIL_PENDING_ANSI_CHARS
  · rw [trimPendingAnsiControl, if_pos hshort]
  obtain hone | ⟨first, behind, rfl, hopen⟩ := more_cases hmore
  · exact absurd (hone.trans (by decide)) hshort
  obtain ⟨kept, hkept⟩ : ∃ kept, kept = MAX_TAIL_PENDING_ANSI_CHARS - 2 := ⟨_, rfl⟩
  have hpositive : 0 < kept := by
    rw [hkept]
    decide
  have hlong : kept < behind.length := by
    simp only [length_cons] at hshort
    omega
  have hsplit : behind = behind.rdrop kept ++ behind.rtake kept := (take_append_drop _ behind).symm
  have hback : behind.rtake kept ≠ [] := by
    rw [List.rtake, ← length_pos_iff, length_drop]
    omega
  rw [trimPendingAnsiControl_cons, ← hkept, cons_append, cons_append, cons_append, cons_append]
  have htrimmed : trimPendingAnsiControl (ESCAPE :: first :: (behind.rtake kept ++ later)) =
      trimPendingAnsiControl (ESCAPE :: first :: (behind ++ later)) := by
    rw [trimPendingAnsiControl_cons, trimPendingAnsiControl_cons, ← hkept, rtake_append_rtake]
  rcases sequenceEnd_cases first with ⟨hcsiFirst, hend⟩ | ⟨hother, isOsc, hend⟩ | hend
  · -- The sequence may not end at all: it would be longer than the limit.
    rw [hend, Option.map_eq_none_iff] at hopen
    have hlater : later.findIdx? isCsiFinal = none := by
      cases hfound : later.findIdx? isCsiFinal with
      | none => rfl
      | some index =>
        have htoken := sequence_mem_csiSequences hcsiFirst hend hopen hfound
        have hlength := hcsi _ htoken
        simp only [length_cons, length_take, length_append] at hlength
        have hindex := (findIdx?_eq_some_iff_findIdx_eq.mp hfound).1
        simp only [length_cons] at hshort
        omega
    have hmoreOf {front : Text} (hfront : front.findIdx? isCsiFinal = none) :
        nextToken (ESCAPE :: first :: (front ++ later)) = .more := by
      refine nextToken_open ?_
      rw [hend, findIdx?_append, hfront, hlater]
      rfl
    have hkeptOpen : (behind.rtake kept).findIdx? isCsiFinal = none := by
      rw [hsplit, findIdx?_append, Option.or_eq_none_iff, Option.map_eq_none_iff] at hopen
      exact hopen.2
    rw [normalized_more (hmoreOf hkeptOpen), normalized_more (hmoreOf hopen), htrimmed]
  · rw [hend, Option.map_eq_none_iff] at hopen
    have hbehind : findStringEnd isOsc (behind ++ later) =
        (findStringEnd isOsc (behind.rtake kept ++ later)).map
          (· + (behind.rdrop kept).length) := by
      rw [hsplit] at hopen
      rw [← findStringEnd_behind hopen (Or.inr hback) later, ← append_assoc, ← hsplit]
    cases hfound : findStringEnd isOsc (behind.rtake kept ++ later) with
    | none =>
      rw [hfound] at hbehind
      have hmoreOf {front : Text} (hfront : findStringEnd isOsc (front ++ later) = none) :
          nextToken (ESCAPE :: first :: (front ++ later)) = .more := by
        refine nextToken_open ?_
        rw [hend, hfront]
        rfl
      rw [normalized_more (hmoreOf hfound), normalized_more (hmoreOf hbehind), htrimmed]
    | some index =>
      rw [hfound] at hbehind
      have htokenOf {front : Text} {place : ℕ}
          (hfront : findStringEnd isOsc (front ++ later) = some place) :
          normalized (ESCAPE :: first :: (front ++ later)) =
            normalized ((front ++ later).drop (place + 1)) := by
        have hplace : findTerminalEscapeSequenceEnd (first :: (front ++ later)) =
            some (place + 2) := by
          rw [hend, hfront]
          rfl
        rw [normalized_token (nextToken_closed hplace), take_succ_cons, isKeptSequence_of_ne hother]
        rfl
      have hrest : (behind ++ later).drop (index + (behind.rdrop kept).length + 1) =
          (behind.rtake kept ++ later).drop (index + 1) := by
        have hall : behind ++ later = behind.rdrop kept ++ (behind.rtake kept ++ later) := by
          rw [← append_assoc, ← hsplit]
        rw [hall, drop_append, drop_eq_nil_of_le (by omega), nil_append]
        congr 1
        omega
      rw [htokenOf hfound, htokenOf hbehind, hrest]
  · rw [hend] at hopen
    cases hopen

end Pending

section Resuming

variable {output later : Text}

theorem normalized_append (hcsi : ∀ source ∈ csiSequences (output ++ later),
      source.length ≤ MAX_TAIL_PENDING_ANSI_CHARS) :
    normalized (output ++ later) =
      ⟨(normalized output).text ++ (normalized ((normalized output).pendingAnsi ++ later)).text,
        (normalized ((normalized output).pendingAnsi ++ later)).pendingAnsi⟩ := by
  have hread := FrameStream.read_append tokens output later
  cases hunread : (FrameStream.read tokens output).2 with
  | stopped error => exact error.elim
  | unread pending =>
    rw [hunread] at hread
    have hmore : nextToken pending = .more := FrameStream.cut_unread tokens hunread
    have hpending : (normalized output).pendingAnsi = trimPendingAnsiControl pending := by
      rw [normalized, hunread]
      rfl
    have hlater : ∀ source ∈ csiSequences (pending ++ later),
        source.length ≤ MAX_TAIL_PENDING_ANSI_CHARS := by
      intro source hsource
      refine hcsi source ?_
      rw [csiSequences, hread, map_append, filter_append]
      exact mem_append_right _ hsource
    rw [hpending, normalized_trim hmore later hlater, normalized, hread, flatMap_append]
    rfl

end Resuming

/-- A control that redraws a line, as it stands behind its escape. -/
def IsLineControl (behind : Text) : Prop :=
  ∃ params final rest, behind = 0x5b :: params ++ final :: rest ∧
    hasCanonicalNumericCsiParams params = true ∧ isTerminalPreviewLineControlFinal final = true

section Kept

theorem isKeptSequence_spec {sequence : Text} (hkept : isKeptSequence sequence = true) :
    ∃ params final, sequence = 0x5b :: params ++ [final] ∧
      hasCanonicalNumericCsiParams params = true ∧
        isTerminalPreviewLineControlFinal final = true := by
  obtain _ | ⟨first, behind⟩ := sequence
  · cases hkept
  have hfirst : first = 0x5b := by
    by_contra hother
    rw [isKeptSequence_of_ne hother] at hkept
    cases hkept
  subst hfirst
  rw [isKeptSequence, and_eq_true, isTerminalPreviewLineControl] at hkept
  obtain ⟨-, hcontrol⟩ := hkept
  obtain rfl | ⟨params, final, rfl⟩ := eq_nil_or_concat behind
  · cases hcontrol
  · have hlast : (0x5b :: (params ++ [final])).getLastD 0 = final := by
      rw [← cons_append, getLastD_eq_getLast?, getLast?_concat]
      rfl
    have hparams : ((0x5b :: (params ++ [final])).drop 1).dropLast = params := dropLast_concat
    rw [concat_eq_append, hlast, hparams] at hcontrol
    rw [concat_eq_append]
    by_cases hrefused : (!isTerminalPreviewLineControlFinal final ||
        !hasCanonicalNumericCsiParams params) = true
    · rw [if_pos hrefused] at hcontrol
      cases hcontrol
    · rw [not_eq_true, or_eq_false_iff, not_eq_false', not_eq_false'] at hrefused
      exact ⟨params, final, rfl, hrefused.2, hrefused.1⟩

/-- What is kept of a token is a unit that is no escape, or a line control. -/
theorem kept_cases {input rest : Text} {token : Token}
    (htoken : nextToken input = .frame token rest) :
    ESCAPE ∉ token.kept ∨ ∃ behind, token.kept = ESCAPE :: behind ∧ ESCAPE ∉ behind ∧
      ∃ params final, behind = 0x5b :: params ++ [final] ∧
        hasCanonicalNumericCsiParams params = true ∧
          isTerminalPreviewLineControlFinal final = true := by
  have hunit {code : CodeUnit} (hcode : code ≠ ESCAPE) : ESCAPE ∉ [code] :=
    fun hmem => hcode (mem_singleton.mp hmem).symm
  have hnone : ESCAPE ∉ ([] : Text) := not_mem_nil
  obtain _ | ⟨code, behind⟩ := input
  · cases htoken
  by_cases hescape : code = ESCAPE
  · subst hescape
    obtain _ | ⟨first, behind⟩ := behind
    · cases htoken
    cases hend : findTerminalEscapeSequenceEnd (first :: behind) with
    | none =>
      rw [nextToken_open hend] at htoken
      cases htoken
    | some offset =>
      rw [nextToken_closed hend] at htoken
      cases htoken
      dsimp only
      split_ifs with hkept
      · obtain ⟨params, final, hsequence, hcanonical, hfinal⟩ := isKeptSequence_spec hkept
        refine Or.inr ⟨_, rfl, ?_, params, final, hsequence, hcanonical, hfinal⟩
        rw [hsequence]
        intro hmem
        have hparam := all_eq_true.mp hcanonical
        rcases mem_append.mp hmem with hfront | hlast
        · rcases mem_cons.mp hfront with hbracket | hinside
          · exact absurd hbracket (by decide)
          · exact absurd (hparam ESCAPE hinside) (by decide)
        · rw [← mem_singleton.mp hlast] at hfinal
          exact absurd hfinal (by decide)
      · exact Or.inl hnone
  · refine Or.inl ?_
    rw [nextToken, if_neg hescape] at htoken
    split_ifs at htoken
    all_goals
      cases htoken
      first | exact hunit hescape | exact hnone

theorem lineControls_of_tokens {parts : List Token}
    (hparts : ∀ token ∈ parts, ∃ input rest, nextToken input = .frame token rest)
    {before after : Text}
    (htext : parts.flatMap (fun token => token.kept) = before ++ ESCAPE :: after) :
    IsLineControl after := by
  induction parts generalizing before with
  | nil => exact absurd htext.symm (append_ne_nil_of_right_ne_nil _ (cons_ne_nil _ _))
  | cons token parts ih =>
    have hlater : ∀ other ∈ parts, ∃ input rest, nextToken input = .frame other rest :=
      fun other hother => hparts other (mem_cons_of_mem _ hother)
    obtain ⟨input, rest, htoken⟩ := hparts token mem_cons_self
    rw [flatMap_cons] at htext
    rcases append_eq_append_iff.mp htext with ⟨more, hbefore, hmore⟩ | ⟨more, hkept, hmore⟩
    · exact ih hlater hmore
    · obtain _ | ⟨unit, more⟩ := more
      · exact ih hlater (hmore.symm.trans (nil_append _).symm)
      · obtain ⟨hunit, hafter⟩ := List.cons.inj hmore
        subst hunit
        rcases kept_cases htoken with hplain | ⟨behind, hcontrol, hplain, params, final, hbehind,
          hcanonical, hfinal⟩
        · exact absurd (by rw [hkept]; simp) hplain
        · -- The escape is the control's first unit, since no other unit of it is one.
          rw [hcontrol] at hkept
          obtain _ | ⟨other, front⟩ := before
          · obtain rfl := (List.cons.inj hkept).2
            have hall : after = (0x5b :: params ++ [final]) ++
                parts.flatMap fun token => token.kept := by
              rw [← hbehind]
              exact hafter
            refine ⟨params, final, parts.flatMap fun token => token.kept, ?_, hcanonical, hfinal⟩
            rw [hall, append_assoc]
            rfl
          · refine absurd ?_ hplain
            rw [(List.cons.inj hkept).2]
            simp

end Kept

/-- Normalization of two chunks is the normalization of both at once, unless a CSI sequence is
longer than the pending text may be; every escape left in a text starts a line control. -/
theorem normalization_composes : (∀ pendingAnsi first second : Text,
      (∀ source ∈ csiSequences (pendingAnsi ++ first ++ second),
        source.length ≤ MAX_TAIL_PENDING_ANSI_CHARS) →
      let before := normalizeTerminalChunk first pendingAnsi
      let after := normalizeTerminalChunk second before.pendingAnsi
      let whole := normalizeTerminalChunk (first ++ second) pendingAnsi
      before.text ++ after.text = whole.text ∧ after.pendingAnsi = whole.pendingAnsi) ∧
    ∀ chunk pendingAnsi front behind : Text,
      (normalizeTerminalChunk chunk pendingAnsi).text = front ++ ESCAPE :: behind →
        IsLineControl behind := by
  constructor
  · intro pendingAnsi first second hcsi
    dsimp only
    rw [normalizeTerminalChunk_eq, normalizeTerminalChunk_eq, normalizeTerminalChunk_eq,
      ← append_assoc, normalized_append hcsi]
    exact ⟨rfl, rfl⟩
  · intro chunk pendingAnsi front behind htext
    rw [normalizeTerminalChunk_eq] at htext
    exact lineControls_of_tokens
      (fun token htoken => FrameStream.exists_cut_of_mem_read tokens htoken) htext

/-- A line erased by a sequence that is cut in its parameters. -/
theorem normalization_composes_erase :
    let before := normalizeTerminalChunk [0x61, ESCAPE, 0x5b] []
    let after := normalizeTerminalChunk [0x32, 0x4b] before.pendingAnsi
    before.text ++ after.text = [0x61, ESCAPE, 0x5b, 0x32, 0x4b] ∧ after.pendingAnsi = [] ∧
      IsLineControl [0x5b, 0x32, 0x4b] := by
  have hwhole : normalizeTerminalChunk [0x61, ESCAPE, 0x5b, 0x32, 0x4b] [] =
      ⟨[0x61, ESCAPE, 0x5b, 0x32, 0x4b], []⟩ := by decide +kernel
  obtain ⟨htext, hpending⟩ := normalization_composes.1 [] [0x61, ESCAPE, 0x5b] [0x32, 0x4b]
    (by decide +kernel)
  refine ⟨htext.trans (congrArg NormalizedChunk.text hwhole),
    hpending.trans (congrArg NormalizedChunk.pendingAnsi hwhole), ?_⟩
  exact normalization_composes.2 [0x61, ESCAPE, 0x5b, 0x32, 0x4b] [] [0x61] [0x5b, 0x32, 0x4b]
    (congrArg NormalizedChunk.text hwhole)

end Wakii.Terminal.AnsiNormalization
