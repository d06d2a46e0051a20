import Wakii.Terminal.PartialEscapeTail

/-!
# Queries for the terminal's colors

An OSC 10 asks for the foreground and may ask for the background too, an OSC 11 asks
for the background.  What the data ends in the middle of may still become a query.
-/

namespace Wakii.Terminal.OscColorQuery

open List

open EscapeTail (BACKSLASH BEL)

inductive TerminalOscColorQuerySlot
  | foreground
  | background
  deriving DecidableEq

def QUESTION_MARK : CodeUnit := 0x3f
def SEMICOLON : CodeUnit := 0x3b

def TERMINAL_OSC_COLOR_QUERY_PREFIXES : List (TerminalOscColorQuerySlot × Text) :=
  [(.foreground, [ESCAPE, 0x5d, 0x31, 0x30, SEMICOLON]),
    (.background, [ESCAPE, 0x5d, 0x31, 0x31, SEMICOLON])]

def terminalOscColorQueryBodies :
    TerminalOscColorQuerySlot → List (Text × List TerminalOscColorQuerySlot)
  | .foreground =>
    [([QUESTION_MARK], [.foreground]),
      ([QUESTION_MARK, SEMICOLON, QUESTION_MARK], [.foreground, .background])]
  | .background => [([QUESTION_MARK], [.background])]

def terminalOscColorQuerySlotsForBody (slot : TerminalOscColorQuerySlot) (body : Text) :
    Option (List TerminalOscColorQuerySlot) :=
  ((terminalOscColorQueryBodies slot).find? fun entry => entry.1 = body).map Prod.snd

/-- The answer of a parser, with the end counted from where it started. -/
inductive ParseResult (R : Type)
  | complete (result : R) (endIndex : ℕ)
  | unfinished
  | none
  deriving DecidableEq

def ParseResult.shift {R : Type} (count : ℕ) : ParseResult R → ParseResult R
  | .complete result endIndex => .complete result (count + endIndex)
  | .unfinished => .unfinished
  | .none => .none

def parseTerminalOscTerminator : Text → ParseResult Unit
  | [] => .unfinished
  | code :: rest =>
    if code = BEL then .complete () 1
    else if code = ESCAPE ∧ rest.head? = some BACKSLASH then .complete () 2
    else if code = ESCAPE ∧ rest = [] then .unfinished
    else .none

def completeTerminalOscColorQuery (slot : TerminalOscColorQuerySlot) (body : Text) :
    ParseResult Unit → ParseResult (List TerminalOscColorQuerySlot)
  | .complete _ endIndex =>
    match terminalOscColorQuerySlotsForBody slot body with
    | some slots => .complete slots endIndex
    | Option.none => .none
  | .unfinished => .unfinished
  | .none => .none

/-- The body of a query of two colors, behind its first question mark. -/
def parseSecondColor (slot : TerminalOscColorQuerySlot) (rest : Text) :
    ParseResult (List TerminalOscColorQuerySlot) :=
  if slot ≠ .foreground ∨ rest.head? ≠ some SEMICOLON then .none
  else
    match rest.drop 1 with
    | [] => .unfinished
    | code :: behind =>
      if code ≠ QUESTION_MARK then .none
      else (completeTerminalOscColorQuery slot [QUESTION_MARK, SEMICOLON, QUESTION_MARK]
        (parseTerminalOscTerminator behind)).shift 3

def parseTerminalOscColorQueryBody (slot : TerminalOscColorQuerySlot) :
    Text → ParseResult (List TerminalOscColorQuerySlot)
  | [] => .unfinished
  | code :: rest =>
    if code ≠ QUESTION_MARK then .none
    else
      match parseTerminalOscTerminator rest with
      | .none => parseSecondColor slot rest
      | terminator => (completeTerminalOscColorQuery slot [QUESTION_MARK] terminator).shift 1

def parseTerminalOscColorQuery (data : Text) : ParseResult (List TerminalOscColorQuerySlot) :=
  match TERMINAL_OSC_COLOR_QUERY_PREFIXES.find? fun entry => entry.2.isPrefixOf data with
  | Option.none =>
    if TERMINAL_OSC_COLOR_QUERY_PREFIXES.any fun entry => data.isPrefixOf entry.2 then .unfinished
    else .none
  | some entry =>
    (parseTerminalOscColorQueryBody entry.1 (data.drop entry.2.length)).shift entry.2.length

/-- An answer that more data cannot change. -/
def Final {R : Type} (parse : Text → ParseResult R) (data : Text) : Prop :=
  parse data ≠ .unfinished → ∀ later, parse (data ++ later) = parse data

theorem terminator_final (data : Text) : Final parseTerminalOscTerminator data := by
  intro hfinished later
  cases data with
  | nil => exact absurd rfl hfinished
  | cons code rest =>
    rw [parseTerminalOscTerminator] at hfinished
    rw [cons_append, parseTerminalOscTerminator, parseTerminalOscTerminator]
    by_cases hbell : code = BEL
    · rw [if_pos hbell, if_pos hbell]
    · rw [if_neg hbell] at hfinished
      rw [if_neg hbell, if_neg hbell]
      by_cases hnil : rest = []
      · rw [hnil] at hfinished ⊢
        by_cases hescape : code = ESCAPE
        · exact absurd (by rw [if_neg (by simp), if_pos ⟨hescape, rfl⟩]) hfinished
        · simp only [hescape, false_and, if_false]
      · rw [head?_append_of_ne_nil rest hnil]
        simp only [hnil, append_ne_nil_of_left_ne_nil hnil later, and_false]

section Answers

variable {R : Type} {count : ℕ} {result : ParseResult R} {slot : TerminalOscColorQuerySlot}
  {body data : Text}

theorem shift_ne_unfinished : result.shift count ≠ .unfinished ↔ result ≠ .unfinished := by
  cases result <;> simp [ParseResult.shift]

theorem complete_ne_unfinished {terminator : ParseResult Unit}
    (hfinished : completeTerminalOscColorQuery slot body terminator ≠ .unfinished) :
    terminator ≠ .unfinished := by
  rintro rfl
  exact hfinished rfl

theorem secondColor_final (slot : TerminalOscColorQuerySlot) (data : Text) (hdata : data ≠ []) :
    Final (parseSecondColor slot) data := by
  intro hfinished later
  rw [parseSecondColor] at hfinished
  rw [parseSecondColor, parseSecondColor, head?_append_of_ne_nil data hdata]
  by_cases hshape : slot ≠ .foreground ∨ data.head? ≠ some SEMICOLON
  · rw [if_pos hshape, if_pos hshape]
  · rw [if_neg hshape] at hfinished
    rw [if_neg hshape, if_neg hshape, drop_append_of_le_length (length_pos_iff.mpr hdata)]
    cases hbehind : data.drop 1 with
    | nil =>
      rw [hbehind] at hfinished
      exact absurd rfl hfinished
    | cons code behind =>
      rw [hbehind] at hfinished
      rw [cons_append]
      simp only at hfinished ⊢
      by_cases hmark : code ≠ QUESTION_MARK
      · rw [if_pos hmark, if_pos hmark]
      · rw [if_neg hmark, shift_ne_unfinished] at hfinished
        rw [if_neg hmark, if_neg hmark,
          terminator_final behind (complete_ne_unfinished hfinished) later]

theorem body_final (slot : TerminalOscColorQuerySlot) (data : Text) :
    Final (parseTerminalOscColorQueryBody slot) data := by
  intro hfinished later
  cases data with
  | nil => exact absurd rfl hfinished
  | cons code rest =>
    rw [parseTerminalOscColorQueryBody] at hfinished
    rw [cons_append, parseTerminalOscColorQueryBody, parseTerminalOscColorQueryBody]
    by_cases hmark : code ≠ QUESTION_MARK
    · rw [if_pos hmark, if_pos hmark]
    · rw [if_neg hmark] at hfinished
      rw [if_neg hmark, if_neg hmark]
      have hterminator : parseTerminalOscTerminator rest ≠ .unfinished := by
        intro hunfinished
        rw [hunfinished] at hfinished
        exact hfinished rfl
      rw [terminator_final rest hterminator later]
      cases hrest : parseTerminalOscTerminator rest with
      | unfinished => exact absurd hrest hterminator
      | complete result endIndex => rfl
      | none =>
        rw [hrest] at hfinished
        have hsome : rest ≠ [] := by
          rintro rfl
          cases hrest
        exact secondColor_final slot rest hsome hfinished later

theorem length_prefixes : ∀ entry ∈ TERMINAL_OSC_COLOR_QUERY_PREFIXES, entry.2.length = 5 := by
  decide

theorem slot_of_start : ∀ entry ∈ TERMINAL_OSC_COLOR_QUERY_PREFIXES,
    ∀ other ∈ TERMINAL_OSC_COLOR_QUERY_PREFIXES, entry.2 = other.2 → entry = other := by
  decide

theorem find_eq_some {entry : TerminalOscColorQuerySlot × Text} :
    (TERMINAL_OSC_COLOR_QUERY_PREFIXES.find? fun entry => entry.2.isPrefixOf data) = some entry ↔
      entry ∈ TERMINAL_OSC_COLOR_QUERY_PREFIXES ∧ entry.2 <+: data := by
  constructor
  · intro hfound
    have hstart : entry.2.isPrefixOf data = true :=
      find?_some (p := fun entry : TerminalOscColorQuerySlot × Text =>
        entry.2.isPrefixOf data) hfound
    exact ⟨mem_of_find?_eq_some hfound, isPrefixOf_iff_prefix.mp hstart⟩
  · rintro ⟨hentry, hprefix⟩
    cases hfound : TERMINAL_OSC_COLOR_QUERY_PREFIXES.find? fun entry => entry.2.isPrefixOf data with
    | none =>
      exact absurd (List.isPrefixOf_iff_prefix.mpr hprefix) (find?_eq_none.mp hfound entry hentry)
    | some other =>
      have hother := mem_of_find?_eq_some hfound
      have hstart : other.2 <+: data := isPrefixOf_iff_prefix.mp
        (find?_some (p := fun entry : TerminalOscColorQuerySlot × Text =>
          entry.2.isPrefixOf data) hfound)
      have hlength : other.2.length = entry.2.length := by
        rw [length_prefixes other hother, length_prefixes entry hentry]
      have hsame := (prefix_of_prefix_length_le hstart hprefix hlength.le).eq_of_length hlength
      rw [slot_of_start other hother entry hentry hsame]

theorem find_eq_none :
    (TERMINAL_OSC_COLOR_QUERY_PREFIXES.find? fun entry => entry.2.isPrefixOf data) = none ↔
      ∀ entry ∈ TERMINAL_OSC_COLOR_QUERY_PREFIXES, ¬ entry.2 <+: data := by
  rw [find?_eq_none]
  simp only [List.isPrefixOf_iff_prefix]

theorem query_final (data : Text) : Final parseTerminalOscColorQuery data := by
  intro hfinished later
  rw [parseTerminalOscColorQuery] at hfinished
  rw [parseTerminalOscColorQuery, parseTerminalOscColorQuery]
  cases hfound : TERMINAL_OSC_COLOR_QUERY_PREFIXES.find? fun entry => entry.2.isPrefixOf data with
  | some entry =>
    obtain ⟨hentry, hprefix⟩ := find_eq_some.mp hfound
    rw [hfound] at hfinished
    rw [find_eq_some.mpr ⟨hentry, hprefix.trans (prefix_append data later)⟩]
    simp only [shift_ne_unfinished] at hfinished ⊢
    rw [drop_append_of_le_length hprefix.length_le, body_final entry.1 _ hfinished later]
  | none =>
    rw [hfound] at hfinished
    have hshort : (TERMINAL_OSC_COLOR_QUERY_PREFIXES.any fun entry => data.isPrefixOf entry.2) =
        false := by
      cases hany : TERMINAL_OSC_COLOR_QUERY_PREFIXES.any fun entry => data.isPrefixOf entry.2 with
      | false => rfl
      | true =>
        simp only [hany, if_true] at hfinished
        exact (hfinished rfl).elim
    have hnot : ∀ entry ∈ TERMINAL_OSC_COLOR_QUERY_PREFIXES, ¬ data <+: entry.2 := by
      intro entry hentry hprefix
      exact any_eq_false.mp hshort entry hentry (List.isPrefixOf_iff_prefix.mpr hprefix)
    have hfoundLater : (TERMINAL_OSC_COLOR_QUERY_PREFIXES.find? fun entry =>
        entry.2.isPrefixOf (data ++ later)) = none := by
      rw [find_eq_none] at hfound ⊢
      intro entry hentry hprefix
      rcases prefix_or_prefix_of_prefix hprefix (prefix_append data later) with hwithin | hbeyond
      · exact hfound entry hentry hwithin
      · exact hnot entry hentry hbeyond
    have hshortLater : (TERMINAL_OSC_COLOR_QUERY_PREFIXES.any fun entry =>
        (data ++ later).isPrefixOf entry.2) = false := by
      rw [any_eq_false]
      intro entry hentry hprefix
      exact hnot entry hentry
        ((prefix_append data later).trans (List.isPrefixOf_iff_prefix.mp hprefix))
    rw [hfoundLater, hshort, hshortLater]

def Within {R : Type} (parse : Text → ParseResult R) (data : Text) : Prop :=
  ∀ result endIndex, parse data = .complete result endIndex → 0 < endIndex ∧ endIndex ≤ data.length

theorem shift_complete {answer : R} {endIndex : ℕ}
    (hshift : result.shift count = .complete answer endIndex) :
    ∃ inner, result = .complete answer inner ∧ endIndex = count + inner := by
  cases result with
  | complete other inner =>
    cases hshift
    exact ⟨inner, rfl, rfl⟩
  | unfinished => cases hshift
  | none => cases hshift

theorem complete_complete {terminator : ParseResult Unit} {slots : List TerminalOscColorQuerySlot}
    {endIndex : ℕ} (hcomplete : completeTerminalOscColorQuery slot body terminator =
      .complete slots endIndex) : terminator = .complete () endIndex := by
  cases terminator with
  | complete answer inner =>
    rw [completeTerminalOscColorQuery] at hcomplete
    split at hcomplete
    · cases hcomplete
      rfl
    · cases hcomplete
  | unfinished => cases hcomplete
  | none => cases hcomplete

theorem terminator_within (data : Text) : Within parseTerminalOscTerminator data := by
  intro result endIndex hparse
  cases data with
  | nil => cases hparse
  | cons code rest =>
    rw [parseTerminalOscTerminator] at hparse
    split_ifs at hparse with hbell hterminator hescape
    · cases hparse
      simp
    · cases hparse
      obtain ⟨behind, rfl⟩ := head?_eq_some_iff.mp hterminator.2
      simp

theorem secondColor_within (slot : TerminalOscColorQuerySlot) (data : Text) :
    ∀ slots endIndex, parseSecondColor slot data = .complete slots endIndex →
      0 < endIndex ∧ endIndex ≤ data.length + 1 := by
  intro slots endIndex hparse
  rw [parseSecondColor] at hparse
  split_ifs at hparse
  split at hparse
  · cases hparse
  · rename_i code behind hbehind
    split_ifs at hparse
    obtain ⟨inner, hinner, rfl⟩ := shift_complete hparse
    have hwithin := terminator_within behind _ _ (complete_complete hinner)
    have hlength := congrArg List.length hbehind
    rw [length_drop, length_cons] at hlength
    omega

theorem body_within (slot : TerminalOscColorQuerySlot) (data : Text) :
    Within (parseTerminalOscColorQueryBody slot) data := by
  intro slots endIndex hparse
  cases data with
  | nil => cases hparse
  | cons code rest =>
    rw [parseTerminalOscColorQueryBody] at hparse
    split_ifs at hparse
    split at hparse
    · have hwithin := secondColor_within slot rest slots endIndex hparse
      rw [length_cons]
      omega
    · obtain ⟨inner, hinner, rfl⟩ := shift_complete hparse
      have hwithin := terminator_within rest _ _ (complete_complete hinner)
      rw [length_cons]
      omega

theorem query_within (data : Text) : Within parseTerminalOscColorQuery data := by
  intro slots endIndex hparse
  rw [parseTerminalOscColorQuery] at hparse
  split at hparse
  · split_ifs at hparse
  · rename_i entry hfound
    obtain ⟨inner, hinner, rfl⟩ := shift_complete hparse
    have hlength := (find_eq_some.mp hfound).2.length_le
    have hwithin := body_within entry.1 _ slots inner hinner
    rw [length_drop] at hwithin
    omega

end Answers

end Wakii.Terminal.OscColorQuery
