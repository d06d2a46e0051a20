import Mathlib.Algebra.Order.Group.Int
import Wakii.Terminal.TailBuffer

/-!
# How far up a chunk reaches

The scan that sizes the window sees the same movements as the redraw, and the
sum of all movements is never less than what the scan finds.
-/

namespace Wakii.Terminal

open List

section Controls

section

variable {afterEscape after : Text} {parsed : AnsiControlSequence}
  (hparse : parseAnsiControlSequence afterEscape = some (parsed, after))
include hparse

theorem parse_length : ∃ offset, after = afterEscape.drop offset := by
  unfold parseAnsiControlSequence at hparse
  split at hparse
  · cases hparse
  · rename_i offset _
    dsimp only at hparse
    split at hparse
    · exact ⟨offset, (Prod.mk.inj (Option.some.inj hparse)).2.symm⟩
    · exact ⟨offset, (Prod.mk.inj (Option.some.inj hparse)).2.symm⟩

theorem parse_le : after.length ≤ afterEscape.length := by
  obtain ⟨offset, rfl⟩ := parse_length hparse
  rw [length_drop]
  exact Nat.sub_le _ _

end

def upRows : RedrawControl → ℕ
  | .sequence (.csi final params firstParam) =>
    if final.val = 0x41 ∧ hasCanonicalNumericCsiParams params = true then firstParam.getD 1 else 0
  | _ => 0

def UpwardReach.apply (upward : UpwardReach) : RedrawControl → UpwardReach
  | .newline => { upward with rowFromEnd := upward.rowFromEnd - 1 }
  | .sequence parsed => upward.applySequence parsed
  | _ => upward

def UpwardReach.run (upward : UpwardReach) (controls : List RedrawControl) : UpwardReach :=
  controls.foldl UpwardReach.apply upward

end Controls

section Scan

variable {upward : UpwardReach}

theorem upwardReachFrom_text (rest : Text) (fuel : ℕ) (hfuel : rest.length ≤ fuel) :
    ∃ left, (rest.dropWhile fun next => !isRedrawControlCode next).length ≤ left ∧
      upwardReachFrom fuel rest upward =
        upwardReachFrom left (rest.dropWhile fun next => !isRedrawControlCode next) upward := by
  induction rest generalizing fuel with
  | nil => exact ⟨fuel, hfuel, rfl⟩
  | cons code rest ih =>
    by_cases hcontrol : isRedrawControlCode code = true
    · rw [dropWhile_cons_of_neg (by simp [hcontrol])]
      exact ⟨fuel, hfuel, rfl⟩
    · rw [dropWhile_cons_of_pos (by simpa using hcontrol)]
      cases fuel with
      | zero => exact absurd hfuel (Nat.not_succ_le_zero _)
      | succ fuel =>
        obtain ⟨left, hleft, hsame⟩ := ih fuel (Nat.le_of_succ_le_succ hfuel)
        refine ⟨left, hleft, ?_⟩
        unfold isRedrawControlCode at hcontrol
        simp only [Bool.or_eq_true, beq_iff_eq, not_or] at hcontrol
        obtain ⟨⟨⟨hnewline, -⟩, -⟩, hescape⟩ := hcontrol
        rw [upwardReachFrom, if_neg hnewline, if_neg hescape]
        exact hsame

/-- The reach the text is scanned for is that of its controls. -/
theorem upwardReachFrom_eq (length : ℕ) (text : Text) (hlength : text.length ≤ length)
    (fuel controlFuel : ℕ) (hfuel : text.length ≤ fuel) (hcontrolFuel : text.length ≤ controlFuel) :
    upwardReachFrom fuel text upward = upward.run (redrawControlsFrom controlFuel text) := by
  induction length generalizing text fuel controlFuel upward with
  | zero =>
    rw [eq_nil_of_length_eq_zero (Nat.le_zero.mp hlength)]
    cases fuel <;> cases controlFuel <;> rfl
  | succ length ih =>
    cases text with
    | nil => cases fuel <;> cases controlFuel <;> rfl
    | cons code rest =>
      rw [length_cons] at hlength hfuel hcontrolFuel
      have hrest : rest.length ≤ length := Nat.le_of_succ_le_succ hlength
      cases fuel with
      | zero => exact absurd hfuel (Nat.not_succ_le_zero _)
      | succ fuel =>
      cases controlFuel with
      | zero => exact absurd hcontrolFuel (Nat.not_succ_le_zero _)
      | succ controlFuel =>
      replace hfuel := Nat.le_of_succ_le_succ hfuel
      replace hcontrolFuel := Nat.le_of_succ_le_succ hcontrolFuel
      rw [upwardReachFrom, redrawControlsFrom]
      by_cases hnewline : code = NEWLINE
      · rw [if_pos hnewline, if_pos hnewline]
        exact ih rest hrest fuel controlFuel hfuel hcontrolFuel
      rw [if_neg hnewline, if_neg hnewline]
      by_cases hescape : code = ESCAPE
      · have hreturn : code ≠ CARRIAGE_RETURN := by
          rw [hescape]
          decide
        have hbackspace : code ≠ BACKSPACE := by
          rw [hescape]
          decide
        rw [if_pos hescape, if_neg hreturn, if_neg hbackspace, if_pos hescape]
        cases hparse : parseAnsiControlSequence rest with
        | none => exact ih rest hrest fuel controlFuel hfuel hcontrolFuel
        | some found =>
          obtain ⟨parsed, after⟩ := found
          have hafter := parse_le hparse
          exact ih after (hafter.trans hrest) fuel controlFuel (hafter.trans hfuel)
            (hafter.trans hcontrolFuel)
      rw [if_neg hescape]
      split_ifs with hreturn hbackspace
      · exact ih rest hrest fuel controlFuel hfuel hcontrolFuel
      · exact ih rest hrest fuel controlFuel hfuel hcontrolFuel
      · obtain ⟨left, hleft, hsame⟩ := @upwardReachFrom_text upward rest fuel hfuel
        have hshorter : (rest.dropWhile fun next => !isRedrawControlCode next).length ≤
            rest.length := (dropWhile_suffix _).length_le
        rw [hsame]
        exact ih _ (hshorter.trans hrest) left controlFuel hleft (hshorter.trans hcontrolFuel)

end Scan

section Reach

variable {upward : UpwardReach}

def totalUps (controls : List RedrawControl) : ℕ := (controls.map upRows).sum

theorem apply_rowFromEnd (upward : UpwardReach) (control : RedrawControl) :
    (upward.apply control).rowFromEnd ≤ upward.rowFromEnd + upRows control ∧
      (upward.apply control).reach ≤ max upward.reach (upward.rowFromEnd + upRows control) := by
  cases control with
  | newline =>
    dsimp only [UpwardReach.apply, upRows]
    omega
  | carriageReturn => exact ⟨by dsimp only [UpwardReach.apply, upRows]; omega, le_max_left _ _⟩
  | backspace => exact ⟨by dsimp only [UpwardReach.apply, upRows]; omega, le_max_left _ _⟩
  | text run => exact ⟨by dsimp only [UpwardReach.apply, upRows]; omega, le_max_left _ _⟩
  | sequence parsed =>
    cases parsed with
    | other => exact ⟨by dsimp only [UpwardReach.apply, UpwardReach.applySequence, upRows]; omega,
        le_max_left _ _⟩
    | csi final params firstParam =>
      dsimp only [UpwardReach.apply, UpwardReach.applySequence, upRows]
      split_ifs
      · exact ⟨le_rfl, le_rfl⟩
      · exact ⟨by omega, le_max_left _ _⟩

theorem run_reach_le (controls : List RedrawControl) : (upward.run controls).reach ≤
      max upward.reach (upward.rowFromEnd + totalUps controls) := by
  induction controls generalizing upward with
  | nil => exact le_max_left _ _
  | cons control rest ih =>
    obtain ⟨hrow, hreach⟩ := apply_rowFromEnd upward control
    have hrest := @ih (upward.apply control)
    have htotal : totalUps (control :: rest) = upRows control + totalUps rest := rfl
    have hrun : upward.run (control :: rest) = (upward.apply control).run rest := rfl
    rw [hrun, htotal]
    push_cast
    omega

theorem run_reach_ge (controls : List RedrawControl) :
    upward.reach ≤ (upward.run controls).reach := by
  induction controls generalizing upward with
  | nil => exact le_rfl
  | cons control rest ih =>
    refine le_trans ?_ ih
    cases control with
    | sequence parsed =>
      cases parsed with
      | other => exact le_rfl
      | csi final params firstParam =>
        dsimp only [UpwardReach.apply, UpwardReach.applySequence]
        split_ifs
        · exact le_max_left _ _
        · exact le_rfl
    | newline => exact le_rfl
    | carriageReturn => exact le_rfl
    | backspace => exact le_rfl
    | text run => exact le_rfl

theorem summedCursorUps_drop (count : ℕ) (text : Text) :
    summedCursorUps (text.drop count) ≤ summedCursorUps text := by
  induction count generalizing text with
  | zero => exact le_rfl
  | succ count ih =>
    cases text with
    | nil => exact le_rfl
    | cons code rest => exact (ih rest).trans (Nat.le_add_left _ _)

theorem summedCursorUps_suffix {later text : Text} (hlater : later <:+ text) :
    summedCursorUps later ≤ summedCursorUps text := by
  rw [suffix_iff_eq_drop.mp hlater]
  exact summedCursorUps_drop _ _

theorem classify_csi {afterEscape : Text}
    (hcsi : classifyTerminalEscapeIntroducer afterEscape.head? = .csi) :
    ∃ introducer rest, afterEscape = introducer :: rest ∧ introducer.val = 0x5b := by
  cases afterEscape with
  | nil => cases hcsi
  | cons introducer rest =>
    refine ⟨introducer, rest, rfl, ?_⟩
    by_contra hne
    simp only [head?_cons, classifyTerminalEscapeIntroducer, if_neg hne] at hcsi
    split_ifs at hcsi

/-- The pattern finds every movement up that the redraw makes. -/
theorem cursorUpAt_of_parse {afterEscape after params : Text} {final : CodeUnit}
    {firstParam : Option ℕ}
    (hparse : parseAnsiControlSequence afterEscape = some (.csi final params firstParam, after))
    (hup : final.val = 0x41) (hcanonical : hasCanonicalNumericCsiParams params = true) :
    cursorUpAt afterEscape = some (firstParam.getD 1) := by
  unfold parseAnsiControlSequence at hparse
  split at hparse
  · cases hparse
  rename_i offset hend
  dsimp only at hparse
  split at hparse
  swap
  · cases hparse
  rename_i hcsi
  obtain ⟨introducer, rest, rfl, hintroducer⟩ := classify_csi hcsi
  rw [findTerminalEscapeSequenceEnd, hcsi] at hend
  obtain ⟨place, hplace, rfl⟩ := Option.map_eq_some_iff.mp hend
  rw [drop_one, tail_cons] at hplace
  obtain ⟨hbound, -, -⟩ := findIdx?_eq_some_iff_getElem.mp hplace
  have hfields := (Prod.mk.inj (Option.some.inj hparse)).1
  injection hfields with hfinal hparams hfirst
  have hunit : rest[place] = 0x41 := by
    have hread : ((introducer :: rest)[place + 2 - 1]?).getD 0 = rest[place] := by
      rw [show place + 2 - 1 = place + 1 from rfl, getElem?_cons_succ, getElem?_eq_getElem hbound]
      rfl
    rw [← hread, hfinal]
    exact Fin.ext hup
  have hsplit : rest = params ++ 0x41 :: rest.drop (place + 1) := by
    rw [← hparams, drop_one, tail_cons, Nat.add_sub_cancel, ← hunit,
      ← drop_eq_getElem_cons hbound, take_append_drop]
  have hnumeric : ∀ code ∈ params, isNumericCsiParam code = true := all_eq_true.mp hcanonical
  have hstop : isNumericCsiParam 0x41 = false := by decide
  have htake : rest.takeWhile isNumericCsiParam = params := by
    rw [hsplit, takeWhile_append_of_pos hnumeric, takeWhile_cons_of_neg (by simp [hstop]),
      append_nil]
  have hdrop : (rest.dropWhile isNumericCsiParam).head? = some 0x41 := by
    rw [hsplit, dropWhile_append_of_pos hnumeric, dropWhile_cons_of_neg (by simp [hstop])]
    rfl
  rw [cursorUpAt, if_pos ⟨hintroducer, hdrop⟩, htake, ← hfirst, hparams]

/-- The controls move up no more than the text's sum. -/
theorem totalUps_le (fuel : ℕ) (text : Text) :
    totalUps (redrawControlsFrom fuel text) ≤ summedCursorUps text := by
  induction fuel generalizing text with
  | zero => exact Nat.zero_le _
  | succ fuel ih =>
    cases text with
    | nil => exact Nat.zero_le _
    | cons code rest =>
      have hrest : summedCursorUps rest ≤ summedCursorUps (code :: rest) := Nat.le_add_left _ _
      have hcons : ∀ control controls, totalUps (control :: controls) =
          upRows control + totalUps controls := fun _ _ => rfl
      rw [redrawControlsFrom]
      split_ifs with hnewline hreturn hbackspace hescape
      · rw [hcons, upRows, Nat.zero_add]
        · exact (ih rest).trans hrest
        · exact fun _ _ _ h => (by cases h)
      · rw [hcons, upRows, Nat.zero_add]
        · exact (ih rest).trans hrest
        · exact fun _ _ _ h => (by cases h)
      · rw [hcons, upRows, Nat.zero_add]
        · exact (ih rest).trans hrest
        · exact fun _ _ _ h => (by cases h)
      · cases hparse : parseAnsiControlSequence rest with
        | none => exact (ih rest).trans hrest
        | some found =>
          obtain ⟨parsed, after⟩ := found
          dsimp only
          rw [hcons, summedCursorUps, if_pos hescape]
          obtain ⟨offset, hafter⟩ := parse_length hparse
          have hlater : totalUps (redrawControlsFrom fuel after) ≤ summedCursorUps rest :=
            (ih after).trans (hafter ▸ summedCursorUps_drop offset rest)
          refine Nat.add_le_add ?_ hlater
          cases parsed with
          | other => exact Nat.zero_le _
          | csi final params firstParam =>
            rw [upRows]
            split_ifs with hup
            · rw [cursorUpAt_of_parse hparse hup.1 hup.2]
              rfl
            · exact Nat.zero_le _
      · rw [hcons, upRows, Nat.zero_add]
        · exact ((ih _).trans (summedCursorUps_suffix (dropWhile_suffix _))).trans hrest
        · exact fun _ _ _ h => (by cases h)

theorem maxUpwardCursorReach_ge (chunk : Text)
    (cursor : Option RetainedTailRedrawCursor) (windowLimit : ℕ) :
    ((⟨startRowFromEnd cursor, startRowFromEnd cursor⟩ : UpwardReach).run
      (redrawControls chunk)).reach ≤ maxUpwardCursorReach chunk cursor windowLimit := by
  unfold maxUpwardCursorReach
  dsimp only
  split_ifs
  · refine (run_reach_le _).trans (max_le ?_ ?_)
    · rw [summedUpwardCursorReach]
      push_cast
      omega
    · have hsum := totalUps_le chunk.length chunk
      rw [summedUpwardCursorReach, redrawControls]
      push_cast
      omega
  · rw [netUpwardCursorReach, redrawControls, ← upwardReachFrom_eq chunk.length chunk le_rfl
      chunk.length chunk.length le_rfl le_rfl]
    exact Int.self_le_toNat _

end Reach

end Wakii.Terminal
