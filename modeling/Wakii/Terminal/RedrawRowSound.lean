import Wakii.Terminal.RedrawRow

/-!
# What a redrawn row remembers

A row edits its text by splices and keeps its snapshot, the end of its content
and a bound on its blank start.  Beside a plain array of characters under the
same edits, the text never differs and nothing that is remembered is stale.
-/

namespace Wakii.Terminal

open Option List

inductive RowCall where
  | write (column : ℕ) (run : Text)
  | erase (mode column : ℕ)
  | snapshot
  deriving DecidableEq

def RetainedTerminalRow.apply (row : RetainedTerminalRow) : RowCall → RetainedTerminalRow
  | .write column run => writeRetainedRow row column run
  | .erase mode column => eraseRetainedRow row mode column
  | .snapshot => (retainedRowSnapshot row).1

/-- The run in place of the cells it covers; a gap before it is padded with spaces. -/
def overwriteCells (cells : Text) (column : ℕ) (run : Text) : Text :=
  if run.isEmpty then cells
  else (cells ++ List.replicate (column - cells.length) SPACE).take column ++ run ++
    cells.drop (column + run.length)

/-- K0 cuts at the column, K1 blanks the cells through it, K2 leaves none. -/
def eraseCells (cells : Text) (mode column : ℕ) : Text :=
  if mode = 0 then cells.take column
  else if mode = 1 then
    List.replicate (min (column + 1) cells.length) SPACE ++
      cells.drop (min (column + 1) cells.length)
  else if mode = 2 then []
  else cells

/-- A plain array of characters under the same calls. -/
def editCells (cells : Text) : RowCall → Text
  | .write column run => overwriteCells cells column run
  | .erase mode column => eraseCells cells mode column
  | .snapshot => cells

/-- The index after the last character that is no blank. -/
structure ContentEndsAt (cells : Text) (stop : ℕ) : Prop where
  blank : ∀ index code, stop ≤ index → cells[index]? = some code → isTrimmedWhitespace code
  shown : stop ≠ 0 → ∃ code, cells[stop - 1]? = some code ∧ isTrimmedWhitespace code = false

theorem rdropWhile_append_of_all {A : Type*} {p : A → Bool} {front back : List A}
    (hall : ∀ entry ∈ back, p entry) : (front ++ back).rdropWhile p = front.rdropWhile p := by
  rw [List.rdropWhile, List.rdropWhile, reverse_append, dropWhile_append_of_pos]
  intro entry hentry
  exact hall entry (mem_reverse.mp hentry)

theorem trim_eq_take {cells : Text} {stop : ℕ} (hends : ContentEndsAt cells stop) :
    trimTerminalLineRight cells = cells.take stop := by
  have hall : ∀ code ∈ cells.drop stop, isTrimmedWhitespace code := by
    intro code hcode
    obtain ⟨index, hindex⟩ := mem_iff_getElem?.mp hcode
    rw [getElem?_drop] at hindex
    exact hends.blank _ code (Nat.le_add_right _ _) hindex
  calc trimTerminalLineRight cells
      = (cells.take stop ++ cells.drop stop).rdropWhile isTrimmedWhitespace := by
        rw [take_append_drop, trimTerminalLineRight]
    _ = (cells.take stop).rdropWhile isTrimmedWhitespace := rdropWhile_append_of_all hall
    _ = cells.take stop := by
        rw [rdropWhile_eq_self_iff]
        intro hne hlast
        have hstop : stop ≠ 0 := fun hzero => hne (by rw [hzero, take_zero])
        obtain ⟨code, hcode, hshown⟩ := hends.shown hstop
        obtain ⟨hinside, hvalue⟩ := List.getElem?_eq_some_iff.mp hcode
        have hlength : (cells.take stop).length - 1 = stop - 1 := by
          rw [List.length_take]
          omega
        have hsame : (cells.take stop).getLast hne = code := by
          rw [getLast_eq_getElem, ← hvalue, getElem_take]
          exact getElem_congr_idx hlength
        rw [hsame, hshown] at hlast
        exact Bool.false_ne_true hlast

theorem contentEndsAt_trim (cells : Text) :
    ContentEndsAt cells (trimTerminalLineRight cells).length := by
  induction cells using List.reverseRecOn with
  | nil => exact ⟨fun _ _ _ hcode => (by cases hcode), fun hne => absurd rfl hne⟩
  | append_singleton cells last ih =>
    by_cases hblank : isTrimmedWhitespace last
    · have htrim : trimTerminalLineRight (cells ++ [last]) = trimTerminalLineRight cells :=
        rdropWhile_concat_pos _ _ _ hblank
      rw [htrim]
      refine ⟨fun index code hindex hcode => ?_, ?_⟩
      · rw [getElem?_append] at hcode
        split at hcode
        · exact ih.blank index code hindex hcode
        · rw [mem_singleton.mp (mem_of_getElem? hcode)]
          exact hblank
      · intro hstop
        obtain ⟨code, hcode, hshown⟩ := ih.shown hstop
        refine ⟨code, ?_, hshown⟩
        rw [List.getElem?_append_left (List.getElem?_eq_some_iff.mp hcode).1]
        exact hcode
    · rw [trimTerminalLineRight, List.rdropWhile_concat_neg _ _ _ hblank]
      refine ⟨fun index code hindex hcode => ?_, fun _ => ⟨last, ?_, by simpa using hblank⟩⟩
      · rw [getElem?_eq_none hindex] at hcode
        cases hcode
      · simp

theorem sharedUnits_spec (left right : Text) : sharedUnits left right ≤ left.length ∧
    left.take (sharedUnits left right) = right.take (sharedUnits left right) := by
  induction left generalizing right with
  | nil => simp [sharedUnits]
  | cons code rest ih =>
    cases right with
    | nil => simp [sharedUnits]
    | cons other others =>
      rw [sharedUnits]
      split_ifs with hsame
      · rw [hsame, take_succ_cons, take_succ_cons, (ih others).2]
        exact ⟨Nat.succ_le_succ (ih others).1, rfl⟩
      · exact ⟨Nat.zero_le _, rfl⟩

theorem take_drop_sharedUnits (cells run : Text) (column : ℕ) {offset : ℕ} (hoffset : sharedUnits
      ((cells.drop column).take (min (cells.length - column) run.length)) run = offset) :
    offset ≤ min (cells.length - column) run.length ∧
      (cells.drop column).take offset = run.take offset := by
  obtain ⟨hle, htake⟩ := sharedUnits_spec
    ((cells.drop column).take (min (cells.length - column) run.length)) run
  rw [hoffset, List.length_take] at hle
  rw [hoffset, take_take, Nat.min_eq_left (by omega)] at htake
  exact ⟨by omega, htake⟩

theorem overwriteCells_inside {cells run : Text} {column offset : ℕ}
    (hrun : run.isEmpty = false) (hinside : column ≤ cells.length)
    (hheld : (cells.drop column).take offset = run.take offset) :
    overwriteCells cells column run =
      cells.take (column + offset) ++ run.drop offset ++ cells.drop (column + run.length) := by
  rw [overwriteCells, hrun, if_neg Bool.false_ne_true, Nat.sub_eq_zero_of_le hinside,
    replicate_zero, append_nil, take_add, hheld,
    append_assoc (cells.take column) (run.take offset), take_append_drop]

theorem noteWrite_text (row : RetainedTerminalRow) (column runEnd : ℕ) (written : Option ℕ) :
    (row.noteWrite column runEnd written).text = row.text := by
  rw [RetainedTerminalRow.noteWrite]
  split
  · rfl
  · split_ifs <;> rfl

theorem writeRetainedRow_text (row : RetainedTerminalRow) (column : ℕ) (run : Text) :
    (writeRetainedRow row column run).text = overwriteCells row.text column run := by
  rw [writeRetainedRow]
  generalize hoffset : sharedUnits
    ((row.text.drop column).take (min (row.text.length - column) run.length)) run = offset
  obtain ⟨hoverlap, hheld⟩ := take_drop_sharedUnits row.text run column hoffset
  cases hrun : run.isEmpty with
  | true =>
    have hnil := isEmpty_iff.mp hrun
    subst hnil
    simp only [length_nil] at hoverlap ⊢
    rw [if_pos (by omega), overwriteCells, isEmpty_nil, if_pos rfl]
  | false =>
    have hsome : 0 < run.length := length_pos_iff.mpr (by simpa using hrun)
    split_ifs with hsame
    · rw [overwriteCells_inside hrun (by omega) hheld, hsame, drop_length, append_nil,
        take_append_drop]
    · rw [noteWrite_text, RetainedTerminalRow.writtenText, hoffset]
      dsimp only
      split_ifs with hwhole hbeyond hshared
      · rw [overwriteCells, hrun, hwhole.1]
        simp [drop_eq_nil_of_le hwhole.2]
      · rw [overwriteCells, hrun, if_neg Bool.false_ne_true,
          take_of_length_le (by simp; omega), drop_eq_nil_of_le (by omega),
          append_nil]
      · have hbehind : row.text.drop (column + run.length) = [] := drop_eq_nil_of_le (by omega)
        rw [overwriteCells_inside hrun (by omega) hheld, hbehind, append_nil,
          take_of_length_le (by omega)]
      · rw [overwriteCells_inside hrun (by omega) hheld]

theorem getElem?_overwriteCells {run : Text} (hrun : run.isEmpty = false) (cells : Text)
    (column index : ℕ) :
    (overwriteCells cells column run)[index]? =
      if index < column then some (cells[index]?.getD SPACE)
      else if index < column + run.length then run[index - column]?
      else cells[index]? := by
  have hfront : ((cells ++ List.replicate (column - cells.length) SPACE).take column).length =
      column := by
    simp
    omega
  rw [overwriteCells, hrun, if_neg Bool.false_ne_true, append_assoc, getElem?_append, hfront]
  split_ifs with hbefore hinside
  · rw [getElem?_take_of_lt hbefore, getElem?_append]
    split_ifs with hheld
    · rw [getElem?_eq_getElem hheld, getD_some]
    · rw [getElem?_replicate_of_lt (by omega), getElem?_eq_none (Nat.le_of_not_lt hheld), getD_none]
  · rw [List.getElem?_append_left (by omega)]
  · rw [getElem?_append_right (by omega), getElem?_drop]
    congr 1
    omega

theorem getElem?_blankStart (cells : Text) (count index : ℕ) :
    (List.replicate count SPACE ++ cells.drop count)[index]? =
      if index < count then some SPACE else cells[index]? := by
  rw [getElem?_append, length_replicate]
  split_ifs with hbefore
  · exact getElem?_replicate_of_lt hbefore
  · rw [getElem?_drop, Nat.add_sub_cancel' (Nat.le_of_not_lt hbefore)]

theorem replicate_append_drop {cells : Text} {count : ℕ}
    (hspaces : ∀ index < count, cells[index]? = some SPACE) :
    List.replicate count SPACE ++ cells.drop count = cells := by
  apply ext_getElem?
  intro index
  rw [getElem?_blankStart]
  split_ifs with hbefore
  · exact (hspaces index hbefore).symm
  · rfl

/-- What the row remembers is true of the cells. -/
structure RetainedTerminalRow.Holds (row : RetainedTerminalRow) (cells : Text) : Prop where
  text : row.text = cells
  snapshot : ∀ snapshot, row.snapshot = some snapshot → snapshot = trimTerminalLineRight cells
  contentEnd : ∀ stop, row.contentEnd = some stop → ContentEndsAt cells stop
  blankPrefix : ∀ index < row.blankPrefix, cells[index]? = some SPACE

namespace RetainedTerminalRow.Holds

variable {row : RetainedTerminalRow} {cells : Text} (hholds : row.Holds cells)
include hholds

theorem snapshot_eq : (retainedRowSnapshot row).2 = trimTerminalLineRight cells ∧
    (retainedRowSnapshot row).1.Holds cells := by
  rw [retainedRowSnapshot]
  cases hsnapshot : row.snapshot with
  | some snapshot => exact ⟨hholds.snapshot snapshot hsnapshot, hholds⟩
  | none =>
    have hends : ContentEndsAt cells
        (row.contentEnd.getD (trimTerminalLineRight row.text).length) := by
      cases hend : row.contentEnd with
      | some stop => exact hholds.contentEnd stop hend
      | none =>
        rw [getD_none, hholds.text]
        exact contentEndsAt_trim cells
    dsimp only
    rw [hholds.text] at hends ⊢
    have htrim := trim_eq_take hends
    refine ⟨htrim.symm, ⟨rfl, fun snapshot heq => ?_, fun stop heq => ?_, hholds.blankPrefix⟩⟩
    · rw [htrim, ← Option.some.inj heq]
    · rw [← Option.some.inj heq]
      exact hends

/-- Writing into a row keeps what the row remembers true. -/
theorem noteWrite {column : ℕ} {run next : Text} (hcells : ∀ index, next[index]? =
      if index < column then some (cells[index]?.getD SPACE)
      else if index < column + run.length then run[index - column]?
      else cells[index]?) :
    ({ row with text := next }.noteWrite column (column + run.length)
      (writtenEnd column run)).Holds next := by
  have hrun := contentEndsAt_trim run
  have hblanks : ∀ index < min row.blankPrefix column, next[index]? = some SPACE := by
    intro index hindex
    rw [hcells, if_pos (by omega), hholds.blankPrefix index (by omega), getD_some]
  -- the run's own end is the content's end when all behind the run is blank
  have hwritten : (∀ index code, column + run.length ≤ index → next[index]? = some code →
      isTrimmedWhitespace code) → ∀ stop, writtenEnd column run = some stop →
        ContentEndsAt next stop := by
    intro hbehind stop hstop
    rw [writtenEnd] at hstop
    split_ifs at hstop with hshown
    obtain rfl := Option.some.inj hstop
    have hpos : (trimTerminalLineRight run).length ≠ 0 := by
      simpa using hshown
    refine ⟨fun index code hindex hcode => ?_, fun _ => ?_⟩
    · rcases Nat.lt_or_ge index (column + run.length) with hinside | hafter
      · rw [hcells, if_neg (by omega), if_pos hinside] at hcode
        exact hrun.blank _ code (by omega) hcode
      · exact hbehind index code hafter hcode
    · obtain ⟨code, hcode, hlast⟩ := hrun.shown hpos
      have hinside := (List.getElem?_eq_some_iff.mp hcode).1
      refine ⟨code, ?_, hlast⟩
      rw [hcells, if_neg (by omega), if_pos (by omega), ← hcode]
      congr 1
      omega
  rw [RetainedTerminalRow.noteWrite]
  cases hend : row.contentEnd with
  | none =>
    refine ⟨rfl, fun _ heq => (by cases heq), fun stop hstop => ?_, hblanks⟩
    dsimp only at hstop
    split_ifs at hstop with hlast
    refine hwritten (fun index code hindex hcode => ?_) stop hstop
    rw [getElem?_eq_none (hlast.trans hindex)] at hcode
    cases hcode
  | some contentEnd =>
    have hends := hholds.contentEnd contentEnd hend
    dsimp only
    split_ifs with hbehind hsome hcovered
    · refine ⟨rfl, fun _ heq => (by cases heq), fun stop hstop => ?_, hblanks⟩
      obtain rfl := Option.some.inj hstop
      refine ⟨fun index code hindex hcode => ?_, fun hne => ?_⟩
      · rw [hcells, if_neg (by omega), if_neg (by omega)] at hcode
        exact hends.blank index code hindex hcode
      · rw [hcells, if_neg (by omega), if_neg (by omega)]
        exact hends.shown hne
    · refine ⟨rfl, fun _ heq => (by cases heq), hwritten fun index code hindex hcode => ?_, hblanks⟩
      rw [hcells, if_neg (by omega), if_neg (by omega)] at hcode
      exact hends.blank index code (by omega) hcode
    · exact ⟨rfl, fun _ heq => (by cases heq), fun _ heq => (by cases heq), hblanks⟩
    · refine ⟨rfl, fun _ heq => (by cases heq), fun stop hstop => ?_, hblanks⟩
      obtain rfl := Option.some.inj hstop
      have hnone : (trimTerminalLineRight run).length = 0 := by
        rw [writtenEnd] at hsome
        simpa using hsome
      refine ⟨fun index code hindex hcode => ?_, fun hne => ?_⟩
      · rw [hcells] at hcode
        split_ifs at hcode with hbefore hinside
        · rw [← Option.some.inj hcode]
          cases hcell : cells[index]? with
          | none => rfl
          | some cell => exact hends.blank index cell hindex hcell
        · exact hrun.blank _ code (by omega) hcode
        · exact hends.blank index code hindex hcode
      · obtain ⟨code, hcode, hlast⟩ := hends.shown hne
        exact ⟨code, by rw [hcells, if_pos (by omega), hcode, getD_some], hlast⟩

theorem write (column : ℕ) (run : Text) :
    (writeRetainedRow row column run).Holds (overwriteCells cells column run) := by
  obtain rfl := hholds.text
  have htext := writeRetainedRow_text row column run
  rw [writeRetainedRow] at htext ⊢
  split_ifs at htext ⊢ with hsame
  · rw [← htext]
    exact hholds
  · have hrun : run.isEmpty = false := by
      cases run with
      | nil => exact absurd (by simp [sharedUnits]) hsame
      | cons code rest => rfl
    rw [noteWrite_text] at htext
    dsimp only at htext
    rw [htext]
    have hcells := getElem?_overwriteCells hrun row.text column
    exact hholds.noteWrite hcells

theorem keep (count : ℕ) : (if row.text.length ≤ count then row
      else { row with
        text := row.text.take count
        snapshot := none
        blankPrefix := min row.blankPrefix count
        contentEnd := row.contentEnd.filter fun contentEnd =>
          decide (contentEnd ≤ count) }).Holds (cells.take count) := by
  split_ifs with hshort
  · rw [take_of_length_le (hholds.text ▸ hshort)]
    exact hholds
  · refine ⟨congrArg _ hholds.text, fun _ heq => (by cases heq), fun stop hstop => ?_,
      fun index hindex => ?_⟩
    · obtain ⟨hend, hle⟩ := filter_eq_some_iff.mp hstop
      have hle : stop ≤ count := of_decide_eq_true hle
      have hends := hholds.contentEnd stop hend
      refine ⟨fun index code hindex hcode => ?_, fun hne => ?_⟩
      · rw [getElem?_take] at hcode
        split_ifs at hcode
        exact hends.blank index code hindex hcode
      · rw [getElem?_take_of_lt (by omega)]
        exact hends.shown hne
    · dsimp only at hindex
      rw [getElem?_take_of_lt (by omega)]
      exact hholds.blankPrefix index (by omega)

theorem space_of_scanned {count : ℕ} (hscanned : count ≤ row.blankPrefix +
      (((cells.take count).drop row.blankPrefix).takeWhile (· == SPACE)).length) :
    ∀ index < count, cells[index]? = some SPACE := by
  intro index hindex
  rcases Nat.lt_or_ge index row.blankPrefix with hbefore | hafter
  · exact hholds.blankPrefix index hbefore
  · have hinside : index - row.blankPrefix <
        (((cells.take count).drop row.blankPrefix).takeWhile (· == SPACE)).length := by omega
    have hspace := mem_takeWhile_imp (getElem_mem hinside)
    have hcell := ( takeWhile_prefix (l := (cells.take count).drop row.blankPrefix)
      (· == SPACE)).getElem hinside
    have hget := getElem?_eq_getElem (Nat.lt_of_lt_of_le hinside ( takeWhile_prefix _).length_le)
    rw [← hcell, eq_of_beq hspace, getElem?_drop, getElem?_take_of_lt (by omega),
      Nat.add_sub_cancel' hafter] at hget
    exact hget

theorem blankStart {count : ℕ} (hspaces : ∀ index < count, cells[index]? = some SPACE) :
    { row with blankPrefix := max row.blankPrefix count }.Holds cells := by
  refine ⟨hholds.text, hholds.snapshot, hholds.contentEnd, fun index hindex => ?_⟩
  rcases Nat.lt_or_ge index count with hbefore | hafter
  · exact hspaces index hbefore
  · exact hholds.blankPrefix index (by dsimp only at hindex; omega)

theorem blanked (count : ℕ) :
    { row with
      text := List.replicate count SPACE ++ row.text.drop count
      snapshot := none
      blankPrefix := max row.blankPrefix count
      contentEnd := row.contentEnd.map fun contentEnd =>
        if contentEnd ≤ count then 0 else contentEnd }.Holds
      (List.replicate count SPACE ++ cells.drop count) := by
  have hcells := getElem?_blankStart cells count
  refine ⟨by rw [hholds.text], fun _ heq => (by cases heq), fun stop hstop => ?_,
    fun index hindex => ?_⟩
  · obtain ⟨contentEnd, hend, heq⟩ := map_eq_some_iff.mp hstop
    have hends := hholds.contentEnd contentEnd hend
    split_ifs at heq with hcovered <;> subst heq
    · refine ⟨fun index code _ hcode => ?_, fun hne => absurd rfl hne⟩
      rw [hcells] at hcode
      split_ifs at hcode with hbefore
      · rw [← Option.some.inj hcode]
        rfl
      · exact hends.blank index code (by omega) hcode
    · refine ⟨fun index code hindex hcode => ?_, fun hne => ?_⟩
      · rw [hcells, if_neg (by omega)] at hcode
        exact hends.blank index code hindex hcode
      · rw [hcells, if_neg (by omega)]
        exact hends.shown hne
  · dsimp only at hindex
    rw [hcells]
    split_ifs with hbefore
    · rfl
    · exact hholds.blankPrefix index (by omega)

theorem erase (mode column : ℕ) :
    (eraseRetainedRow row mode column).Holds (eraseCells cells mode column) := by
  by_cases hzero : mode = 0
  · subst hzero
    exact hholds.keep column
  by_cases htwo : mode = 2
  · subst htwo
    exact hholds.keep 0
  rw [eraseRetainedRow, eraseCells, if_neg (by omega), if_neg hzero, if_neg htwo]
  by_cases hone : mode = 1
  · obtain rfl := hholds.text
    rw [if_pos hone, if_pos hone]
    dsimp only
    split_ifs with hheld
    · have hspaces := hholds.space_of_scanned hheld
      rw [replicate_append_drop hspaces]
      exact hholds.blankStart hspaces
    · exact hholds.blanked _
  · rw [if_neg hone, if_neg hone]
    exact hholds

theorem apply (call : RowCall) : (row.apply call).Holds (editCells cells call) := by
  cases call with
  | write column run => exact hholds.write column run
  | erase mode column => exact hholds.erase mode column
  | snapshot => exact hholds.snapshot_eq.2

theorem run (calls : List RowCall) :
    (calls.foldl RetainedTerminalRow.apply row).Holds (calls.foldl editCells cells) := by
  induction calls generalizing row cells with
  | nil => exact hholds
  | cons call rest ih => exact ih (hholds.apply call)

end RetainedTerminalRow.Holds

theorem le_length_takeWhile {cells : Text} {count : ℕ}
    (hspaces : ∀ index < count, cells[index]? = some SPACE) :
    count ≤ (cells.takeWhile (· == SPACE)).length := by
  induction count generalizing cells with
  | zero => exact Nat.zero_le _
  | succ count ih =>
    cases cells with
    | nil => exact nomatch hspaces 0 (Nat.zero_lt_succ _)
    | cons cell rest =>
      obtain rfl := Option.some.inj (hspaces 0 (Nat.zero_lt_succ _))
      exact Nat.succ_le_succ (ih fun index hindex =>
        hspaces (index + 1) (Nat.succ_lt_succ hindex))

/-- After every sequence of calls the row holds the text of a plain array edited the same way, a
snapshot is that text without the blanks at its end, and the bounds it remembers are true. -/
theorem retainedRow_remembers (initial : Text) (completed : Bool) (calls : List RowCall) :
    let row := calls.foldl RetainedTerminalRow.apply (retainedRow initial completed)
    let cells := calls.foldl editCells initial
    row.text = cells ∧ (retainedRowSnapshot row).2 = trimTerminalLineRight cells ∧
      (∀ stop, row.contentEnd = some stop → ContentEndsAt cells stop) ∧
      row.blankPrefix ≤ (cells.takeWhile (· == SPACE)).length := by
  have hstart : (retainedRow initial completed).Holds initial :=
    ⟨rfl, fun _ heq => (by cases heq), fun _ heq => (by cases heq),
      fun _ hindex => absurd hindex (Nat.not_lt_zero _)⟩
  have hholds := hstart.run calls
  exact ⟨hholds.text, hholds.snapshot_eq.1, hholds.contentEnd,
    le_length_takeWhile hholds.blankPrefix⟩

end Wakii.Terminal
