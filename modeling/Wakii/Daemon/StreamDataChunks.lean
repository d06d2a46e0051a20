import Wakii.Daemon.StreamDataSplit

/-!
# The chunks the splitters cut

Both splitters only cut where no surrogate pair is torn apart.  So the chunks put
the data together again, their code points are those of the data, and a chunk
that does not fit is one code point that had to be written.
-/

namespace Wakii.StreamDataSplit

open List

open Json (IntegerFormat)

section Results

variable {E A B : Type}

theorem exists_ok_of_map {result : Except E A} {f : A → B} {value : B}
    (hmap : result.map f = .ok value) : ∃ inner, result = .ok inner ∧ f inner = value := by
  cases result with
  | error error => cases hmap
  | ok inner => exact ⟨inner, rfl, Except.ok.inj hmap⟩

theorem exists_ok_of_bind {result : Except E A} {f : A → Except E B} {value : B}
    (hbind : (result >>= f) = .ok value) : ∃ inner, result = .ok inner ∧ f inner = .ok value := by
  cases result with
  | error error => cases hbind
  | ok inner => exact ⟨inner, rfl, hbind⟩

theorem forall₂_of_mem {R P : A → B → Prop} {first : List A} {second : List B}
    (hboth : List.Forall₂ R first second) (himp : ∀ left ∈ first, ∀ right, R left right →
      P left right) : List.Forall₂ P first second := by
  induction hboth with
  | nil => exact .nil
  | cons hhead _ ih =>
    exact .cons (himp _ mem_cons_self _ hhead)
      (ih fun left hleft => himp left (mem_cons_of_mem _ hleft))

end Results

section Cuts

variable {data : Text} {start stop : ℕ}

def Apart (data : Text) (index : ℕ) : Prop :=
  ∀ before, before + 1 = index → isPairAt data before = false

theorem apart_zero (data : Text) : Apart data 0 :=
  fun _ hindex => absurd hindex (Nat.succ_ne_zero _)

theorem apart_length (data : Text) : Apart data data.length := by
  intro before hbefore
  simp [isPairAt, hbefore]

theorem isPairAt_succ {index : ℕ} (hpair : isPairAt data index = true) :
    isPairAt data (index + 1) = false := by
  simp only [isPairAt, Bool.and_eq_true, Option.any_eq_true] at hpair
  obtain ⟨-, low, hlow, hislow⟩ := hpair
  have hhigh : Text.isHigh low.val = false := by
    simp only [Text.isLow, Text.isHigh, Bool.and_eq_true, decide_eq_true_eq,
      Bool.and_eq_false_iff, decide_eq_false_iff_not] at hislow ⊢
    omega
  simp [isPairAt, hlow, hhigh]

theorem apart_clamp (hstop : stop ≤ data.length)
    (hcut : start < clampToSafeSplitIndex data start stop) :
    Apart data (clampToSafeSplitIndex data start stop) := by
  rw [clampToSafeSplitIndex] at hcut ⊢
  split_ifs at hcut ⊢ with hedge hpair
  · have hend : stop = data.length := by omega
    rw [hend]
    exact apart_length data
  · intro before hbefore
    by_contra hother
    rw [Bool.not_eq_false] at hother
    have hnext := isPairAt_succ hother
    rw [hbefore, hpair] at hnext
    cases hnext
  · intro before hbefore
    have hsame : before = stop - 1 := by omega
    rw [hsame]
    simpa using hpair

theorem nextSafeSplitIndex_spec (hstart : start < data.length) :
    nextSafeSplitIndex data start ≤ data.length ∧ Apart data (nextSafeSplitIndex data start) ∧
      (Text.codePoints (slice data start (nextSafeSplitIndex data start))).length = 1 := by
  have hmin : min data.length (start + 1) = start + 1 := by omega
  have hdrop : data.drop start = data[start] :: data.drop (start + 1) := drop_eq_getElem_cons hstart
  rw [nextSafeSplitIndex, hmin]
  split_ifs with hpair
  · obtain ⟨hnext, hpair⟩ := hpair
    have hafter : data.drop (start + 1) = data[start + 1] :: data.drop (start + 2) :=
      drop_eq_getElem_cons hnext
    refine ⟨hnext, ?_, ?_⟩
    · intro before hbefore
      have hsame : before = start + 1 := by omega
      rw [hsame]
      exact isPairAt_succ hpair
    · have htaken : slice data start (start + 1 + 1) = [data[start], data[start + 1]] := by
        rw [slice, drop_take, hdrop, hafter]
        have hwidth : start + 1 + 1 - start = 2 := by omega
        rw [hwidth]
        rfl
      have hboth : (Text.isHigh data[start].val && Text.isLow data[start + 1].val) = true := by
        simpa [isPairAt, hstart, hnext] using hpair
      rw [htaken, Text.codePoints, if_pos hboth]
      rfl
  · refine ⟨hstart, ?_, ?_⟩
    · intro before hbefore
      have hsame : before = start := by omega
      rw [hsame]
      by_cases hnext : start + 1 < data.length
      · simpa [hnext] using hpair
      · have hend : data.length ≤ start + 1 := by omega
        simp [isPairAt, hend]
    · have htaken : slice data start (start + 1) = [data[start]] := by
        rw [slice, drop_take, hdrop]
        have hwidth : start + 1 - start = 1 := by omega
        rw [hwidth]
        rfl
      rw [htaken]
      rfl

theorem slice_append_drop (hle : start ≤ stop) :
    slice data start stop ++ data.drop stop = data.drop start := by
  have hdrop : (data.drop start).drop (stop - start) = data.drop stop := by
    rw [drop_drop]
    congr 1
    omega
  rw [slice, drop_take, ← hdrop]
  exact take_append_drop (stop - start) (data.drop start)

theorem slice_append_slice {between : ℕ} (hle : start ≤ between) (hstop : between ≤ stop) :
    slice data start between ++ slice data between stop = slice data start stop := by
  have htake : (data.take stop).take between = data.take between := by
    rw [take_take, Nat.min_eq_left hstop]
  have happend := @slice_append_drop (data.take stop) start between hle
  rwa [slice, htake] at happend

theorem length_slice (hstop : stop ≤ data.length) :
    (slice data start stop).length = stop - start := by
  rw [slice, length_drop, length_take, Nat.min_eq_left hstop]

theorem codePoints_slice (hle : start ≤ stop) (hstop : stop ≤ data.length)
    (hapart : Apart data stop) : Text.codePoints (data.drop start) =
      Text.codePoints (slice data start stop) ++ Text.codePoints (data.drop stop) := by
  rw [← slice_append_drop hle]
  refine Text.codePoints_append_of_apart fun high hhigh low hlow => ?_
  have hnonempty : start < stop := by
    by_contra hempty
    have hnil : slice data start stop = [] := by
      rw [← length_eq_zero_iff, length_slice hstop]
      omega
    rw [hnil] at hhigh
    cases hhigh
  have hhead : data[stop]? = some low := by
    rwa [head?_drop] at hlow
  have hlast : data[stop - 1]? = some high := by
    have hindex : (slice data start stop)[stop - start - 1]? = some high := by
      rw [getLast?_eq_getElem?, length_slice hstop] at hhigh
      exact hhigh
    rw [slice, getElem?_drop, getElem?_take] at hindex
    have hsame : start + (stop - start - 1) = stop - 1 := by omega
    rw [hsame, if_pos (by omega)] at hindex
    exact hindex
  have hpair := hapart (stop - 1) (by omega)
  have hsame : stop - 1 + 1 = stop := by omega
  simpa [isPairAt, hlast, hsame, hhead] using hpair

end Cuts

section Chunks

/-- The chunks cut off the data from an index on. -/
inductive ChunkedFrom (data : Text) (fits : Text → Prop) : ℕ → List Text → Prop
  | done {start : ℕ} (hend : data.length ≤ start) : ChunkedFrom data fits start []
  | chunk {start stop : ℕ} {later : List Text} (hlt : start < stop ∨ data = [])
      (hle : start ≤ stop) (hstop : stop ≤ data.length) (hapart : Apart data stop)
      (hfits : fits (slice data start stop) ∨ (Text.codePoints (slice data start stop)).length = 1)
      (hlater : ChunkedFrom data fits stop later) :
      ChunkedFrom data fits start (slice data start stop :: later)

structure Chunks (data : Text) (fits : Text → Prop) (chunks : List Text) : Prop where
  flatten : chunks.flatten = data
  cuts : ∀ before after, chunks = before ++ after →
    Text.codePoints data = Text.codePoints before.flatten ++ Text.codePoints after.flatten
  fits : ∀ chunk ∈ chunks, fits chunk ∨ (Text.codePoints chunk).length = 1

variable {data : Text} {fits : Text → Prop} {start : ℕ} {chunks : List Text}

section

variable (hchunks : ChunkedFrom data fits start chunks)
include hchunks

theorem ChunkedFrom.flatten : chunks.flatten = data.drop start := by
  induction hchunks with
  | done hend => exact (drop_eq_nil_of_le hend).symm
  | chunk hlt hle hstop hapart hfits hlater ih =>
    rw [flatten_cons, ih, slice_append_drop hle]

theorem ChunkedFrom.position (hstart : start ≤ data.length) (hapart : Apart data start)
    {before after : List Text} (hsplit : chunks = before ++ after) :
    ∃ stop, start ≤ stop ∧ stop ≤ data.length ∧ Apart data stop ∧
      before.flatten = slice data start stop ∧ after.flatten = data.drop stop := by
  induction hchunks generalizing before with
  | @done start hend =>
    obtain ⟨rfl, rfl⟩ := append_eq_nil_iff.mp hsplit.symm
    refine ⟨start, Nat.le_refl start, hstart, hapart, ?_, ?_⟩
    · rw [slice, drop_take, Nat.sub_self]
      rfl
    · exact (drop_eq_nil_of_le hend).symm
  | @chunk start stop later hlt hle hstop hcut hfits hlater ih =>
    cases before with
    | nil =>
      rw [nil_append] at hsplit
      refine ⟨start, Nat.le_refl start, hstart, hapart, ?_, ?_⟩
      · rw [slice, drop_take, Nat.sub_self]
        rfl
      · rw [← hsplit]
        exact (ChunkedFrom.chunk hlt hle hstop hcut hfits hlater).flatten
    | cons first before =>
      obtain ⟨rfl, hrest⟩ := cons_eq_cons.mp hsplit
      obtain ⟨position, hafter, hin, hposition, hbefore, hrest⟩ := ih hstop hcut hrest
      refine ⟨position, Nat.le_trans hle hafter, hin, hposition, ?_, hrest⟩
      rw [flatten_cons, hbefore, slice_append_slice hle hafter]

theorem ChunkedFrom.each : ∀ chunk ∈ chunks, fits chunk ∨ (Text.codePoints chunk).length = 1 := by
  induction hchunks with
  | done hend => exact fun _ hchunk => absurd hchunk not_mem_nil
  | chunk hlt hle hstop hcut hfits hlater ih => exact forall_mem_cons.mpr ⟨hfits, ih⟩

end

theorem ChunkedFrom.toChunks (hchunks : ChunkedFrom data fits 0 chunks) :
    Chunks data fits chunks where
  flatten := hchunks.flatten
  cuts before after hsplit := by
    obtain ⟨stop, hle, hstop, hapart, hbefore, hafter⟩ :=
      hchunks.position (Nat.zero_le _) (apart_zero data) hsplit
    rw [hbefore, hafter, ← codePoints_slice hle hstop hapart]
    rfl
  fits := hchunks.each

theorem ChunkedFrom.wellFormed (hchunks : ChunkedFrom data fits start chunks)
    (hwell : Text.isWellFormed (data.drop start)) : ∀ chunk ∈ chunks, Text.isWellFormed chunk := by
  induction hchunks with
  | done hend => exact fun _ hchunk => absurd hchunk not_mem_nil
  | chunk hlt hle hstop hapart hfits hlater ih =>
    rw [Text.isWellFormed, codePoints_slice hle hstop hapart, all_append, Bool.and_eq_true] at hwell
    exact forall_mem_cons.mpr ⟨hwell.1, ih hwell.2⟩

theorem chunkedFrom_whole (hfits : fits data) : ChunkedFrom data fits 0 [data] := by
  have hslice : slice data 0 data.length = data := by
    rw [slice, take_length, drop_zero]
  have hlt : 0 < data.length ∨ data = [] := by
    rw [← length_eq_zero_iff]
    omega
  have hwhole : ChunkedFrom data fits 0 [slice data 0 data.length] :=
    .chunk hlt (Nat.zero_le _) (Nat.le_refl _) (apart_length data) (Or.inl (hslice.symm ▸ hfits))
      (.done (Nat.le_refl _))
  rwa [hslice] at hwhole

end Chunks

section Splitting

variable {N : Type} [IntCast N] {format : IntegerFormat N} {sessionId data : Text}
variable {maxLineBytes : ℕ} {sequenceChars : Option ℕ}

/-- Measured with the sequence numbers given, the line of the text fits. -/
def LineFits (format : IntegerFormat N) (sessionId : Text) (maxLineBytes : ℕ)
    (sequenceChars : Option ℕ) (text : Text) : Prop :=
  ∃ lineBytes, streamDataEventLineBytes format sessionId text sequenceChars = .ok lineBytes ∧
    lineBytes ≤ maxLineBytes

theorem searchCut_spec {start low high best cut : ℕ} (hhigh : high ≤ data.length)
    (hsearch : searchCut format sessionId data maxLineBytes sequenceChars start low high best =
      .ok cut) :
    cut = best ∨ (start < cut ∧ cut ≤ data.length ∧ Apart data cut ∧
      LineFits format sessionId maxLineBytes sequenceChars (slice data start cut)) := by
  fun_induction searchCut format sessionId data maxLineBytes sequenceChars start low high best with
  | case1 low high best hle rawMid mid hmid ih => exact ih hhigh hsearch
  | case2 low high best hle rawMid mid hmid error hline => cases hsearch
  | case3 low high best hle rawMid mid hmid lineBytes hline hfits ih =>
    have hinside : rawMid ≤ data.length := by omega
    have hclamp := clampToSafeSplitIndex_le data start rawMid
    rcases ih hhigh hsearch with hsame | hcut
    · rw [hsame]
      exact Or.inr ⟨Nat.lt_of_not_le hmid, Nat.le_trans hclamp hinside,
        apart_clamp hinside (Nat.lt_of_not_le hmid), lineBytes, hline, hfits⟩
    · exact Or.inr hcut
  | case4 low high best hle rawMid mid hmid lineBytes hline hfits ih =>
    exact ih (by omega) hsearch
  | case5 low high best hle => exact Or.inl (Except.ok.inj hsearch).symm

theorem splitOversizedFrom_spec {start : ℕ} {chunks : List Text}
    (hsplit : splitOversizedFrom format sessionId data maxLineBytes sequenceChars start =
      .ok chunks) :
    ChunkedFrom data (LineFits format sessionId maxLineBytes sequenceChars) start chunks ∧
      (chunks = [] → data.length ≤ start) := by
  fun_induction splitOversizedFrom format sessionId data maxLineBytes sequenceChars start
    generalizing chunks with
  | case1 start hstart error hsearch => cases hsplit
  | case2 start hstart best hsearch stop =>
    rename_i ih
    obtain ⟨later, hlater, hchunks⟩ := exists_ok_of_map hsplit
    obtain ⟨hfrom, -⟩ := ih hlater
    subst hchunks
    refine ⟨?_, fun hnil => absurd hnil (cons_ne_nil _ _)⟩
    by_cases hbest : start < best
    · have hstop : stop = best := dif_pos hbest
      rw [hstop] at hfrom ⊢
      rcases searchCut_spec (Nat.le_refl _) hsearch with hnone | ⟨-, hin, hapart, hfits⟩
      · omega
      · exact .chunk (Or.inl hbest) hbest.le hin hapart (Or.inl hfits) hfrom
    · have hstop : stop = nextSafeSplitIndex data start := dif_neg hbest
      rw [hstop] at hfrom ⊢
      obtain ⟨hin, hapart, hpoints⟩ := nextSafeSplitIndex_spec hstart
      have hlt := lt_nextSafeSplitIndex data hstart
      exact .chunk (Or.inl hlt) hlt.le hin hapart (Or.inr hpoints) hfrom
  | case3 start hend =>
    cases hsplit
    exact ⟨.done (Nat.le_of_not_lt hend), fun _ => Nat.le_of_not_lt hend⟩

theorem splitStreamDataForNdjson_spec {chunks : List Text}
    (hsplit : splitStreamDataForNdjson format sessionId data maxLineBytes sequenceChars =
      .ok chunks) :
    ChunkedFrom data (LineFits format sessionId maxLineBytes sequenceChars) 0 chunks ∧
      (chunks = [] → data = [] ∧ ¬ LineFits format sessionId maxLineBytes sequenceChars data) := by
  rw [splitStreamDataForNdjson] at hsplit
  split at hsplit
  next error hline => cases hsplit
  next lineBytes hline =>
    split_ifs at hsplit with hfits
    · cases hsplit
      exact ⟨chunkedFrom_whole ⟨lineBytes, hline, hfits⟩, fun hnil => by cases hnil⟩
    · obtain ⟨hfrom, hempty⟩ := splitOversizedFrom_spec hsplit
      refine ⟨hfrom, fun hnil => ⟨length_eq_zero_iff.mp (Nat.le_zero.mp (hempty hnil)), ?_⟩⟩
      rintro ⟨bytes, hbytes, hle⟩
      rw [hline] at hbytes
      exact hfits (Except.ok.inj hbytes ▸ hle)

/-- The line of every piece of the data between two cuts can be measured. -/
def Measurable (format : IntegerFormat N) (sessionId data : Text) (sequenceChars : Option ℕ) :
    Prop :=
  ∀ start stop, start ≤ stop → stop ≤ data.length → Apart data start → Apart data stop →
    ∃ lineBytes, streamDataEventLineBytes format sessionId (slice data start stop) sequenceChars =
      .ok lineBytes

section

variable (hlines : Measurable format sessionId data sequenceChars)
include hlines

theorem searchCut_ok {start : ℕ}
    (hstart : Apart data start) {low high : ℕ} (best : ℕ) (hhigh : high ≤ data.length) :
    ∃ cut, searchCut format sessionId data maxLineBytes sequenceChars start low high best =
      .ok cut := by
  fun_induction searchCut format sessionId data maxLineBytes sequenceChars start low high best with
  | case1 low high best hle rawMid mid hmid ih => exact ih hhigh
  | case2 low high best hle rawMid mid hmid error hline =>
    have hinside : rawMid ≤ data.length := by omega
    have hclamp := clampToSafeSplitIndex_le data start rawMid
    obtain ⟨lineBytes, hbytes⟩ := hlines start mid (Nat.le_of_not_le hmid)
      (Nat.le_trans hclamp hinside) hstart (apart_clamp hinside (Nat.lt_of_not_le hmid))
    rw [hline] at hbytes
    cases hbytes
  | case3 low high best hle rawMid mid hmid lineBytes hline hfits ih => exact ih hhigh
  | case4 low high best hle rawMid mid hmid lineBytes hline hfits ih => exact ih (by omega)
  | case5 low high best hle => exact ⟨best, rfl⟩

theorem splitOversizedFrom_ok {start : ℕ} (hapart : Apart data start) :
    ∃ chunks, splitOversizedFrom format sessionId data maxLineBytes sequenceChars start =
      .ok chunks := by
  fun_induction splitOversizedFrom format sessionId data maxLineBytes sequenceChars start with
  | case1 start hstart error hsearch =>
    have hfound : ∃ cut, searchCut format sessionId data maxLineBytes sequenceChars start
        (start + 1) data.length start = .ok cut :=
      searchCut_ok hlines hapart start (Nat.le_refl data.length)
    obtain ⟨cut, hcut⟩ := hfound
    rw [hsearch] at hcut
    cases hcut
  | case2 start hstart best hsearch stop =>
    rename_i ih
    have hstop : Apart data stop := by
      by_cases hbest : start < best
      · have hsame : stop = best := dif_pos hbest
        rw [hsame]
        rcases searchCut_spec (Nat.le_refl _) hsearch with hnone | ⟨-, -, hcut, -⟩
        · omega
        · exact hcut
      · have hsame : stop = nextSafeSplitIndex data start := dif_neg hbest
        rw [hsame]
        exact (nextSafeSplitIndex_spec hstart).2.1
    obtain ⟨later, hlater⟩ := ih hstop
    rw [hlater]
    exact ⟨_, rfl⟩
  | case3 start hend => exact ⟨[], rfl⟩

theorem splitStreamDataForNdjson_ok :
    ∃ chunks, splitStreamDataForNdjson format sessionId data maxLineBytes sequenceChars =
      .ok chunks := by
  obtain ⟨lineBytes, hline⟩ := hlines 0 data.length (Nat.zero_le _) (Nat.le_refl _)
    (apart_zero data) (apart_length data)
  have hslice : slice data 0 data.length = data := by
    rw [slice, take_length, drop_zero]
  rw [hslice] at hline
  rw [splitStreamDataForNdjson, hline]
  dsimp only
  split_ifs
  · exact ⟨[data], rfl⟩
  · exact splitOversizedFrom_ok hlines (apart_zero data)

end

end Splitting

end Wakii.StreamDataSplit
