import Wakii.Library.JsonBytes

/-!
# The JSON size of terminal output

A stream's budget counts the JSON of a chunk unit by unit, without writing it.  The count is
the length that the encoder gives.
-/

namespace Wakii.Terminal.StreamJson

/-- The controls with an escape of two characters. -/
def SHORT_ESCAPED_CONTROLS : List ℕ := [0x08, 0x09, 0x0A, 0x0C, 0x0D]

def TWO_CHARACTER_ESCAPE_BYTES : ℕ := 2
def UNICODE_ESCAPE_BYTES : ℕ := 6
def QUOTE_BYTES : ℕ := 2

def escapedBytes : Text → ℕ
  | [] => 0
  | unit :: rest =>
    if unit.val = 0x22 ∨ unit.val = 0x5C then TWO_CHARACTER_ESCAPE_BYTES + escapedBytes rest
    else if unit.val < 0x20 then
      (if unit.val ∈ SHORT_ESCAPED_CONTROLS then TWO_CHARACTER_ESCAPE_BYTES
        else UNICODE_ESCAPE_BYTES) + escapedBytes rest
    else if unit.val < 0x80 then 1 + escapedBytes rest
    else if unit.val < 0x800 then 2 + escapedBytes rest
    else if Text.isHigh unit.val then
      match rest with
      | [] => UNICODE_ESCAPE_BYTES
      | next :: after =>
        if Text.isLow next.val then 4 + escapedBytes after
        else UNICODE_ESCAPE_BYTES + escapedBytes (next :: after)
    else if Text.isLow unit.val then UNICODE_ESCAPE_BYTES + escapedBytes rest
    else 3 + escapedBytes rest

def terminalStreamJsonByteLength (data : Text) : ℕ := QUOTE_BYTES + escapedBytes data

def pointBytes (point : ℕ) : ℕ :=
  if point = 0x22 ∨ point = 0x5C then 2
  else if point < 0x20 then if point ∈ SHORT_ESCAPED_CONTROLS then 2 else 6
  else if point < 0x80 then 1
  else if point < 0x800 then 2
  else if Text.isSurrogate point then 6
  else if point < 0x10000 then 3
  else 4

theorem byteLength_quotePoint {point : ℕ} (hbound : point < 0x110000) :
    Text.byteLength (Json.quotePoint point) = pointBytes point := by
  rcases Nat.lt_or_ge point 0x80 with hascii | hwide
  · have hall : ∀ point < 0x80, Text.byteLength (Json.quotePoint point) = pointBytes point := by
      decide +kernel
    exact hall point hascii
  · have hquoted : Json.quotePoint point =
        if Text.isSurrogate point then Json.unicodeEscape point else Text.unitsOf point := by
      have hcontrol : decide (point < 0x20) = false := decide_eq_false (by omega)
      rw [Json.quotePoint, if_neg (by omega), if_neg (by omega), if_neg (by omega),
        if_neg (by omega), if_neg (by omega), if_neg (by omega), if_neg (by omega), hcontrol,
        Bool.false_or]
    have hcost : pointBytes point = if point < 0x800 then 2
        else if Text.isSurrogate point then 6 else if point < 0x10000 then 3 else 4 := by
      rw [pointBytes, if_neg (by omega), if_neg (by omega), if_neg (by omega)]
    rw [hquoted, hcost]
    cases hsurrogate : Text.isSurrogate point with
    | true =>
      simp only [Text.isSurrogate, Bool.and_eq_true, decide_eq_true_eq] at hsurrogate
      rw [if_pos rfl, if_neg (by omega), if_pos rfl, Json.byteLength_unicodeEscape]
    | false =>
      rw [if_neg Bool.false_ne_true, Json.byteLength_unitsOf hbound, Text.encodePoint,
        if_neg (by omega), hsurrogate, if_neg Bool.false_ne_true, if_neg Bool.false_ne_true]
      split_ifs <;> rfl

theorem escapedBytes_cons {unit : CodeUnit} {rest : Text}
    (hapart : ∀ next ∈ rest.head?, (Text.isHigh unit.val && Text.isLow next.val) = false) :
    escapedBytes (unit :: rest) = pointBytes unit.val + escapedBytes rest := by
  have hsurrogate : Text.isSurrogate unit.val = (Text.isHigh unit.val || Text.isLow unit.val) := by
    rw [Bool.eq_iff_iff]
    simp only [Text.isSurrogate, Text.isHigh, Text.isLow, Bool.or_eq_true, Bool.and_eq_true,
      decide_eq_true_eq]
    omega
  have hunit := unit.isLt
  rw [escapedBytes.eq_def, pointBytes, hsurrogate]
  dsimp only
  split_ifs with hmark hlow hshort hascii htwo hhigh hany hlone hthree
  all_goals try rfl
  · cases rest with
    | nil => rfl
    | cons next after =>
      have hnext := hapart next rfl
      rw [hhigh, Bool.true_and] at hnext
      dsimp only
      rw [hnext]
      rfl
  all_goals simp_all

/-- The units of a text count as its quoted code points. -/
theorem escapedBytes_eq (data : Text) : escapedBytes data =
    ((Text.codePoints data).map fun point => Text.byteLength (Json.quotePoint point)).sum := by
  fun_induction Text.codePoints data with
  | case1 => rfl
  | case2 unit =>
    have hunit := unit.isLt
    rw [escapedBytes_cons (by simp), List.map_singleton, List.sum_singleton,
      byteLength_quotePoint (by omega)]
    rfl
  | case3 high low rest hpair ih =>
    rw [Bool.and_eq_true] at hpair
    have hranges := hpair
    simp only [Text.isHigh, Text.isLow, Bool.and_eq_true, decide_eq_true_eq] at hranges
    have hcount : escapedBytes (high :: low :: rest) = 4 + escapedBytes rest := by
      rw [escapedBytes.eq_def]
      dsimp only
      rw [if_neg (by omega), if_neg (by omega), if_neg (by omega), if_neg (by omega),
        if_pos hpair.1, if_pos hpair.2]
    rw [hcount, ih, List.map_cons, List.sum_cons, byteLength_quotePoint (by omega), pointBytes]
    rw [if_neg (by omega), if_neg (by omega), if_neg (by omega), if_neg (by omega), if_neg,
      if_neg (by omega)]
    simp only [Text.isSurrogate, Bool.and_eq_true, decide_eq_true_eq]
    omega
  | case4 high low rest hpair ih =>
    have hhigh := high.isLt
    rw [escapedBytes_cons fun next hnext => ?_, ih, List.map_cons, List.sum_cons,
      byteLength_quotePoint (by omega)]
    rw [← Option.some.inj hnext]
    exact Bool.eq_false_iff.mpr hpair

/-- A budget counts every text as `JSON.stringify` writes it in UTF-8. -/
theorem terminalStreamJsonByteLength_eq {N : Type} (format : Json.NumberFormat N) (data : Text) :
    terminalStreamJsonByteLength data = Text.byteLength (Json.stringify format (.string data)) := by
  rw [terminalStreamJsonByteLength, escapedBytes_eq, Json.stringify, Json.byteLength_quote]
  rfl

end Wakii.Terminal.StreamJson
