import Mathlib.Data.List.Basic
import Mathlib.Data.Fin.Basic
import Mathlib.Algebra.Order.Ring.Nat

/-!
# Text as UTF-16 code units, and its UTF-8 bytes

A text is any sequence of 16-bit units, so it may hold a surrogate without its
partner.  The encoder writes U+FFFD for such a unit; the decoder replaces each
maximal ill-formed run of bytes by one U+FFFD.  On well-formed text decoding
undoes encoding.
-/

abbrev Byte := Fin 256
abbrev CodeUnit := Fin 65536
abbrev Text := List CodeUnit

instance neZero_byte : NeZero 256 := ⟨by decide⟩
instance neZero_codeUnit : NeZero 65536 := ⟨by decide⟩
instance lawfulBEq_codeUnit : LawfulBEq CodeUnit := inferInstance
instance lawfulBEq_text : LawfulBEq Text := inferInstance
instance lawfulBEq_optionText : LawfulBEq (Option Text) := inferInstance

namespace Text

open Bool List

def isHigh (point : ℕ) : Bool := 0xD800 ≤ point && point < 0xDC00
def isLow (point : ℕ) : Bool := 0xDC00 ≤ point && point < 0xE000
def isSurrogate (point : ℕ) : Bool := 0xD800 ≤ point && point < 0xE000

/-- The code points of a text; a lone surrogate stands for itself. -/
@[simp] def codePoints : Text → List ℕ
  | [] => []
  | [unit] => [unit.val]
  | high :: low :: rest =>
    if isHigh high.val && isLow low.val then
      (0x10000 + (high.val - 0xD800) * 0x400 + (low.val - 0xDC00)) :: codePoints rest
    else high.val :: codePoints (low :: rest)

def unitsOf (point : ℕ) : Text :=
  if point < 0x10000 then [Fin.ofNat 65536 point]
  else
    [Fin.ofNat 65536 (0xD800 + (point - 0x10000) / 0x400),
      Fin.ofNat 65536 (0xDC00 + (point - 0x10000) % 0x400)]

def ofString (value : String) : Text :=
  value.toList.flatMap fun character => unitsOf character.toNat

/-- The string of a well-formed text. -/
def asString (text : Text) : String := String.ofList ((codePoints text).map Char.ofNat)

/-- The white space `trim` removes and `parseInt` skips. -/
def isSpace (unit : CodeUnit) : Bool :=
  (9 ≤ unit.val && unit.val ≤ 13) || (0x2000 ≤ unit.val && unit.val ≤ 0x200A) ||
    [0x20, 0xA0, 0x1680, 0x2028, 0x2029, 0x202F, 0x205F, 0x3000, 0xFEFF].contains unit.val

def trim (text : Text) : Text :=
  ((text.dropWhile isSpace).reverse.dropWhile isSpace).reverse

def isWellFormed (text : Text) : Bool :=
  (codePoints text).all fun point => !isSurrogate point

theorem unitsOf_val (unit : CodeUnit) : unitsOf unit.val = [unit] := by
  have hunit := unit.isLt
  rw [unitsOf, if_pos (by omega)]
  simp

theorem unitsOf_pair {high low : CodeUnit} (hhigh : isHigh high.val) (hlow : isLow low.val) :
    unitsOf (0x10000 + (high.val - 0xD800) * 0x400 + (low.val - 0xDC00)) = [high, low] := by
  simp only [isHigh, isLow, and_eq_true, decide_eq_true_eq] at hhigh hlow
  have hfirst : 0xD800 + (0x10000 + (high.val - 0xD800) * 0x400 + (low.val - 0xDC00) -
      0x10000) / 0x400 = high.val := by omega
  have hsecond : 0xDC00 + (0x10000 + (high.val - 0xD800) * 0x400 + (low.val - 0xDC00) -
      0x10000) % 0x400 = low.val := by omega
  rw [unitsOf, if_neg (by omega), hfirst, hsecond]
  simp

theorem flatMap_unitsOf_codePoints (text : Text) : (codePoints text).flatMap unitsOf = text := by
  fun_induction codePoints text with
  | case1 => rfl
  | case2 unit => simp [unitsOf_val]
  | case3 high low rest hpair ih =>
    rw [and_eq_true] at hpair
    rw [flatMap_cons, ih, unitsOf_pair hpair.1 hpair.2]
    rfl
  | case4 high low rest hpair ih =>
    rw [flatMap_cons, ih, unitsOf_val]
    rfl

theorem codePoints_lt {text : Text} {point : ℕ} (hpoint : point ∈ codePoints text) :
    point < 0x110000 := by
  fun_induction codePoints text with
  | case1 => simp at hpoint
  | case2 unit =>
    have hunit := unit.isLt
    simp only [mem_singleton] at hpoint
    omega
  | case3 high low rest hpair ih =>
    simp only [isHigh, isLow, and_eq_true, decide_eq_true_eq] at hpair
    rcases mem_cons.mp hpoint with hhere | hrest
    · omega
    · exact ih hrest
  | case4 high low rest hpair ih =>
    have hhigh := high.isLt
    rcases mem_cons.mp hpoint with hhere | hrest
    · omega
    · exact ih hrest

theorem codePoints_append {text : Text} (hwell : isWellFormed text) (rest : Text) :
    codePoints (text ++ rest) = codePoints text ++ codePoints rest := by
  fun_induction codePoints text with
  | case1 => rfl
  | case2 unit =>
    have hunit : isHigh unit.val = false := by
      simp only [isWellFormed, codePoints, all_cons, all_nil, isSurrogate,
        Bool.and_true, not_eq_true', and_eq_false_iff, decide_eq_false_iff_not]
        at hwell
      simp only [isHigh, and_eq_false_iff, decide_eq_false_iff_not]
      omega
    cases rest with
    | nil => rfl
    | cons next tail => simp [codePoints, hunit]
  | case3 high low tail hpair ih =>
    simp only [isWellFormed, codePoints, hpair, if_true, all_cons, and_eq_true] at hwell
    simp only [cons_append, codePoints, hpair, if_true, ih hwell.2]
  | case4 high low tail hpair ih =>
    simp only [isWellFormed, codePoints, hpair, if_false, all_cons, and_eq_true,
      false_eq_true] at hwell
    have hrest := ih hwell.2
    rw [cons_append] at hrest
    simp only [cons_append, codePoints, hpair, hrest, false_eq_true, if_false]

theorem isWellFormed_append {text : Text} (hwell : isWellFormed text) (rest : Text) :
    isWellFormed (text ++ rest) = isWellFormed rest := by
  rw [isWellFormed, codePoints_append hwell, all_append]
  rw [isWellFormed] at hwell
  rw [hwell, Bool.true_and]
  rfl

theorem isWellFormed_of_append {first second : Text} (hfirst : isWellFormed first)
    (hsecond : isWellFormed second) : isWellFormed (first ++ second) := by
  rw [isWellFormed_append hfirst]
  exact hsecond

theorem isWellFormed_unit {unit : CodeUnit} (hunit : isSurrogate unit.val = false) :
    isWellFormed [unit] := by
  simp [isWellFormed, codePoints, hunit]

theorem isWellFormed_units {text : Text} (hunits : ∀ unit ∈ text, isSurrogate unit.val = false) :
    isWellFormed text := by
  induction text with
  | nil => rfl
  | cons unit rest ih =>
    exact isWellFormed_of_append (isWellFormed_unit (hunits unit mem_cons_self))
      (ih fun other hother => hunits other (mem_cons_of_mem _ hother))

theorem isWellFormed_flatMap {A : Type*} {parts : List A} {write : A → Text}
    (hparts : ∀ part ∈ parts, isWellFormed (write part)) : isWellFormed (parts.flatMap write) := by
  induction parts with
  | nil => rfl
  | cons part rest ih =>
    exact isWellFormed_of_append (hparts part mem_cons_self)
      (ih fun other hother => hparts other (mem_cons_of_mem _ hother))

theorem codePoints_unitsOf {point : ℕ} (hbound : point < 0x110000) :
    codePoints (unitsOf point) = [point] := by
  rw [unitsOf]
  split
  next hsmall =>
    have hval : (Fin.ofNat 65536 point).val = point := Nat.mod_eq_of_lt hsmall
    rw [codePoints, hval]
  next hlarge =>
    have hhigh : (Fin.ofNat 65536 (0xD800 + (point - 0x10000) / 0x400)).val =
        0xD800 + (point - 0x10000) / 0x400 := Nat.mod_eq_of_lt (by omega)
    have hlow : (Fin.ofNat 65536 (0xDC00 + (point - 0x10000) % 0x400)).val =
        0xDC00 + (point - 0x10000) % 0x400 := Nat.mod_eq_of_lt (by omega)
    have hpair : (isHigh (0xD800 + (point - 0x10000) / 0x400) &&
        isLow (0xDC00 + (point - 0x10000) % 0x400)) = true := by
      simp only [isHigh, isLow, and_eq_true, decide_eq_true_eq]
      omega
    have hpoint : 0x10000 + (0xD800 + (point - 0x10000) / 0x400 - 0xD800) * 0x400 +
        (0xDC00 + (point - 0x10000) % 0x400 - 0xDC00) = point := by
      omega
    rw [codePoints, hhigh, hlow, if_pos hpair, hpoint]
    rfl

theorem isWellFormed_unitsOf {point : ℕ} (hbound : point < 0x110000)
    (hscalar : isSurrogate point = false) : isWellFormed (unitsOf point) := by
  rw [isWellFormed, codePoints_unitsOf hbound]
  simp [hscalar]

/-- Two texts meet between code points where no pair is torn apart. -/
theorem codePoints_append_of_apart {text rest : Text}
    (hapart : ∀ high ∈ text.getLast?, ∀ low ∈ rest.head?,
      (isHigh high.val && isLow low.val) = false) :
    codePoints (text ++ rest) = codePoints text ++ codePoints rest := by
  fun_induction codePoints text with
  | case1 => rfl
  | case2 unit =>
    cases rest with
    | nil => rfl
    | cons next tail =>
      have hunit := hapart unit rfl next rfl
      simp [codePoints, hunit]
  | case3 high low tail hpair ih =>
    have hnext : codePoints (tail ++ rest) = codePoints tail ++ codePoints rest := by
      refine ih fun last hlast => hapart last ?_
      rw [getLast?_cons_cons, getLast?_cons, hlast]
      rfl
    simp only [cons_append, codePoints, hpair, if_true, hnext]
  | case4 high low tail hpair ih =>
    have hnext : codePoints (low :: tail ++ rest) = codePoints (low :: tail) ++ codePoints rest :=
      ih fun last hlast => hapart last (by rwa [getLast?_cons_cons])
    rw [cons_append] at hnext
    simp only [cons_append, codePoints, hpair, hnext, false_eq_true, if_false]

end Text
