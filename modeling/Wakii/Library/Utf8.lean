import Wakii.Library.Utf16

/-!
# UTF-8

The encoder of a code point, and a decoder that reads one byte at a time and
writes U+FFFD for every maximal run of bytes that starts no character.
-/

namespace Text

open List

def replacementPoint : ℕ := 0xFFFD

def encodePoint (point : ℕ) : List Byte :=
  if point < 0x80 then [Fin.ofNat 256 point]
  else if point < 0x800 then
    [Fin.ofNat 256 (0xC0 + point / 0x40), Fin.ofNat 256 (0x80 + point % 0x40)]
  else if isSurrogate point then [0xEF, 0xBF, 0xBD]
  else if point < 0x10000 then
    [Fin.ofNat 256 (0xE0 + point / 0x1000), Fin.ofNat 256 (0x80 + point / 0x40 % 0x40),
      Fin.ofNat 256 (0x80 + point % 0x40)]
  else
    [Fin.ofNat 256 (0xF0 + point / 0x40000), Fin.ofNat 256 (0x80 + point / 0x1000 % 0x40),
      Fin.ofNat 256 (0x80 + point / 0x40 % 0x40), Fin.ofNat 256 (0x80 + point % 0x40)]

def encodeUtf8 (text : Text) : List Byte :=
  (codePoints text).flatMap encodePoint

/-- What a started character still owes: the bytes after the next one, the bits
read so far, and the bounds of the next byte. -/
structure Utf8Tail where
  further : ℕ
  value : ℕ
  lower : ℕ
  upper : ℕ
deriving DecidableEq

def leadTail (byte : ℕ) : Option Utf8Tail :=
  if 0xC2 ≤ byte ∧ byte ≤ 0xDF then some ⟨0, byte - 0xC0, 0x80, 0xBF⟩
  else if 0xE0 ≤ byte ∧ byte ≤ 0xEF then
    some ⟨1, byte - 0xE0, if byte = 0xE0 then 0xA0 else 0x80,
      if byte = 0xED then 0x9F else 0xBF⟩
  else if 0xF0 ≤ byte ∧ byte ≤ 0xF4 then
    some ⟨2, byte - 0xF0, if byte = 0xF0 then 0x90 else 0x80,
      if byte = 0xF4 then 0x8F else 0xBF⟩
  else none

def decodeLead (byte : ℕ) : List ℕ × Option Utf8Tail :=
  if byte < 0x80 then ([byte], none)
  else
    match leadTail byte with
    | some tail => ([], some tail)
    | none => ([replacementPoint], none)

def decodeTail (tail : Utf8Tail) (byte : ℕ) : List ℕ × Option Utf8Tail :=
  if tail.lower ≤ byte ∧ byte ≤ tail.upper then
    let value := tail.value * 0x40 + (byte - 0x80)
    match tail.further with
    | 0 => ([value], none)
    | further + 1 => ([], some ⟨further, value, 0x80, 0xBF⟩)
  else
    -- the byte ends the ill-formed run and is read again as a first byte
    (replacementPoint :: (decodeLead byte).1, (decodeLead byte).2)

def decodeByte : Option Utf8Tail → ℕ → List ℕ × Option Utf8Tail
  | none, byte => decodeLead byte
  | some tail, byte => decodeTail tail byte

def decodePoints : Option Utf8Tail → List Byte → List ℕ
  | none, [] => []
  | some _, [] => [replacementPoint]
  | state, byte :: rest =>
    (decodeByte state byte.val).1 ++ decodePoints (decodeByte state byte.val).2 rest

def decodeUtf8 (bytes : List Byte) : Text :=
  (decodePoints none bytes).flatMap unitsOf

section Decoding

variable {rest : List Byte} {point : ℕ}

theorem decodePoints_ascii (hpoint : point < 0x80) :
    decodePoints none (Fin.ofNat 256 point :: rest) = point :: decodePoints none rest := by
  have hbyte : (Fin.ofNat 256 point).val = point := Nat.mod_eq_of_lt (by omega)
  rw [decodePoints, hbyte, decodeByte, decodeLead, if_pos hpoint]
  rfl

/-- The bytes that end a started character, each within its bounds. -/
inductive Ends : Utf8Tail → List Byte → ℕ → Prop
  | last {byte value lower upper : ℕ} (hlow : 0x80 ≤ byte) (hhigh : byte < 0x100)
      (hlower : lower ≤ byte) (hupper : byte ≤ upper) :
      Ends ⟨0, value, lower, upper⟩ [Fin.ofNat 256 byte] (value * 0x40 + (byte - 0x80))
  | middle {byte further value lower upper point : ℕ} {bytes : List Byte} (hlow : 0x80 ≤ byte)
      (hhigh : byte < 0x100) (hlower : lower ≤ byte) (hupper : byte ≤ upper)
      (hends : Ends ⟨further, value * 0x40 + (byte - 0x80), 0x80, 0xBF⟩ bytes point) :
      Ends ⟨further + 1, value, lower, upper⟩ (Fin.ofNat 256 byte :: bytes) point

variable {byte : ℕ}

theorem leadTail_two (hlow : 0xC2 ≤ byte) (hhigh : byte ≤ 0xDF) :
    leadTail byte = some ⟨0, byte - 0xC0, 0x80, 0xBF⟩ := by
  rw [leadTail, if_pos ⟨hlow, hhigh⟩]

theorem leadTail_three (hlow : 0xE0 ≤ byte) (hhigh : byte ≤ 0xEF) :
    leadTail byte = some ⟨1, byte - 0xE0, if byte = 0xE0 then 0xA0 else 0x80,
      if byte = 0xED then 0x9F else 0xBF⟩ := by
  rw [leadTail, if_neg (by omega), if_pos ⟨hlow, hhigh⟩]

theorem leadTail_four (hlow : 0xF0 ≤ byte) (hhigh : byte ≤ 0xF4) :
    leadTail byte = some ⟨2, byte - 0xF0, if byte = 0xF0 then 0x90 else 0x80,
      if byte = 0xF4 then 0x8F else 0xBF⟩ := by
  rw [leadTail, if_neg (by omega), if_neg (by omega), if_pos ⟨hlow, hhigh⟩]

theorem ends_encodePoint (hlow : 0x80 ≤ point) (hbound : point < 0x110000)
    (hscalar : isSurrogate point = false) :
    ∃ byte tail bytes, encodePoint point = Fin.ofNat 256 byte :: bytes ∧ 0x80 ≤ byte ∧
      byte < 0x100 ∧ leadTail byte = some tail ∧ Ends tail bytes point := by
  rw [encodePoint, if_neg (by omega), hscalar, if_neg Bool.false_ne_true]
  by_cases htwo : point < 0x800
  · refine ⟨_, _, _, if_pos htwo, by omega, by omega, leadTail_two (by omega) (by omega), ?_⟩
    have hvalue : (0xC0 + point / 0x40 - 0xC0) * 0x40 + (0x80 + point % 0x40 - 0x80) = point := by
      omega
    conv => rhs; rw [← hvalue]
    exact .last (by omega) (by omega) (by omega) (by omega)
  rw [if_neg htwo]
  by_cases hthree : point < 0x10000
  · have hoff : ¬ (0xD800 ≤ point ∧ point < 0xE000) := by
      simpa [isSurrogate] using hscalar
    have hvalue : ((0xE0 + point / 0x1000 - 0xE0) * 0x40 +
        (0x80 + point / 0x40 % 0x40 - 0x80)) * 0x40 + (0x80 + point % 0x40 - 0x80) = point := by
      omega
    refine ⟨_, _, _, if_pos hthree, by omega, by omega, leadTail_three (by omega) (by omega), ?_⟩
    conv => rhs; rw [← hvalue]
    refine .middle (by omega) (by omega) ?_ ?_ (.last (by omega) (by omega) (by omega) (by omega))
    · split <;> omega
    · split <;> omega
  · have hvalue : (((0xF0 + point / 0x40000 - 0xF0) * 0x40 +
        (0x80 + point / 0x1000 % 0x40 - 0x80)) * 0x40 +
        (0x80 + point / 0x40 % 0x40 - 0x80)) * 0x40 + (0x80 + point % 0x40 - 0x80) = point := by
      omega
    refine ⟨_, _, _, if_neg hthree, by omega, by omega, leadTail_four (by omega) (by omega), ?_⟩
    conv => rhs; rw [← hvalue]
    refine .middle (by omega) (by omega) ?_ ?_ (.middle (by omega) (by omega) (by omega) (by omega)
      (.last (by omega) (by omega) (by omega) (by omega)))
    · split <;> omega
    · split <;> omega

theorem decodePoints_lead {tail : Utf8Tail} (hlow : 0x80 ≤ byte) (hhigh : byte < 0x100)
    (htail : leadTail byte = some tail) :
    decodePoints none (Fin.ofNat 256 byte :: rest) = decodePoints (some tail) rest := by
  have hbyte : (Fin.ofNat 256 byte).val = byte := Nat.mod_eq_of_lt hhigh
  rw [decodePoints, hbyte, decodeByte, decodeLead, if_neg (by omega), htail]
  rfl

theorem decodePoints_ends {tail : Utf8Tail} {bytes : List Byte} (hends : Ends tail bytes point) :
    decodePoints (some tail) (bytes ++ rest) = point :: decodePoints none rest := by
  induction hends with
  | last _ hhigh hlower hupper =>
    rw [singleton_append, decodePoints, Fin.val_ofNat, Nat.mod_eq_of_lt hhigh, decodeByte,
      decodeTail, if_pos ⟨hlower, hupper⟩]
    rfl
  | middle _ hhigh hlower hupper _ ih =>
    rw [cons_append, decodePoints, Fin.val_ofNat, Nat.mod_eq_of_lt hhigh, decodeByte,
      decodeTail, if_pos ⟨hlower, hupper⟩]
    exact ih

theorem decodePoints_encodePoint (hbound : point < 0x110000) (hscalar : isSurrogate point = false) :
    decodePoints none (encodePoint point ++ rest) = point :: decodePoints none rest := by
  by_cases hascii : point < 0x80
  · rw [encodePoint, if_pos hascii, cons_append, decodePoints_ascii hascii]
    rfl
  · obtain ⟨byte, tail, bytes, hencoded, hlow, hhigh, htail, hends⟩ :=
      ends_encodePoint (Nat.le_of_not_lt hascii) hbound hscalar
    rw [hencoded, cons_append, decodePoints_lead hlow hhigh htail, decodePoints_ends hends]

end Decoding

theorem decodePoints_encoded {points : List ℕ} (hbound : ∀ point ∈ points, point < 0x110000)
    (hscalar : ∀ point ∈ points, isSurrogate point = false) :
    decodePoints none (points.flatMap encodePoint) = points := by
  induction points with
  | nil => rfl
  | cons point rest ih =>
    rw [flatMap_cons, decodePoints_encodePoint (hbound point mem_cons_self)
        (hscalar point mem_cons_self),
      ih (fun other hother => hbound other (mem_cons_of_mem _ hother))
        (fun other hother => hscalar other (mem_cons_of_mem _ hother))]

theorem decodeUtf8_encodeUtf8 {text : Text} (hwell : isWellFormed text) :
    decodeUtf8 (encodeUtf8 text) = text := by
  have hscalar : ∀ point ∈ codePoints text, isSurrogate point = false := by
    simpa [isWellFormed] using hwell
  rw [decodeUtf8, encodeUtf8, decodePoints_encoded (fun _ hpoint => codePoints_lt hpoint) hscalar,
    flatMap_unitsOf_codePoints]

example : encodeUtf8 (Text.ofString "é") = [0xC3, 0xA9] := by decide

example : decodeUtf8 [0xE2, 0x82, 0x41, 0xFF] = [0xFFFD, 0x41, 0xFFFD] := by decide

end Text
